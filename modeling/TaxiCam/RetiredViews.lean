-- The views that the bridge gave back, and the ledger that holds each of them
-- until the pool has proved its release. What a view is to the bridge is read
-- off the history; the ledger has every view that was retired, and a creation
-- is called only where the ledger is empty.
import TaxiCam.ObserverStarts

namespace taxi_camera.engine_camera.PairController

/-- The entries of a new set are prepared and created. -/
def filling (s : PairController) : Bool :=
  match s.phase with
  | .preparing _ _ | .creating _ _ _ => true
  | _ => false

/-- A creation goes on, or one begins that was asked for. -/
theorem filling_resume {s : PairController} {answer : Answer} (ht : s.Tidy)
    (h : (s.resume answer).filling = true) : s.filling = true ∨
      (∃ manager, s.phase = .starting manager) ∧ (s.desired_enabled && s.creation_pending) = true := by
  have hstaged := ht.staged
  have hnot : ∀ {t : PairController}, t.filling = false → t.filling = true → False := by
    intro t hno hyes
    rw [hno] at hyes
    cases hyes
  unfold resume at h
  split at h <;> rename_i hphase <;> rw [hphase] at hstaged
  · exact .inl h
  · exact hstaged.elim
  · exact hstaged.elim
  · exact hstaged.elim
  · refine (hnot ?_ h).elim
    unfold take apply
    split <;> rfl
  · refine (hnot ?_ h).elim
    unfold decide_update rest begin_cleanup
    repeat' split
    all_goals rfl
  · refine (hnot ?_ h).elim
    unfold cleanup end_cleanup
    repeat' split
    all_goals rfl
  · refine .inr ⟨⟨_, hphase⟩, ?_⟩
    unfold start at h
    split at h
    · exact (hnot rfl h).elim
    rename_i hasked
    simpa using hasked
  · left
    unfold filling
    rw [hphase]
  · left
    unfold filling
    rw [hphase]
  · exact (hnot rfl h).elim
  · exact (hnot rfl h).elim

end taxi_camera.engine_camera.PairController

namespace taxi_camera.native_camera

open engine_camera histories runs PairController List

/-! ## The standing of a view -/

/-- What a view is to the bridge, as a view of one renderer: recorded for an entry, and retired,
where its entry was erased or was gone when the next creation was attempted. -/
structure Standing where
  recorded : Bool := false
  retired : Bool := false
deriving DecidableEq

namespace Standing

variable (renderer view : Nat)

def next (s : Standing) : Event → Standing
  | .recorded r v => if v = view then { s with recorded := r == renderer } else s
  | .handed r v => if v = view then { recorded := false, retired := s.retired || r == renderer } else s
  | .attempted => { s with retired := s.retired || s.recorded }
  | .cleared r v => if r = renderer ∧ v = view then {} else s
  | _ => s

end Standing

def standing (renderer view : Nat) (log : List Event) : Standing :=
  log.foldl (Standing.next renderer view) {}

theorem standing_append (renderer view : Nat) (log es : List Event) :
    standing renderer view (log ++ es) = es.foldl (Standing.next renderer view) (standing renderer view log) :=
  foldl_append

@[simp] theorem standing_snoc (renderer view : Nat) (log : List Event) (e : Event) :
    standing renderer view (log ++ [e]) = (standing renderer view log).next renderer view e :=
  standing_append renderer view log [e]

/-! ## What a creation needs -/

namespace Event

/-- A new inspection of the pool, or a new update of the controller. -/
def looks : Event → Bool
  | .snapshot _ _ | .began => true
  | _ => false

/-- What changes no standing, is no creation and takes no snapshot out of its update. -/
def aside : Event → Bool
  | .started _ _ | .ended _ | .retried _ | .resumed _ | .withdrawn _ | .committed _ => true
  | _ => false

end Event

/-- The pool was inspected last for this renderer, in the update that is under way. -/
def Latest (renderer : Nat) (pool : ViewPoolSnapshot) : List Event → Prop :=
  Since Event.looks fun _ e => e = .snapshot renderer pool

/-- The last inspection has room, and the release of every view that was retired is proved in it. -/
def Fit (renderer required : Nat) (past : List Event) : Prop :=
  ∃ pool, Latest renderer pool past ∧ pool.creation_available required = true ∧
    ∀ r v, v ≠ 0 → (standing r v past).retired = true → pool.releasing v = false

def Admissible (past : List Event) : Event → Prop
  | .created renderer required _ => Fit renderer required past
  | _ => True

namespace Runtime

/-- What the bridge promises of the views: every retired view is in the ledger, between two updates
also every view whose entry is gone, and every creation was admissible. -/
structure Safe (s : Runtime) : Prop where
  retired : ∀ r v, v ≠ 0 → (standing r v s.history).retired = true → s.retired_views.Holds r v
  gone : s.point = .away → s.pair.has_owned_ids = false →
    ∀ r v, v ≠ 0 → (standing r v s.history).recorded = true → s.retired_views.Holds r v
  created : Explained Admissible s.history

/-! ## The condition -/

/-- A view that is recorded, but neither handed to the native erase nor proved released. -/
def unclaimed (s : Runtime) : Bool :=
  (List.finRange kMaxOwnedViews).any fun k =>
    s.owned_pool_views k != 0 && (standing s.owned_pool_renderer (s.owned_pool_views k) s.history).recorded

def recorded_views (s : Runtime) : List Nat := (List.finRange kMaxOwnedViews).map s.owned_pool_views

/-- The ledger can take what is left of a pair that is gone. -/
def transferable (s : Runtime) : Bool :=
  !s.unclaimed || s.retired_views.takes s.owned_pool_renderer s.recorded_views

/-- Where the step can lose a view, no view is left of a pair that is gone, or the ledger takes it:
when another creation is attempted, when the views of a pair are recorded for two renderers, when a
pair is cleared, and when an update that found the pair gone is left before. -/
def orderly (s : Runtime) : Op → Bool
  | .observe sight =>
    if sight.throws && !s.in_controller then s.pair.has_owned_ids || !s.unclaimed
    else match s.point with
      | .processing _ _ =>
        match s.pair.phase with
        | .starting _ => !(s.pair.desired_enabled && s.pair.creation_pending) || !s.unclaimed
        | .creating _ _ _ =>
          s.calling.isNone || sight.id == 0 || sight.view.isNone || !s.unclaimed ||
            s.renderer == s.owned_pool_renderer
        | _ => true
      | .clearing _ => s.pair.has_owned_ids || s.transferable
      | .draining _ => s.pair.has_owned_ids || !s.unclaimed || (!sight.met && s.transferable)
      | _ => true
  | _ => true

/-! ## What the ledger covers -/

section
variable {s t v : Runtime}

/-- Every recorded view is in the ledger, or stands in one of the places. -/
def Covered (s : Runtime) (places : View → Prop) : Prop :=
  ∀ r v, v ≠ 0 → (standing r v s.history).recorded = true →
    s.retired_views.Holds r v ∨ ∃ k, places k ∧ s.owned_pool_views k = v ∧ s.owned_pool_renderer = r

structure Books (places : View → Prop) (s : Runtime) : Prop where
  retired : ∀ r v, v ≠ 0 → (standing r v s.history).retired = true → s.retired_views.Holds r v
  covered : s.Covered places
  created : Explained Admissible s.history

variable {e : Event} {es log : List Event} {required : Nat} {sight : Sight} {places : View → Prop}

theorem Books.mono {more : View → Prop} (h : Books places s) (hsub : ∀ k, places k → more k) : Books more s where
  retired := h.retired
  covered r v hv hr := by
    rcases h.covered r v hv hr with hholds | ⟨k, hk, hslot, hrenderer⟩
    · exact .inl hholds
    · exact .inr ⟨k, hsub k hk, hslot, hrenderer⟩
  created := h.created

/-- Where no view is left, the ledger has them all. -/
theorem Books.none_left (h : Books places s) (hnone : s.unclaimed = false) : Books (fun _ => False) s where
  retired := h.retired
  covered r v hv hr := by
    rcases h.covered r v hv hr with hholds | ⟨k, -, hslot, hrenderer⟩
    · exact .inl hholds
    -- the place of the view would be unclaimed
    subst hslot hrenderer
    have hany : s.unclaimed = true := any_eq_true.mpr ⟨k, mem_finRange k, by simpa [hr] using hv⟩
    rw [hnone] at hany
    cases hany
  created := h.created

/-- Nothing of the views, of the ledger and of the entries changes. -/
structure Aside (s t : Runtime) : Prop where
  ids : t.pair.has_owned_ids = s.pair.has_owned_ids
  retired_views : t.retired_views = s.retired_views
  owned_pool_views : t.owned_pool_views = s.owned_pool_views
  owned_pool_renderer : t.owned_pool_renderer = s.owned_pool_renderer
  told : ∃ es, t.history = s.history ++ es ∧ ∀ e ∈ es, e.aside = true

theorem Aside.refl (s : Runtime) : Aside s s := ⟨rfl, rfl, rfl, rfl, [], (append_nil _).symm, nofun⟩

theorem Aside.trans (h : Aside s t) (h' : Aside t v) : Aside s v where
  ids := h'.ids.trans h.ids
  retired_views := h'.retired_views.trans h.retired_views
  owned_pool_views := h'.owned_pool_views.trans h.owned_pool_views
  owned_pool_renderer := h'.owned_pool_renderer.trans h.owned_pool_renderer
  told := by
    obtain ⟨es, hes, hplain⟩ := h.told
    obtain ⟨es', hes', hplain'⟩ := h'.told
    refine ⟨es ++ es', by rw [hes', hes, append_assoc], fun e he => ?_⟩
    rcases mem_append.mp he with he | he
    · exact hplain e he
    · exact hplain' e he

theorem Aside.of_tell (h : Aside s t) (he : e.aside = true) : Aside s (t.tell e) := by
  refine h.trans { refl t with told := ⟨[e], rfl, fun x hx => ?_⟩ }
  rw [mem_singleton.mp hx]
  exact he

theorem Keeps.aside (h : Keeps s t) : Aside s t where
  ids := h.pair.has_owned_ids
  retired_views := h.retired_views
  owned_pool_views := h.owned_pool_views
  owned_pool_renderer := h.owned_pool_renderer
  told := ⟨[], by rw [h.history, append_nil], nofun⟩

theorem Block.aside (h : Block s t) : Aside s t := by
  have hapart := h.apart
  refine ⟨hapart.pair.has_owned_ids, hapart.retired_views, hapart.owned_pool_views, hapart.owned_pool_renderer, ?_⟩
  have hone : ∀ {e : Event}, t.history = s.history ++ [e] → e.aside = true →
      ∃ es, t.history = s.history ++ es ∧ ∀ e ∈ es, e.aside = true := by
    intro e he hplain
    refine ⟨[e], he, fun x hx => ?_⟩
    rw [mem_singleton.mp hx]
    exact hplain
  rcases h.kind with hkeeps | ⟨by_what, hends⟩ | ⟨retained, hstarts⟩
  · exact hkeeps.aside.told
  · exact hone hends.history rfl
  · exact hone hstarts.history rfl

theorem standing_aside (hes : ∀ e ∈ es, e.aside = true) (renderer view : Nat) :
    standing renderer view (log ++ es) = standing renderer view log := by
  induction es generalizing log with
  | nil => rw [append_nil]
  | cons e rest ih =>
    have happend : log ++ e :: rest = (log ++ [e]) ++ rest := by simp
    rw [happend, ih fun x hx => hes x (mem_cons_of_mem _ hx), standing_snoc]
    have he := hes e mem_cons_self
    cases e <;> first | rfl | cases he

theorem explained_aside (h : Explained Admissible log)
    (hes : ∀ e ∈ es, e.aside = true) : Explained Admissible (log ++ es) := by
  induction es generalizing log with
  | nil =>
    rw [append_nil]
    exact h
  | cons e rest ih =>
    have happend : log ++ e :: rest = (log ++ [e]) ++ rest := by simp
    rw [happend]
    refine ih (explained_snoc h ?_) fun x hx => hes x (mem_cons_of_mem _ hx)
    have he := hes e mem_cons_self
    cases e with
    | created _ _ _ => cases he
    | _ => trivial

theorem Aside.standing (h : Aside s t) (renderer view : Nat) :
    standing renderer view t.history = native_camera.standing renderer view s.history := by
  obtain ⟨es, hes, hplain⟩ := h.told
  rw [hes, standing_aside hplain]

theorem Books.aside (h : Books places s) (ha : Aside s t) : Books places t where
  retired r v hv hr := by
    rw [ha.standing] at hr
    rw [ha.retired_views]
    exact h.retired r v hv hr
  covered r v hv hr := by
    rw [ha.standing] at hr
    rw [ha.retired_views, ha.owned_pool_views, ha.owned_pool_renderer]
    exact h.covered r v hv hr
  created := by
    obtain ⟨es, hes, hplain⟩ := ha.told
    rw [hes]
    exact explained_aside h.created hplain

/-! ## The work on the ledger -/

/-- What a step of the observer leaves of the views, whatever places they stand in. -/
structure Carries (s t : Runtime) : Prop where
  ids : t.pair.has_owned_ids = s.pair.has_owned_ids
  books : ∀ places, Books places s → Books places t

theorem Carries.refl (s : Runtime) : Carries s s := ⟨rfl, fun _ h => h⟩

theorem Carries.trans (h : Carries s t) (h' : Carries t v) : Carries s v :=
  ⟨h'.ids.trans h.ids, fun places hb => h'.books places (h.books places hb)⟩

theorem Aside.carries (h : Aside s t) : Carries s t := ⟨h.ids, fun _ hb => hb.aside h⟩

theorem Keeps.carries (h : Keeps s t) : Carries s t := h.aside.carries

theorem Block.carries (h : Block s t) : Carries s t := h.aside.carries

theorem Carries.go_to (h : Carries s t) (point : Point) : Carries s (t.go_to point) :=
  h.trans (Aside.carries { Aside.refl t with })

/-- The views that a snapshot took out of the ledger stand for nothing any more. -/
theorem standing_cleared (renderer view cleared : Nat) (log : List Event) (views : List Nat) :
    standing renderer view (log ++ views.map (.cleared cleared)) =
      if cleared = renderer ∧ view ∈ views then {} else standing renderer view log := by
  induction views generalizing log with
  | nil => simp
  | cons old rest ih =>
    have happend : log ++ (old :: rest).map (Event.cleared cleared) =
        (log ++ [.cleared cleared old]) ++ rest.map (Event.cleared cleared) := by simp
    rw [happend, ih, standing_snoc]
    by_cases hlater : cleared = renderer ∧ view ∈ rest
    · rw [if_pos hlater, if_pos ⟨hlater.1, mem_cons_of_mem _ hlater.2⟩]
    rw [if_neg hlater]
    show (if cleared = renderer ∧ old = view then {} else standing renderer view log) = _
    by_cases hnow : cleared = renderer ∧ old = view
    · rw [if_pos hnow, if_pos ⟨hnow.1, by rw [hnow.2]; exact mem_cons_self⟩]
    rw [if_neg hnow, if_neg]
    rintro ⟨hrenderer, hmem⟩
    rcases mem_cons.mp hmem with rfl | hrest
    · exact hnow ⟨hrenderer, rfl⟩
    · exact hlater ⟨hrenderer, hrest⟩

theorem creation_pool_standing (s : Runtime) (pool : ViewPoolSnapshot) (renderer view : Nat) :
    standing renderer view (s.creation_pool pool).history =
      if s.renderer = renderer ∧ view ∈ s.retired_views.released s.renderer pool then {}
      else standing renderer view s.history := by
  have happend : (s.creation_pool pool).history = (s.history ++ [.snapshot s.renderer pool]) ++
      (s.retired_views.released s.renderer pool).map (.cleared s.renderer) := by
    show s.history ++ _ :: _ = _
    simp
  rw [happend, standing_cleared, standing_snoc]
  rfl

/-- An inspection takes a view out of the ledger where it proves its release. -/
theorem creation_pool_carries (s : Runtime) (pool : ViewPoolSnapshot) : Carries s (s.creation_pool pool) := by
  refine ⟨rfl, fun places h => ⟨fun r v hv hr => ?_, fun r v hv hr => ?_, ?_⟩⟩
  · rw [creation_pool_standing] at hr
    split at hr
    · cases hr
    rename_i hkept
    exact ((h.retired r v hv hr).observe).resolve_right hkept
  · rw [creation_pool_standing] at hr
    split at hr
    · cases hr
    rename_i hkept
    rcases h.covered r v hv hr with hholds | hslot
    · exact .inl (hholds.observe.resolve_right hkept)
    · exact .inr hslot
  · show Explained Admissible (s.history ++ .snapshot s.renderer pool :: _)
    have hcleared : ∀ (views : List Nat) (log : List Event), Explained Admissible log →
        Explained Admissible (log ++ views.map (.cleared s.renderer)) := by
      intro views
      induction views with
      | nil =>
        intro log hlog
        rw [map_nil, append_nil]
        exact hlog
      | cons old rest ih =>
        intro log hlog
        rw [map_cons, ← singleton_append, ← append_assoc]
        exact ih _ (explained_snoc hlog trivial)
    rw [← singleton_append, ← append_assoc]
    exact hcleared _ _ (explained_snoc h.created trivial)

/-- Where the pool is ready, it was inspected last, and the ledger is empty. -/
theorem creation_pool_ready {pool : ViewPoolSnapshot} (h : (s.creation_pool pool).retirement_waiting = false) :
    Latest s.renderer pool (s.creation_pool pool).history ∧
      ∀ r v, ¬(s.creation_pool pool).retired_views.Holds r v := by
  constructor
  · show Latest s.renderer pool (s.history ++ .snapshot s.renderer pool :: _)
    rw [← singleton_append, ← append_assoc]
    refine (Since.now rfl).append fun e he => ?_
    obtain ⟨view, -, rfl⟩ := mem_map.mp he
    rfl
  · have hcontent : (s.retired_views.observe s.renderer pool).2 = true := by
      have hwaiting : (!pool.valid || !(s.retired_views.observe s.renderer pool).2) = false := h
      simp only [Bool.or_eq_false_iff, Bool.not_eq_false'] at hwaiting
      exact hwaiting.2
    exact fun r v => RetiredViewPool.not_holds_of_observe hcontent

theorem creation_capacity_carries (s : Runtime) (required : Nat) (sight : Sight) :
    Carries s (s.creation_capacity required sight).1 := by
  have hfirst := creation_pool_carries s sight.pool
  have hsecond := hfirst.trans (creation_pool_carries (s.creation_pool sight.pool) sight.pool_again)
  have hwaits : ∀ t : Runtime, Carries s t → Carries s { t with retirement_waiting := true } :=
    fun t ht => ht.trans (Aside.carries { Aside.refl t with })
  unfold creation_capacity
  dsimp only
  generalize (sight.pool.valid && !(s.creation_pool sight.pool).retirement_waiting && sight.cleared_aa) = again
  cases again
  · simp only [Bool.false_eq_true, if_false]
    split
    · exact hfirst
    · exact hwaits _ hfirst
  · simp only [if_true]
    split
    · exact hsecond
    · exact hwaits _ hsecond

theorem creation_capacity_ready (h : (s.creation_capacity required sight).2 = true) :
    (∃ pool, Latest s.renderer pool (s.creation_capacity required sight).1.history ∧
      pool.creation_available required = true) ∧
      ∀ r v, ¬(s.creation_capacity required sight).1.retired_views.Holds r v := by
  revert h
  unfold creation_capacity
  dsimp only
  generalize (sight.pool.valid && !(s.creation_pool sight.pool).retirement_waiting && sight.cleared_aa) = again
  cases again
  · simp only [Bool.false_eq_true, if_false]
    split
    · rename_i hready
      simp only [Bool.and_eq_true, Bool.not_eq_true'] at hready
      obtain ⟨hlatest, hnone⟩ := creation_pool_ready hready.1
      exact fun _ => ⟨⟨_, hlatest, hready.2⟩, hnone⟩
    · exact nofun
  · simp only [if_true]
    split
    · rename_i hready
      simp only [Bool.and_eq_true, Bool.not_eq_true'] at hready
      obtain ⟨hlatest, hnone⟩ := creation_pool_ready hready.1
      exact fun _ => ⟨⟨_, hlatest, hready.2⟩, hnone⟩
    · exact nofun

/-- A view goes from its place into the ledger. -/
theorem transfer_carries (s : Runtime) (index : View) : Carries s (s.transfer index) := by
  unfold transfer
  dsimp only
  split
  · rename_i hretained
    simp only [Bool.and_eq_true] at hretained
    refine ⟨rfl, fun places h => ⟨fun r v hv hr => (h.retired r v hv hr).retain, fun r v hv hr => ?_, h.created⟩⟩
    rcases h.covered r v hv hr with hholds | ⟨k, hk, hslot, hrenderer⟩
    · exact .inl hholds.retain
    by_cases hindex : k = index
    · subst hindex hslot hrenderer
      exact .inl (RetiredViewPool.holds_of_retain hretained.2)
    refine .inr ⟨k, hk, ?_, hrenderer⟩
    show Function.update s.owned_pool_views index 0 k = v
    rw [Function.update_of_ne hindex]
    exact hslot
  · exact Carries.refl s

theorem clear_retired_pair_carries (s : Runtime) : Carries s s.clear_retired_pair := by
  have hfold : ∀ (indices : List View) (t : Runtime), Carries t (indices.foldl transfer t) := by
    intro indices
    induction indices with
    | nil => exact Carries.refl
    | cons index rest ih =>
      intro t
      exact (transfer_carries t index).trans (ih _)
  exact hfold _ s

theorem transfer_other {index k : View} (h : k ≠ index) :
    (s.transfer index).owned_pool_views k = s.owned_pool_views k := by
  unfold transfer
  dsimp only
  split
  · exact Function.update_of_ne h 0 s.owned_pool_views
  · rfl

theorem transfer_renderer (s : Runtime) (index : View) :
    (s.transfer index).owned_pool_renderer = s.owned_pool_renderer := by
  unfold transfer
  dsimp only
  split <;> rfl

/-- With room for the views, one is taken, and there is room for the others. -/
theorem transfer_takes {index : View} {rest : List View} (hnot : index ∉ rest)
    (h : s.retired_views.takes s.owned_pool_renderer ((index :: rest).map s.owned_pool_views) = true) :
    (s.transfer index).owned_pool_views index = 0 ∧
      (s.transfer index).retired_views.takes (s.transfer index).owned_pool_renderer
        (rest.map (s.transfer index).owned_pool_views) = true := by
  have hrest : rest.map (s.transfer index).owned_pool_views = rest.map s.owned_pool_views := by
    refine map_congr_left fun k hk => transfer_other ?_
    rintro rfl
    exact hnot hk
  rw [hrest, transfer_renderer]
  by_cases hview : s.owned_pool_views index = 0
  · have hsame : s.transfer index = s := by
      unfold transfer
      rw [hview]
      rfl
    rw [hsame]
    refine ⟨hview, ?_⟩
    rwa [map_cons, hview, RetiredViewPool.takes_zero] at h
  obtain ⟨hretained, htakes⟩ := RetiredViewPool.takes_retain h hview
  have hmoved : s.transfer index = { s with
      retired_views := (s.retired_views.retain s.owned_pool_renderer (s.owned_pool_views index)).1
      owned_pool_views := Function.update s.owned_pool_views index 0 } := by
    unfold transfer
    simp [hview, hretained]
  rw [hmoved]
  exact ⟨Function.update_self index 0 s.owned_pool_views, htakes⟩

/-- Where the ledger takes the pair, nothing is left of it. -/
theorem clear_retired_pair_empty (h : s.retired_views.takes s.owned_pool_renderer s.recorded_views = true) :
    s.clear_retired_pair.unclaimed = false := by
  have hfold : ∀ (indices : List View), indices.Nodup → ∀ t : Runtime,
      t.retired_views.takes t.owned_pool_renderer (indices.map t.owned_pool_views) = true →
      ∀ k, (k ∈ indices ∨ t.owned_pool_views k = 0) → (indices.foldl transfer t).owned_pool_views k = 0 := by
    intro indices
    induction indices with
    | nil => exact fun _ t _ k hk => hk.resolve_left not_mem_nil
    | cons index rest ih =>
      intro hnodup t htakes k hk
      obtain ⟨hnot, hrest⟩ := nodup_cons.mp hnodup
      obtain ⟨hzero, hlater⟩ := transfer_takes hnot htakes
      refine ih hrest _ hlater k ?_
      by_cases hindex : k = index
      · subst hindex
        exact .inr hzero
      rcases hk with hk | hk
      · exact .inl ((mem_cons.mp hk).resolve_left hindex)
      · exact .inr (by rw [transfer_other hindex]; exact hk)
  have hempty : ∀ k, s.clear_retired_pair.owned_pool_views k = 0 :=
    fun k => hfold _ (nodup_finRange _) s h k (.inl (mem_finRange k))
  unfold unclaimed
  rw [any_eq_false]
  intro k _
  rw [hempty k]
  exact nofun

theorem clear_retired_pair_none_left (h : Books places s) (ht : s.transferable = true) :
    Books (fun _ => False) s.clear_retired_pair := by
  have hcleared := clear_retired_pair_carries s
  simp only [transferable, Bool.or_eq_true, Bool.not_eq_true'] at ht
  rcases ht with hnone | htakes
  · exact hcleared.books _ (h.none_left hnone)
  · exact (hcleared.books _ h).none_left (clear_retired_pair_empty htakes)

/-! ## The observer between two updates of the controller -/

theorem Blocks.carries (h : Blocks s t) : Carries s t := by
  induction h with
  | refl => exact Carries.refl s
  | block _ hblock _ ih => exact ih.trans hblock.carries

theorem manager_context_carries (s : Runtime) (identity : ManagerIdentity) :
    Carries s (s.manager_context identity) := Aside.carries { Aside.refl s with }

theorem Path.carries (h : Path s t) : Carries s t := by
  induction h with
  | refl => exact Carries.refl s
  | blocks _ hblocks ih => exact ih.trans hblocks.carries
  | work _ hwork ih =>
    refine ih.trans ?_
    cases hwork with
    | context identity => exact manager_context_carries _ identity
    | pool pool => exact creation_pool_carries _ pool
    | capacity required sight => exact creation_capacity_carries _ required sight
    | clear => exact clear_retired_pair_carries _

theorem Goes.carries {going : Bool} {u : Update} (h : Goes going s u t) : Carries s t ∧ t.point.passes = false := by
  obtain ⟨v, point, hleads, rfl⟩ := h
  exact ⟨hleads.path.carries.go_to point, hleads.passes⟩

theorem has_owned_ids_process_update (pair : PairController) (manager : ManagerToken) :
    (pair.process_update manager {}).has_owned_ids = pair.has_owned_ids := by
  unfold PairController.process_update
  split <;> rfl

section
variable (s) (u : Update) (sight : Sight)

theorem disabled_carries : Carries s { s with pair := s.pair.request_disable } :=
  (Keeps.of_beside s (Beside.of_disable s.pair)).carries

theorem record_stop_carries (reason : SceneStopReason) (detail : String) (now : Nat) (expected : Option Nat) :
    Carries s (s.record_stop reason detail now expected) := (record_stop_keeps s reason detail now expected).carries

theorem clear_drained_carries (answer : EmptyPairCancel) : Carries s (s.clear_drained answer) := by
  unfold clear_drained
  split
  · exact clear_retired_pair_carries s
  · exact Carries.refl s

/-- What the drain does after its cancellation and the transfer of the pair. -/
theorem drain_carries : Carries ((s.cancel_outside sight).1.clear_drained (s.cancel_outside sight).2)
    (s.drain u sight) := by
  unfold drain
  dsimp only
  generalize (s.cancel_outside sight).1.clear_drained (s.cancel_outside sight).2 = cleared
  split
  · exact (Carries.refl cleared).go_to _
  split
  · exact (Carries.refl cleared).go_to _
  · exact ((manager_context_carries cleared _).trans (creation_pool_carries _ _)).go_to _

theorem withdraw_carries (temporary : Bool) : Carries s (s.withdraw u temporary) := by
  have hasked : ∀ t : Runtime, Carries s t →
      Carries s (if temporary = true then { t with pair := t.pair.request_disable } else t) := by
    intro t ht
    split
    · exact ht.trans (disabled_carries t)
    · exact ht
  refine Carries.go_to (hasked _ ?_) _
  split
  · have hconsumed : Aside s { s with
        requested_start := false, requested_start_revision := s.requested_start_revision + 1 } :=
      { Aside.refl s with }
    exact (hconsumed.of_tell rfl).carries
  · exact Carries.refl s

theorem process_update_carries (pass : Pass) : Carries s (s.process_update u pass sight) := by
  unfold process_update
  split
  · exact (Carries.refl s).go_to _
  refine Carries.go_to ⟨has_owned_ids_process_update _ _, fun places h => ⟨?_, ?_, ?_⟩⟩ _
  · intro r v hv hr
    rw [show history _ = s.history ++ [.began] from rfl, standing_snoc] at hr
    exact h.retired r v hv hr
  · intro r v hv hr
    rw [show history _ = s.history ++ [.began] from rfl, standing_snoc] at hr
    exact h.covered r v hv hr
  · exact explained_snoc h.created trivial

theorem resume_creation_carries : Carries s (s.resume_creation u) := by
  have hcancelled := cancel_uncreated_request_keeps s
  unfold resume_creation
  dsimp only
  split
  · exact (Carries.refl s).go_to _
  split
  · exact Aside.carries { Aside.refl s with }
  split
  · exact (Carries.refl s).go_to _
  split
  · exact hcancelled.carries.go_to _
  have hset : Aside s { s.cancel_uncreated_request.1 with
      creation_wait := { s.creation_wait with pending := false }, requested_start := true } :=
    { hcancelled.aside with }
  exact (hset.of_tell rfl).carries.go_to _

theorem retry_carries : Carries s (s.retry u sight) := by
  unfold retry
  dsimp only
  split
  · exact (Carries.refl s).go_to _
  split
  · have hset : Aside s { s with
        recovery := (s.recovery.retry sight.now u.pair sight.pose).1
        requested_start := true
        requested_start_revision := s.requested_start_revision + 1 } := { Aside.refl s with }
    exact (hset.of_tell rfl).carries.go_to _
  · exact (Carries.refl s).go_to _

theorem commit_carries : Carries s (s.commit u) := by
  unfold commit
  split
  · have hset : Aside s { s with
        creation_revision := u.start_revision
        pair := s.pair.request_independent_pose s.feeds
        requested_start := false } := { Aside.refl s with }
    exact (hset.of_tell rfl).carries.go_to _
  · exact (Carries.refl s).go_to _

theorem thrown_carries : Carries s (s.thrown sight) :=
  ((disabled_carries s).trans (record_stop_carries _ _ _ _ _)).go_to _

end

/-! ## The engine's calls -/

theorem initializer_carries (s : Runtime) (sight : Sight) : Carries s (s.initializer sight).1 := by
  unfold initializer
  split
  · exact Aside.carries { Aside.refl s with }
  split
  · unfold first_initialize
    dsimp only
    have hbegun : Carries s { s with creation_pose_unavailable := false } := Aside.carries { Aside.refl s with }
    have hcapacity := hbegun.trans (creation_capacity_carries _ s.required_feeds sight)
    split
    · exact hcapacity.trans (Aside.carries { Aside.refl _ with })
    · exact hcapacity.trans (Aside.carries { Aside.refl _ with })
  · exact Carries.refl s

theorem creation_capacity_creations (s : Runtime) (required : Nat) (sight : Sight) :
    (s.creation_capacity required sight).1.creations = s.creations := by
  obtain ⟨_, _, _, h⟩ := creation_capacity_same s required sight
  rw [h]

theorem creation_capacity_renderer (s : Runtime) (required : Nat) (sight : Sight) :
    (s.creation_capacity required sight).1.renderer = s.renderer := by
  obtain ⟨_, _, _, h⟩ := creation_capacity_same s required sight
  rw [h]

theorem initializer_creations (s : Runtime) (sight : Sight) : (s.initializer sight).1.creations = s.creations := by
  unfold initializer
  split
  · rfl
  split
  · unfold first_initialize
    dsimp only
    have hsame := creation_capacity_creations { s with creation_pose_unavailable := false } s.required_feeds sight
    split
    · exact hsame
    · exact hsame
  · rfl

/-- The guards of a native create, and what they found where all of them passed. -/
structure Guarding (s t : Runtime) (passed : Bool) : Prop where
  carries : Carries s t
  creations : t.creations = s.creations
  passed : passed = true → s.creations < kMaxOwnedViews ∧ ∃ required, t.calling = some required ∧
    (∃ pool, Latest t.renderer pool t.history ∧ pool.creation_available required = true) ∧
    ∀ r v, ¬t.retired_views.Holds r v

theorem guard_create_guards (s : Runtime) (manager : ManagerToken) (sight : Sight) :
    Guarding s (s.guard_create manager sight).1 (s.guard_create manager sight).2 := by
  unfold guard_create
  split
  · exact ⟨Aside.carries { Aside.refl s with }, rfl, nofun⟩
  rename_i hroom
  split
  · exact ⟨Carries.refl s, rfl, nofun⟩
  split
  · exact ⟨Carries.refl s, rfl, nofun⟩
  rename_i identity _
  have hinspected := manager_context_carries s identity
  dsimp only
  split
  · exact ⟨hinspected, rfl, nofun⟩
  generalize (if s.creations = 0 then s.required_feeds else 1) = required
  have hcapacity := hinspected.trans (creation_capacity_carries _ required sight)
  have hsame := creation_capacity_creations (s.manager_context identity) required sight
  split
  · exact ⟨hcapacity.trans (Aside.carries { Aside.refl _ with }), hsame, nofun⟩
  rename_i hready
  split
  · exact ⟨hcapacity.trans (Aside.carries { Aside.refl _ with }), hsame, nofun⟩
  refine ⟨hcapacity.trans (Aside.carries { Aside.refl _ with }), hsame, fun _ => ?_⟩
  obtain ⟨⟨pool, hlatest, havailable⟩, hnone⟩ :=
    @creation_capacity_ready (s.manager_context identity) required sight (by simpa using hready)
  refine ⟨Nat.lt_of_not_le hroom, required, rfl, ⟨pool, ?_, havailable⟩, hnone⟩
  rw [creation_capacity_renderer]
  exact hlatest

/-- A view is in the ledger before its entry is erased. -/
theorem erase_carries (s : Runtime) (manager : ManagerToken) (sight : Sight) :
    Carries s (s.erase manager sight).1 := by
  unfold erase
  split
  · exact Carries.refl s
  rename_i identity _
  have hinspected := manager_context_carries s identity
  dsimp only
  split
  · exact hinspected
  split
  · exact hinspected
  · exact hinspected
  split
  · exact hinspected
  rename_i hretained
  simp only [Bool.or_eq_true, Bool.not_eq_true', not_or, Bool.not_eq_false] at hretained
  have hholds := RetiredViewPool.holds_of_retain hretained.2
  refine ⟨rfl, fun places h => ⟨fun r v hv hr => ?_, fun r v hv hr => ?_, explained_snoc h.created trivial⟩⟩
  · rw [show history _ = s.history ++ [.handed identity.renderer sight.address] from rfl, standing_snoc] at hr
    unfold Standing.next at hr
    dsimp only at hr
    split at hr
    · rename_i hview
      subst hview
      rcases Bool.or_eq_true _ _ ▸ hr with hold | hnow
      · exact (h.retired r _ hv hold).retain
      rw [← beq_iff_eq.mp hnow]
      exact hholds
    · exact (h.retired r v hv hr).retain
  · rw [show history _ = s.history ++ [.handed identity.renderer sight.address] from rfl, standing_snoc] at hr
    unfold Standing.next at hr
    dsimp only at hr
    split at hr
    · cases hr
    rcases h.covered r v hv hr with hold | hslot
    · exact .inl hold.retain
    · exact .inr hslot

/-- The attempt of another creation, where no view is left. -/
theorem attempted_books (h : Books (fun _ => False) s) : Books (fun _ => False) (s.tell .attempted) := by
  have hcovered : ∀ r v, v ≠ 0 → (standing r v s.history).recorded = true → s.retired_views.Holds r v := by
    intro r v hv hr
    exact (h.covered r v hv hr).resolve_right nofun
  refine ⟨fun r v hv hr => ?_, fun r v hv hr => ?_, explained_snoc h.created trivial⟩
  · rw [show history _ = s.history ++ [.attempted] from rfl, standing_snoc] at hr
    rcases Bool.or_eq_true _ _ ▸ hr with hold | hnow
    · exact h.retired r v hv hold
    · exact hcovered r v hv hnow
  · rw [show history _ = s.history ++ [.attempted] from rfl, standing_snoc] at hr
    exact .inl (hcovered r v hv hr)

/-- A native create that the last inspection allows. -/
theorem created_books {id : EntryId} (h : Books places s) (hfit : Fit s.renderer required s.history) :
    Books places ({ s with calling := none }.tell (.created s.renderer required id)) := by
  refine ⟨fun r v hv hr => ?_, fun r v hv hr => ?_, explained_snoc h.created hfit⟩
  · rw [show history _ = s.history ++ [.created s.renderer required id] from rfl, standing_snoc] at hr
    exact h.retired r v hv hr
  · rw [show history _ = s.history ++ [.created s.renderer required id] from rfl, standing_snoc] at hr
    exact h.covered r v hv hr

/-- The view of a new entry takes the place of what was left there. -/
theorem record_view_books {n : Nat} (h : Books (fun k => k.val < n) s) (hn : s.creations = n + 1)
    (hcount : n < kMaxOwnedViews) (sight : Sight)
    (hrenderer : sight.view.isSome = true → s.unclaimed = false ∨ s.renderer = s.owned_pool_renderer) :
    Books (fun k => k.val < n + 1) (s.record_view sight) := by
  unfold record_view
  split
  · refine Books.mono ?_ fun k hk => Nat.lt_succ_of_lt hk
    exact ⟨h.retired, h.covered, h.created⟩
  rename_i view hview
  refine ⟨fun r v hv hr => ?_, fun r v hv hr => ?_, explained_snoc h.created trivial⟩
  · rw [show history _ = s.history ++ [.recorded s.renderer view] from rfl, standing_snoc] at hr
    unfold Standing.next at hr
    dsimp only at hr
    split at hr
    · exact h.retired r v hv hr
    · exact h.retired r v hv hr
  · rw [show history _ = s.history ++ [.recorded s.renderer view] from rfl, standing_snoc] at hr
    unfold Standing.next at hr
    dsimp only at hr
    split at hr
    · rename_i hsame
      refine .inr ⟨⟨n, hcount⟩, Nat.lt_succ_self n, ?_, beq_iff_eq.mp hr⟩
      show (if n + 1 = s.creations then view else _) = v
      rw [if_pos hn.symm]
      exact hsame
    rcases h.covered r v hv hr with hholds | ⟨k, hk, hslot, hsame⟩
    · exact .inl hholds
    -- another view of the pair is left, so that both are of one renderer
    have hleft : s.unclaimed = true := by
      refine any_eq_true.mpr ⟨k, mem_finRange k, ?_⟩
      rw [hslot, hsame, hr]
      simpa using hv
    have hboth := (hrenderer (by rw [hview]; rfl)).resolve_left (by rw [hleft]; exact nofun)
    refine .inr ⟨k, Nat.lt_succ_of_lt hk, ?_, hboth.trans hsame⟩
    have hother : k.val + 1 ≠ s.creations := by
      rw [hn]
      omega
    show (if k.val + 1 = s.creations then view else s.owned_pool_views k) = v
    rw [if_neg hother]
    exact hslot

/-! ## The invariant -/

/-- The pair was cleared where it was gone, and no update of the controller began since. -/
def quiet : Point → Bool
  | .away | .begun _ | .sampled _ | .resetting _ | .transitioning _ | .transitioned _ _ _ _ _
  | .refused _ _ | .consuming _ _ | .publishing _ | .drained _ _ _ => true
  | _ => false

/-- The ledger has the views of a pair that is gone between two updates; while a new set is created,
the places after it stand for nothing; and a native create is called where the last inspection
emptied the ledger. -/
structure Shelved (s : Runtime) : Prop where
  books : Books (fun _ => True) s
  filling : s.pair.filling = true → Books (fun k => k.val < s.creations) s
  quiet : quiet s.point = true → s.pair.has_owned_ids = false → Books (fun _ => False) s
  calling : ∀ required, s.calling = some required → s.creations < kMaxOwnedViews ∧
    (∃ pool, Latest s.renderer pool s.history ∧ pool.creation_available required = true) ∧
    ∀ r v, ¬s.retired_views.Holds r v

theorem Shelved.initial : Shelved {} where
  books := ⟨nofun, nofun, explained_nil⟩
  filling h := Bool.noConfusion (h : false = true)
  quiet _ _ := ⟨nofun, nofun, explained_nil⟩
  calling _ h := by cases h

theorem not_looks (h : e.aside = true) : e.looks = false := by
  cases e <;> first | rfl | cases h

theorem Shelved.block (h : s.Shelved) (hb : Block s t) : t.Shelved where
  books := hb.carries.books _ h.books
  filling hf := by
    unfold PairController.filling at hf
    rw [hb.apart.pair.phase] at hf
    rw [hb.apart.creations]
    exact hb.carries.books _ (h.filling hf)
  quiet hq hids := by
    rw [hb.apart.point] at hq
    rw [hb.carries.ids] at hids
    exact hb.carries.books _ (h.quiet hq hids)
  calling required hc := by
    rw [hb.apart.calling] at hc
    obtain ⟨hcount, ⟨pool, hlatest, havailable⟩, hnone⟩ := h.calling required hc
    obtain ⟨es, hes, hplain⟩ := hb.aside.told
    rw [hb.apart.creations, hb.apart.renderer, hb.apart.retired_views, hes]
    exact ⟨hcount, ⟨pool, hlatest.append fun e he => not_looks (hplain e he), havailable⟩, hnone⟩

/-- What the observer comes to between two updates of the controller. -/
theorem Shelved.rests (h : s.Shelved) (hc : Carries s t) (ho : t.Ordered) (hfilling : t.pair.filling = false)
    (hquiet : Runtime.quiet t.point = true → t.pair.has_owned_ids = false → Books (fun _ => False) t) :
    t.Shelved where
  books := hc.books _ h.books
  filling hf := by
    rw [hfilling] at hf
    cases hf
  quiet := hquiet
  calling required hcalling := by
    obtain ⟨manager, index, descriptor, hphase⟩ := ho.calling (by rw [hcalling]; rfl)
    unfold PairController.filling at hfilling
    rw [hphase] at hfilling
    cases hfilling

theorem not_filling_of_idle {pair : PairController} (h : pair.phase = .idle) : pair.filling = false := by
  unfold filling
  rw [h]

theorem Ordered.not_filling (ho : t.Ordered) (h : t.point.passes = false) : t.pair.filling = false :=
  not_filling_of_idle (ho.resting h).idle

/-- From one quiet point to another. -/
theorem Shelved.quiets (h : s.Shelved) (hc : Carries s t) (ho : t.Ordered)
    (hs : Runtime.quiet s.point = true) (ht : t.point.passes = false) : t.Shelved := by
  refine h.rests hc ho (ho.not_filling ht) fun _ hids => hc.books _ (h.quiet hs ?_)
  rw [← hc.ids]
  exact hids

/-- To a point between two updates of the controller that is not quiet. -/
def Works (t : Runtime) : Prop := Runtime.quiet t.point = false ∧ t.point.passes = false

/-- To a point that is not quiet. -/
theorem Shelved.works (h : s.Shelved) (hc : Carries s t) (ho : t.Ordered) (hw : Works t) : t.Shelved := by
  refine h.rests hc ho (ho.not_filling hw.2) fun hq => ?_
  rw [hw.1] at hq
  cases hq

theorem not_quiet_of_after {point : Point} (h : point.after.isSome = true) : Runtime.quiet point = false := by
  cases point <;> first | rfl | cases h

/-- To a point that goes by the published pair. -/
theorem Shelved.goes {u : Update} (h : s.Shelved) (hg : Goes true s u t) (ho : t.Ordered) : t.Shelved := by
  obtain ⟨v, point, hleads, rfl⟩ := hg
  exact h.works (hleads.path.carries.go_to point) ho ⟨not_quiet_of_after (hleads.after rfl), hleads.passes⟩

/-- An update of the controller begins. -/
theorem Shelved.process_update (h : s.Shelved) (hrest : s.Resting) (u : Update) (pass : Pass) (sight : Sight)
    (ho : (s.process_update u pass sight).Ordered) : (s.process_update u pass sight).Shelved := by
  refine h.rests (process_update_carries s u sight pass) ho ?_ ?_
  · unfold Runtime.process_update
    split
    · exact not_filling_of_idle hrest.idle
    unfold PairController.process_update PairController.filling
    rw [processing_eq_false hrest.idle]
    rfl
  · unfold Runtime.process_update
    split <;> exact nofun

/-! ## A step of the controller -/

/-- The controller takes a step after what it called. -/
theorem Shelved.go (hbooks : Books (fun _ => True) t) (ht : t.pair.Tidy) (hpoint : Runtime.quiet t.point = false)
    (hcalling : t.calling = none)
    (hfilling : t.pair.filling = true → Books (fun k => k.val < t.creations) t)
    (hstart : (∃ manager, t.pair.phase = .starting manager) →
      (t.pair.desired_enabled && t.pair.creation_pending) = true → Books (fun _ => False) t)
    (answer : Answer) : Shelved { t with pair := t.pair.resume answer } := by
  refine ⟨⟨hbooks.retired, hbooks.covered, hbooks.created⟩, fun hf => ?_, fun hq => ?_, fun required hc => ?_⟩
  · have hnow : Books (fun k => k.val < t.creations) t := by
      rcases filling_resume ht hf with hstill | ⟨hphase, hasked⟩
      · exact hfilling hstill
      · exact (hstart hphase hasked).mono fun _ => False.elim
    exact ⟨hnow.retired, hnow.covered, hnow.created⟩
  · exact absurd (hpoint.symm.trans hq) nofun
  · exact absurd (hcalling.symm.trans hc) nofun

/-- What the controller called in a phase that begins nothing has returned. -/
theorem Shelved.answered {creates : Bool} (ho : s.Ordered) (hquiet : Runtime.quiet s.point = false)
    (hinside : Inside creates s t) (hstarting : ∀ manager, s.pair.phase ≠ .starting manager)
    (hbooks : Books (fun _ => True) t) (hcalling : t.calling = none)
    (hfilling : s.pair.filling = true → Books (fun k => k.val < t.creations) t) (answer : Answer) :
    Shelved { t with pair := t.pair.resume answer } := by
  refine go hbooks ?_ ?_ hcalling (fun hf => hfilling ?_) ?_ answer
  · rw [hinside.pair]
    exact ho.tidy
  · rw [hinside.point]
    exact hquiet
  · rw [← hinside.pair]
    exact hf
  · rintro ⟨manager, hphase⟩
    rw [hinside.pair] at hphase
    exact absurd hphase (hstarting manager)

/-- The step of the controller that creates an entry. -/
theorem Shelved.native_create (h : s.Shelved) (sight : Sight)
    (hcalling : s.calling = some required) (hfilling : s.pair.filling = true)
    (hguard : sight.id = 0 ∨ sight.view.isNone = true ∨ s.unclaimed = false ∨ s.renderer = s.owned_pool_renderer) :
    Books (fun k => k.val < (s.native_create required sight).creations) (s.native_create required sight) := by
  obtain ⟨hcount, ⟨pool, hlatest, havailable⟩, hnone⟩ := h.calling required hcalling
  have hbooks := h.filling hfilling
  -- what was retired is released, for the ledger is empty
  have hfit : Fit s.renderer required s.history :=
    ⟨pool, hlatest, havailable, fun r v hv hr => absurd (hbooks.retired r v hv hr) (hnone r v)⟩
  have hcreated := @created_books s required _ sight.id hbooks hfit
  have hstanding : ∀ r v, standing r v (s.history ++ [.created s.renderer required sight.id]) =
      standing r v s.history := by
    intro r v
    rw [standing_snoc]
    rfl
  unfold Runtime.native_create
  split
  · exact hcreated
  rename_i hid
  -- the entry and its view are counted in the state that the native create left
  have hrecorded : Books (fun k => k.val < s.creations + 1) (record_view
      ({ s with calling := none, creations := s.creations + 1 }.tell (.created s.renderer required sight.id))
      sight) := by
    refine record_view_books ?_ rfl hcount sight ?_
    · exact ⟨hcreated.retired, hcreated.covered, hcreated.created⟩
    · intro hview
      rcases hguard with hzero | hnoview | hnone | hsame
      · exact absurd hzero hid
      · rw [Option.isNone_iff_eq_none] at hnoview
        rw [hnoview] at hview
        cases hview
      · left
        rw [← hnone]
        refine any_congr rfl fun k => ?_
        exact congrArg (fun x : Standing => s.owned_pool_views k != 0 && x.recorded) (hstanding _ _)
      · exact .inr hsame
  have hcreations : (record_view
      ({ s with calling := none, creations := s.creations + 1 }.tell (.created s.renderer required sight.id))
      sight).creations = s.creations + 1 := by
    unfold record_view
    split <;> rfl
  have hall : ∀ n, n = s.creations + 1 → Books (fun k => k.val < n) (record_view
      ({ s with calling := none, creations := s.creations + 1 }.tell (.created s.renderer required sight.id))
      sight) := by
    rintro n rfl
    exact hrecorded
  exact hall _ hcreations

/-- The next step of the controller's update. -/
theorem Shelved.turn (h : s.Shelved) (ho : s.Ordered) (hprocessing : s.pair.processing = true) (sight : Sight)
    (hguard : s.orderly (.observe sight) = true) : (s.turn sight).Shelved := by
  have hpasses := ho.held hprocessing
  obtain ⟨u, pass, hpoint⟩ := exists_of_passes hpasses
  have hquiet : Runtime.quiet s.point = false := by
    rw [hpoint]
    rfl
  have hin : (sight.throws && !s.in_controller) = false := by
    unfold in_controller
    rw [hpoint]
    simp
  have hguard' : (match s.pair.phase with
      | .starting _ => !(s.pair.desired_enabled && s.pair.creation_pending) || !s.unclaimed
      | .creating _ _ _ => s.calling.isNone || sight.id == 0 || sight.view.isNone || !s.unclaimed ||
          s.renderer == s.owned_pool_renderer
      | _ => true) = true := by
    unfold orderly at hguard
    dsimp only at hguard
    rw [hin, hpoint] at hguard
    exact hguard
  have hnot : (∀ manager index descriptor, s.pair.phase ≠ .creating manager index descriptor) →
      s.calling = none := ho.not_calling
  unfold Runtime.turn
  dsimp only
  split
  · rename_i manager hphase
    rw [hphase] at hguard'
    have hcalling := hnot (by rw [hphase]; exact nofun)
    have hidle : s.pair.filling = false := by
      unfold PairController.filling
      rw [hphase]
    split
    · rename_i hasked
      have hleft : s.unclaimed = false := by
        rw [hasked] at hguard'
        simpa using hguard'
      have hattempted := attempted_books (h.books.none_left hleft)
      exact @go (s.tell .attempted) (hattempted.mono fun _ => False.elim) ho.tidy hquiet hcalling
        (fun _ => hattempted.mono fun _ => False.elim) (fun _ _ => hattempted) _
    rename_i hasked
    exact go h.books ho.tidy hquiet hcalling (fun hf => absurd (hidle.symm.trans hf) nofun)
      (fun _ hnow => absurd hnow hasked) _
  · rename_i hphase
    have hcalling := hnot (by rw [hphase]; exact nofun)
    have hfilling : s.pair.filling = true := by
      unfold PairController.filling
      rw [hphase]
    have hcarries := initializer_carries s sight
    refine answered ho hquiet (initializer_inside s sight) (by rw [hphase]; exact nofun)
      (hcarries.books _ h.books) (by rwa [initializer_calling]) (fun _ => ?_) _
    rw [initializer_creations]
    exact hcarries.books _ (h.filling hfilling)
  · rename_i manager _ _ hphase
    rw [hphase] at hguard'
    have hfilling : s.pair.filling = true := by
      unfold PairController.filling
      rw [hphase]
    have hstarting : ∀ manager, s.pair.phase ≠ .starting manager := by
      rw [hphase]
      exact nofun
    split
    · rename_i required hcalling
      have hbooks := h.native_create sight hcalling hfilling (by
        rw [hcalling] at hguard'
        simpa [or_assoc] using hguard')
      exact answered ho hquiet (native_create_inside s required sight) hstarting
        (hbooks.mono fun _ _ => trivial) (native_create_calling _ _) (fun _ => hbooks) _
    rename_i hcalling
    have hinside := guard_create_inside s manager sight
    obtain ⟨hcarries, hcreations, hpassed⟩ := guard_create_guards s manager sight
    have hkept : Books (fun k => k.val < (s.guard_create manager sight).1.creations)
        (s.guard_create manager sight).1 := by
      rw [hcreations]
      exact hcarries.books _ (h.filling hfilling)
    split
    · rename_i hready
      obtain ⟨hcount, required, hset, hfound⟩ := hpassed hready
      refine ⟨hcarries.books _ h.books, fun _ => hkept, fun hq => ?_, fun required' hc => ?_⟩
      · rw [hinside.point, hquiet] at hq
        cases hq
      · obtain rfl := Option.some.inj (hset.symm.trans hc)
        rw [hcreations]
        exact ⟨hcount, hfound⟩
    rename_i hnotready
    refine answered ho hquiet hinside hstarting (hcarries.books _ h.books) ?_ (fun _ => hkept) _
    rw [guard_create_calling manager sight (by simpa using hnotready), hcalling]
  · rename_i index rest after hphase
    have hcalling := hnot (by rw [hphase]; exact nofun)
    have hidle : s.pair.filling = false := by
      unfold PairController.filling
      rw [hphase]
    have hstarting : ∀ manager, s.pair.phase ≠ .starting manager := by
      rw [hphase]
      exact nofun
    split
    · exact answered ho hquiet (Inside.refl true s) hstarting h.books hcalling
        (fun hf => absurd (hidle.symm.trans hf) nofun) _
    exact answered ho hquiet (erase_inside false s s.pair.owner sight) hstarting
      ((erase_carries s _ sight).books _ h.books) (by rwa [erase_calling])
      (fun hf => absurd (hidle.symm.trans hf) nofun) _
  · rename_i hnotstarting hnotpreparing hnotcreating _
    refine answered ho hquiet (Inside.refl true s) hnotstarting h.books (hnot hnotcreating) (fun hf => ?_) _
    unfold PairController.filling at hf
    split at hf
    · rename_i hphase
      exact absurd hphase (hnotpreparing _ _)
    · rename_i hphase
      exact absurd hphase (hnotcreating _ _ _)
    · cases hf

/-! ## A step of the observer -/

theorem Aside.unclaimed (h : Aside s t) : t.unclaimed = s.unclaimed := by
  refine any_congr rfl fun k => ?_
  rw [h.owned_pool_views, h.owned_pool_renderer, h.standing]

theorem Aside.transferable (h : Aside s t) : t.transferable = s.transferable := by
  unfold Runtime.transferable recorded_views
  rw [h.unclaimed, h.retired_views, h.owned_pool_views, h.owned_pool_renderer]

/-- A cancellation that meets no other call finds a pair that is gone. -/
theorem cancel_outside_gone (hrest : s.Resting) (hids : s.pair.has_owned_ids = false)
    (hmet : sight.met = false) : (s.cancel_outside sight).2 = .cancelled ∧
      SceneSessionReset.empty (s.cancel_outside sight).1.pair.snapshot = true := by
  have howner := hrest.tidy.owner (by rw [hrest.idle]; rfl) hids
  have hprocessing := processing_eq_false hrest.idle
  unfold cancel_outside cancel_uncreated_request
  rw [hmet, hprocessing, hids, howner]
  refine ⟨rfl, ?_⟩
  rw [cancelled_of_not_kept hrest.idle (kept_eq_false hrest.tidy hrest.idle hids)]
  rfl

/-- The drain leaves nothing of a pair that is gone. -/
theorem drain_none_left (h : s.Shelved) (hrest : s.Resting) (u : Update) (sight : Sight)
    (hids : s.pair.has_owned_ids = false)
    (hguard : s.unclaimed = false ∨ (sight.met = false ∧ s.transferable = true)) :
    Books (fun _ => False) (s.drain u sight) := by
  have hcancelled := (cancel_outside_keeps s sight).aside
  refine (drain_carries s u sight).books _ ?_
  rcases hguard with hnone | ⟨hmet, htransferable⟩
  · have hleft := hcancelled.carries.books _ (h.books.none_left hnone)
    exact (clear_drained_carries _ _).books _ hleft
  obtain ⟨hanswer, hempty⟩ := cancel_outside_gone hrest hids hmet
  rw [← hcancelled.transferable] at htransferable
  unfold clear_drained
  rw [hanswer, hempty]
  exact clear_retired_pair_none_left (hcancelled.carries.books _ h.books) htransferable

/-! ## Where a step leads -/

section
variable (s) (u : Update) (sight : Sight)

theorem service_reset_point : Works (s.service_reset u sight) := by
  unfold service_reset
  dsimp only
  repeat' split
  all_goals exact ⟨rfl, rfl⟩

theorem finish_pass_point (pass : Pass) : Works (s.finish_pass u pass) := by
  cases pass <;> exact ⟨rfl, rfl⟩

theorem resume_creation_point : Works (s.resume_creation u) := by
  unfold resume_creation
  dsimp only
  repeat' split
  all_goals exact ⟨rfl, rfl⟩

theorem retry_point : Works (s.retry u sight) := by
  unfold retry
  dsimp only
  repeat' split
  all_goals exact ⟨rfl, rfl⟩

theorem commit_point : Works (s.commit u) := by
  unfold commit
  split <;> exact ⟨rfl, rfl⟩

end

section
variable {u : Update} {sight : Sight} (h : s.Shelved)
include h

theorem Shelved.thrown (ho : (s.thrown sight).Ordered)
    (hguard : s.pair.has_owned_ids = true ∨ s.unclaimed = false) : (s.thrown sight).Shelved := by
  have hcarries := thrown_carries s sight
  refine h.rests hcarries ho (ho.not_filling rfl) fun _ hids => ?_
  rw [hcarries.ids] at hids
  refine hcarries.books _ (h.books.none_left (hguard.resolve_left ?_))
  rw [hids]
  exact nofun

theorem Shelved.drain (hrest : s.Resting) (ho : (s.drain u sight).Ordered)
    (hguard : s.pair.has_owned_ids = true ∨ s.unclaimed = false ∨ (sight.met = false ∧ s.transferable = true)) :
    (s.drain u sight).Shelved := by
  obtain ⟨hcarries, hpasses⟩ := (drain_goes s u sight).carries
  refine h.rests hcarries ho (ho.not_filling hpasses) fun _ hids => ?_
  rw [hcarries.ids] at hids
  refine drain_none_left h hrest u sight hids (hguard.resolve_left ?_)
  rw [hids]
  exact nofun

theorem Shelved.enter (hrest : s.Resting) (hpoint : s.point = .entering u) (ho : (s.enter u sight).Ordered) :
    (s.enter u sight).Shelved := by
  have hentered : Shelved { s with
      creations := 0
      creation_pose_unavailable := false
      creation_pool_deferred := false
      creation_revision := u.start_revision
      creation_valid := sight.validated } := by
    refine ⟨⟨h.books.retired, h.books.covered, h.books.created⟩, fun hf => ?_, fun hq => ?_, fun required hc => ?_⟩
    · exact absurd ((not_filling_of_idle hrest.idle).symm.trans hf) nofun
    · rw [show point _ = s.point from rfl, hpoint] at hq
      cases hq
    · exact absurd (hrest.calling.symm.trans hc) nofun
  exact hentered.process_update ⟨hrest.tidy, hrest.idle, hrest.calling, hrest.reset⟩ u .first sight ho

theorem Shelved.clear (hplaced : any_owned u.pair.owned_ids = s.pair.has_owned_ids) (ho : (s.clear u).Ordered)
    (hguard : s.pair.has_owned_ids = true ∨ s.transferable = true) : (s.clear u).Shelved := by
  have hcleared : Carries s (s.clear u) := by
    unfold Runtime.clear
    split
    · exact (Carries.refl s).go_to _
    · exact (clear_retired_pair_carries s).go_to _
  refine h.rests hcleared ho (ho.not_filling rfl) fun _ hids => ?_
  rw [hcleared.ids] at hids
  have hgone : ¬any_owned u.pair.owned_ids = true := by
    rw [hplaced, hids]
    exact nofun
  have hnone : ¬s.pair.has_owned_ids = true := by
    rw [hids]
    exact nofun
  have hleft := clear_retired_pair_none_left h.books (hguard.resolve_left hnone)
  unfold Runtime.clear
  rw [if_neg hgone]
  exact ((Carries.refl s.clear_retired_pair).go_to (.publishing u)).books _ hleft

/-- Every step of the observer where the condition holds. -/
theorem Shelved.observe (ho : s.Ordered) (hguard : s.orderly (.observe sight) = true) :
    (s.observe sight).Shelved := by
  have hnext := ho.observe sight
  have hplaced := ho.placed
  have horderly := hguard
  unfold orderly at hguard
  dsimp only at hguard
  unfold Runtime.observe at hnext ⊢
  split at hnext <;> rename_i hthrows
  · rw [if_pos hthrows] at hguard ⊢
    exact h.thrown hnext (by simpa using hguard)
  · rw [if_neg hthrows] at hguard ⊢
    have hdisabled := h.block (Block.of_keeps (Keeps.of_beside s (Beside.of_disable s.pair)) rfl rfl)
    have hrest : s.point.passes = false → s.Resting := ho.resting
    split at hnext <;> rename_i hpoint <;> rw [hpoint] at hguard hplaced hrest
    · split
      · rename_i henabled
        rw [if_pos henabled] at hnext
        exact h.quiets ((Carries.refl s).go_to _) hnext (by rw [hpoint]; rfl) rfl
      · exact h
    · exact h.quiets ((ready_blocks s _).carries.go_to _) hnext (by rw [hpoint]; rfl) rfl
    · exact h.quiets (choose_goes s _ sight).carries.1 hnext (by rw [hpoint]; rfl) (choose_goes s _ sight).carries.2
    · exact h.works (service_reset_goes s _ sight).carries.1 hnext (service_reset_point s _ _)
    · exact hdisabled.process_update ((hrest rfl).beside (Beside.of_disable _)) _ _ _ hnext
    · exact h.drain (hrest rfl) hnext (by simpa [or_assoc] using hguard)
    · exact h.quiets (Aside.carries { Aside.refl s with }) hnext (by rw [hpoint]; rfl) rfl
    · exact h.quiets (service_transition_goes s _).carries.1 hnext (by rw [hpoint]; rfl)
        (service_transition_goes s _).carries.2
    · exact h.quiets (settle_transition_goes s _ _ _ _ _ sight).carries.1 hnext (by rw [hpoint]; rfl)
        (settle_transition_goes s _ _ _ _ _ sight).carries.2
    · exact h.quiets ((record_stop_carries s _ _ _ _).go_to _) hnext (by rw [hpoint]; rfl) rfl
    · exact h.quiets (withdraw_carries s _ _) hnext (by rw [hpoint]; rfl) rfl
    · exact h.enter (hrest rfl) hpoint hnext
    · split
      · rename_i hprocessing
        exact h.turn ho hprocessing sight horderly
      rename_i hprocessing
      rw [if_neg hprocessing] at hnext
      exact h.works ((Carries.refl s).go_to _) hnext (finish_pass_point s _ _)
    · exact h.works (resume_creation_carries s _) hnext (resume_creation_point s _)
    · exact h.works (retry_carries s _ sight) hnext (retry_point s _ _)
    · exact h.goes (check_goes (hplaced.token rfl) (hplaced.after _ rfl) sight) hnext
    · exact h.works (commit_carries s _) hnext (commit_point s _)
    · exact h.process_update (hrest rfl) _ _ _ hnext
    · exact h.goes ((hrest rfl).fail (hplaced.token rfl) (hplaced.after _ rfl) sight) hnext
    · exact h.goes ((hrest rfl).defer_failure (hplaced.token rfl) (hplaced.after _ rfl) _ sight) hnext
    · exact h.works ((record_stop_carries s _ _ _ _).go_to _) hnext ⟨rfl, rfl⟩
    · exact h.goes (settle_goes (hplaced.token rfl) (hplaced.after _ rfl) sight) hnext
    · exact h.works ((record_stop_carries s _ _ _ _).go_to _) hnext ⟨rfl, rfl⟩
    · exact hdisabled.process_update ((hrest rfl).beside (Beside.of_disable _)) _ _ _ hnext
    · exact h.clear (hplaced.after _ rfl) hnext (by simpa using hguard)
    · exact h.quiets (Aside.carries { Aside.refl s with }) hnext (by rw [hpoint]; rfl) rfl

end

theorem Shelved.step (h : s.Shelved) (ho : s.Ordered) {op : Op} (hguard : s.orderly op = true) :
    (s.step op).Shelved := by
  cases hobserves : op.observes with
  | false => exact h.block (step_block s hobserves)
  | true =>
    cases op with
    | observe sight => exact h.observe ho hguard
    | _ => cases hobserves

theorem Shelved.safe (h : s.Shelved) : s.Safe where
  retired := h.books.retired
  gone hpoint hids r v hv hr := by
    have hquiet : Runtime.quiet s.point = true := by
      rw [hpoint]
      rfl
    exact ((h.quiet hquiet hids).covered r v hv hr).resolve_right nofun
  created := h.books.created

end

/-- Every run whose steps meet the condition keeps every view that is given back in the ledger until
its release is proved, and creates no entry before that. -/
theorem no_camera_in_a_retiring_view (ops : List Op)
    (hguard : Guarded Runtime.step (fun s op => s.orderly op = true) {} ops) :
    (run Runtime.step {} ops).Safe := by
  have hstep : ∀ (s : Runtime) (op : Op), s.Ordered ∧ s.Shelved → s.orderly op = true →
      (s.step op).Ordered ∧ (s.step op).Shelved :=
    fun s op h hg => ⟨h.1.step op, h.2.step h.1 hg⟩
  have hrun := @guarded_invariant _ _ Runtime.step (fun s op => s.orderly op = true) {}
    (fun s => s.Ordered ∧ s.Shelved) hstep ops ⟨Ordered.initial, Shelved.initial⟩ hguard
  exact hrun.2.safe

/-- One feed, a free pool, and an entry 41 of view 100. -/
def free_sight : Sight := { ready_sight with feeds := 1 }

/-- The pool still releases view 100, and the next entry is 42 of view 102. -/
def releasing_pool : ViewPoolSnapshot where
  valid := true
  free_count := 4
  first_free_indices := #v[2, 3, 4, 5]
  release_checked := true
  release_views := [100]

/-- A start, and the update that creates entry 41. -/
def created_pair : List Op :=
  [.aircraft { ready := true }, .request_scene_test] ++ List.replicate 26 (.observe free_sight)

/-- Entry 41 is erased after a stop. -/
def erased_pair : List Op := created_pair ++ .request_scene_stop ::
  List.replicate 22 (.observe { free_sight with found := some true, may_erase := true, address := 100, absent := true })

/-- Entry 41 is gone after a stop, and a start comes in the same update. -/
def vanished_pair : List Op := created_pair ++ [.request_scene_stop, .request_scene_test] ++
  List.replicate 27 (.observe
    { free_sight with found := some false, pool := releasing_pool, id := 42, view := some 102 })

theorem an_erased_view_is_held : (run Runtime.step {} erased_pair).retired_views.Holds 7 100 :=
  (no_camera_in_a_retiring_view erased_pair (by decide +kernel)).retired 7 100 (by decide) (by decide +kernel)

/-- The view of an entry that is gone is still releasing when another entry is created, and the ledger
never has it. -/
theorem a_vanished_view_is_forgotten :
    (∃ before after, (run Runtime.step {} vanished_pair).history = before ++ .created 7 2 42 :: after ∧
      Latest 7 releasing_pool before ∧ (standing 7 100 before).retired = true ∧
      releasing_pool.releasing 100 = true) ∧
    ¬(run Runtime.step {} vanished_pair).Safe := by
  refine ⟨⟨[.started 1 false, .began, .snapshot 7 free_sight.pool, .committed 1, .began, .attempted,
    .snapshot 7 free_sight.pool, .snapshot 7 free_sight.pool, .created 7 2 41, .recorded 7 100, .ended .stop,
    .started 3 false, .began, .snapshot 7 releasing_pool, .committed 3, .began, .attempted,
    .snapshot 7 releasing_pool] ++ [.snapshot 7 releasing_pool], [.recorded 7 102], ?_, Since.now rfl, ?_, ?_⟩,
    fun hsafe => ?_⟩
  · decide +kernel
  · decide +kernel
  · decide +kernel
  · have hretired : (standing 7 100 (run Runtime.step {} vanished_pair).history).retired = true := by decide +kernel
    have hholds := hsafe.retired 7 100 (by decide) hretired
    exact absurd hholds.2.1 (by decide +kernel)

end Runtime

end taxi_camera.native_camera
