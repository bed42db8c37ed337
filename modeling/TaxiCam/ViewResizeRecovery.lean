-- The recovery of the views' dimensions: both gates are seen closed on two
-- updates before a resize. src/camera/view_resize_recovery.hpp. What is only
-- reported is left out, but for `released`.
import TaxiCam.ViewRetirement

namespace taxi_camera.native_camera.view_resize_recovery

open engine_camera histories runs List

inductive Action
  | wait | close_gates | resize | blocked
deriving DecidableEq

abbrev Views := View → InspectedView

structure ViewResizeRecovery where
  owner : ManagerToken := {}
  ids : OwnedIds := fun _ => 0
  last_update : Nat := 0
  closed_update : Nat := 0
  first_update : Nat := 0
  released : Nat := 0
  pending : Bool := false
  failed : Bool := false
  closed_seen : Bool := false
  resize_issued : Bool := false

def valid_identity (owner : ManagerToken) (ids : OwnedIds) : Bool := owner.valid && distinct_owned ids

def ready_chain (view : InspectedView) : Bool :=
  view.complete && view.ready && view.status = .ready && view.read_failures == 0 && view.error == "" &&
    view.view_address != 0 && view.view_address % 8 == 0 && view.node_address != 0 && view.node_address % 8 == 0 &&
    view.camera_address != 0 && view.camera_address % 8 == 0 && decide (0 ≤ view.view_index) && decide (view.view_index < 8) &&
    is_finite view.fov && positive view.fov

/-- A view that can come back by itself. -/
def temporary (view : InspectedView) : Bool :=
  view.status = .pending && view.complete && !view.ready ||
    !view.complete && !view.ready && (view.status = .not_inspected || view.status = .read_failed || view.status = .changed ||
      view.status = .pool_changed)

/-- The views of the places that a pair is judged by. -/
def judged (ids : OwnedIds) (views : Views) : List InspectedView := ((List.finRange kMaxOwnedViews).take (feeds ids)).map views

/-- Two views with the same address or the same place in the pool. -/
def collide (views : List InspectedView) : Bool :=
  !decide (views.Pairwise fun view other => view.view_address ≠ other.view_address ∧ view.view_index ≠ other.view_index)

namespace ViewResizeRecovery

variable (s : ViewResizeRecovery)

def «matches» (owner : ManagerToken) (ids : OwnedIds) : Bool := owner = s.owner && same_ids ids s.ids

def mark_failed : ViewResizeRecovery := { s with failed := true, closed_seen := false, resize_issued := false }

def begin (owner : ManagerToken) (ids : OwnedIds) : Bool × ViewResizeRecovery :=
  if s.failed then (false, s)
  else if !valid_identity owner ids || s.pending && !s.matches owner ids then (false, s.mark_failed)
  else if s.pending then (true, s)
  else (true, { s with owner, ids, pending := true })

/-- The update is taken. -/
def note (update : Nat) : ViewResizeRecovery :=
  { s with last_update := update, first_update := if s.first_update = 0 then update else s.first_update }

def observe (owner : ManagerToken) (ids : OwnedIds) (update : Nat) (views : Views) : Action × ViewResizeRecovery :=
  if s.failed then (.blocked, s)
  else if !s.pending then (.wait, s)
  else if !valid_identity owner ids || !s.matches owner ids || update == 0 || decide (update < s.last_update) then
    (.blocked, s.mark_failed)
  else
    let s := s.note update
    let views := judged ids views
    if views.any fun view => !temporary view && !ready_chain view then (.blocked, s.mark_failed)
    else if views.any temporary then (.wait, { s with closed_seen := false })
    else if collide views then (.blocked, s.mark_failed)
    else if s.resize_issued then (.wait, s)
    else if !views.all (·.closed) then (.close_gates, { s with closed_seen := false })
    else if !s.closed_seen then (.wait, { s with closed_seen := true, closed_update := update })
    else if update = s.closed_update then (.wait, s)
    else (.resize, { s with resize_issued := true })

def finish (owner : ManagerToken) (ids : OwnedIds) : Bool × ViewResizeRecovery :=
  if !s.pending || s.failed then (false, s)
  else if !valid_identity owner ids || !s.matches owner ids then (false, s.mark_failed)
  else if !s.resize_issued then (false, s)
  else (true, {})

def release_resize_authorization : ViewResizeRecovery :=
  if s.pending && !s.failed then { s with resize_issued := false, released := (s.released + 1) % 4294967296 } else s

end ViewResizeRecovery

/-! ## Histories -/

inductive Call
  | begin (owner : ManagerToken) (ids : OwnedIds)
  | observe (owner : ManagerToken) (ids : OwnedIds) (update : Nat) (views : Views)
  | finish (owner : ManagerToken) (ids : OwnedIds)
  | release_resize_authorization
  | clear
  | mark_failed

/-- A call, what it answered, and whether the recovery had failed behind it. -/
structure Event where
  call : Call
  action : Option Action := none
  answer : Bool := false
  failed : Bool

structure World where
  recovery : ViewResizeRecovery := {}
  log : List Event := []

def step (w : World) (call : Call) : World :=
  match call with
  | .begin owner ids =>
    let begun := w.recovery.begin owner ids
    ⟨begun.2, w.log ++ [{ call, answer := begun.1, failed := begun.2.failed }]⟩
  | .observe owner ids update views =>
    let observed := w.recovery.observe owner ids update views
    ⟨observed.2, w.log ++ [{ call, action := some observed.1, failed := observed.2.failed }]⟩
  | .finish owner ids =>
    let finished := w.recovery.finish owner ids
    ⟨finished.2, w.log ++ [{ call, answer := finished.1, failed := finished.2.failed }]⟩
  | .release_resize_authorization =>
    let released := w.recovery.release_resize_authorization
    ⟨released, w.log ++ [{ call, failed := released.failed }]⟩
  | .clear => ⟨{}, w.log ++ [{ call, failed := false }]⟩
  | .mark_failed => ⟨w.recovery.mark_failed, w.log ++ [{ call, failed := true }]⟩

/-- A view that is ready with its gate closed. -/
def shut (view : InspectedView) : Bool := ready_chain view && view.closed

def AllShut (ids : OwnedIds) (views : Views) : Prop := ∀ i, ids i ≠ 0 → shut (views i) = true

instance (ids : OwnedIds) (views : Views) : Decidable (AllShut ids views) :=
  inferInstanceAs (Decidable (∀ _, _ → _))

/-- An event behind which the gates have to be seen closed anew: an owned view is open or unavailable, or the recovery is
over. -/
def breaks (ids : OwnedIds) (e : Event) : Bool :=
  match e.call with
  | .observe _ _ _ views => !decide (AllShut ids views)
  | .finish _ _ => e.answer
  | .clear => true
  | _ => false

def SeenShut (owner : ManagerToken) (ids : OwnedIds) (update : Nat) (_ : List Event) (e : Event) : Prop :=
  ∃ views, e.call = .observe owner ids update views ∧ AllShut ids views

/-- The authorization is given back, or was used. -/
def releases (e : Event) : Bool :=
  match e.call with
  | .release_resize_authorization => true
  | .finish _ _ => e.answer
  | .clear => true
  | _ => false

def Authorizes (_ : List Event) (e : Event) : Prop := e.action = some .resize

def clears (e : Event) : Bool :=
  match e.call with
  | .clear => true
  | _ => false

def Fails (_ : List Event) (e : Event) : Prop := e.failed = true

/-- What a resize is answered for: all owned views are ready and closed, they were in an earlier update too, and no view
since was open or unavailable; no other authorization is out, and nothing has failed. -/
def Resizes (before : List Event) (e : Event) : Prop :=
  e.action = some .resize → ∃ owner ids update views, e.call = .observe owner ids update views ∧ AllShut ids views ∧
    (∃ earlier < update, Since (breaks ids) (SeenShut owner ids earlier) before) ∧
    ¬Since releases Authorizes before ∧ ¬Since clears Fails before

/-- The condition on a call: the owned IDs come first, and while an authorization is out, no update shows all owned views
ready and one of them open. -/
def Usual (w : World) : Call → Prop
  | .observe _ ids _ views => Ordered ids ∧
      (w.recovery.resize_issued = true → (∀ i, ids i ≠ 0 → ready_chain (views i) = true) → AllShut ids views)
  | _ => True

/-! ## What an update does -/

section
variable {s : ViewResizeRecovery} {owner : ManagerToken} {ids : OwnedIds} {update : Nat} {views : Views}

theorem matches_eq (h : s.matches owner ids = true) : owner = s.owner ∧ ids = s.ids := by
  obtain ⟨howner, hids⟩ := Bool.and_eq_true_iff.mp h
  refine ⟨of_decide_eq_true howner, funext fun i => ?_⟩
  exact eq_of_beq (all_eq_true.mp hids i (mem_finRange i))

theorem judged_of_owned (hordered : Ordered ids) {i : View} (hi : ids i ≠ 0) : views i ∈ judged ids views := by
  refine mem_map.mpr ⟨i, ?_, rfl⟩
  rw [mem_take_iff_getElem]
  refine ⟨i.val, ?_, by simp⟩
  rw [length_finRange]
  exact lt_min (owned_in_feeds hordered hi) i.isLt

/-- What an observation comes to. -/
inductive Observes (s : ViewResizeRecovery) (owner : ManagerToken) (ids : OwnedIds) (update : Nat) (views : Views) :
    Action × ViewResizeRecovery → Prop
  | blocked : s.failed = true → Observes s owner ids update views (.blocked, s)
  | fails (behind : ViewResizeRecovery) : Observes s owner ids update views (.blocked, behind.mark_failed)
  | idle : s.failed = false → s.pending = false → Observes s owner ids update views (.wait, s)
  | unavailable : s.failed = false → Observes s owner ids update views (.wait, { s.note update with closed_seen := false })
  | issued : s.failed = false → s.pending = true → ids = s.ids → s.last_update ≤ update →
      (∀ view ∈ judged ids views, ready_chain view = true) → s.resize_issued = true →
      Observes s owner ids update views (.wait, s.note update)
  | opened : s.failed = false → s.resize_issued = false →
      Observes s owner ids update views (.close_gates, { s.note update with closed_seen := false })
  | first : s.failed = false → s.pending = true → owner = s.owner → ids = s.ids → s.resize_issued = false →
      (∀ view ∈ judged ids views, shut view = true) →
      Observes s owner ids update views (.wait, { s.note update with closed_seen := true, closed_update := update })
  | same : s.failed = false → s.pending = true → ids = s.ids → s.last_update ≤ update →
      (∀ view ∈ judged ids views, shut view = true) → s.resize_issued = false →
      Observes s owner ids update views (.wait, s.note update)
  | resize : s.failed = false → s.pending = true → owner = s.owner → ids = s.ids → s.last_update ≤ update →
      (∀ view ∈ judged ids views, shut view = true) → s.resize_issued = false → s.closed_seen = true → update ≠ s.closed_update →
      Observes s owner ids update views (.resize, { s.note update with resize_issued := true })

theorem observes : Observes s owner ids update views (s.observe owner ids update views) := by
  unfold ViewResizeRecovery.observe
  split
  · rename_i hfailed
    exact .blocked hfailed
  rename_i hfailed
  replace hfailed : s.failed = false := by simpa using hfailed
  split
  · rename_i hidle
    exact .idle hfailed (by simpa using hidle)
  rename_i hpending
  replace hpending : s.pending = true := by simpa using hpending
  split
  · exact .fails _
  rename_i hidentity
  simp only [Bool.or_eq_true, not_or, Bool.not_eq_true', Bool.not_eq_false, decide_eq_true_eq, Nat.not_lt] at hidentity
  obtain ⟨howner, hids⟩ := matches_eq hidentity.1.1.2
  have hupdate := hidentity.2
  dsimp only
  split
  · exact .fails _
  rename_i hrefused
  split
  · exact .unavailable hfailed
  rename_i htemporary
  have hready : ∀ view ∈ judged ids views, ready_chain view = true := by
    intro view hview
    by_contra hnot
    apply hrefused
    have hlasting : temporary view = false := by
      by_contra htemp
      exact htemporary (any_eq_true.mpr ⟨view, hview, by simpa using htemp⟩)
    exact any_eq_true.mpr ⟨view, hview, by simp [hlasting, hnot]⟩
  split
  · exact .fails _
  split
  · rename_i hissued
    exact .issued hfailed hpending hids hupdate hready hissued
  rename_i hissued
  replace hissued : s.resize_issued = false := by simpa [ViewResizeRecovery.note] using hissued
  split
  · exact .opened hfailed hissued
  rename_i hopen
  have hshut : ∀ view ∈ judged ids views, shut view = true := by
    intro view hview
    have hclosed : view.closed = true := by
      simp only [Bool.not_eq_true', Bool.not_eq_false] at hopen
      exact all_eq_true.mp hopen view hview
    rw [shut, hready view hview, hclosed, Bool.and_self]
  split
  · exact .first hfailed hpending howner hids hissued hshut
  rename_i hseen
  replace hseen : s.closed_seen = true := by simpa [ViewResizeRecovery.note] using hseen
  split
  · exact .same hfailed hpending hids hupdate hshut hissued
  rename_i hlater
  exact .resize hfailed hpending howner hids hupdate hshut hissued hseen hlater

end

/-! ## What a recovery remembers -/

structure Good (w : World) : Prop where
  unseen : w.recovery.failed = true → w.recovery.closed_seen = false
  /-- Both gates were seen closed in the update that is kept, and no view since takes it back. -/
  seen : w.recovery.closed_seen = true → w.recovery.pending = true ∧ w.recovery.closed_update ≤ w.recovery.last_update ∧
    Since (breaks w.recovery.ids) (SeenShut w.recovery.owner w.recovery.ids w.recovery.closed_update) w.log
  authorized : w.recovery.failed = false → w.recovery.resize_issued = false → ¬Since releases Authorizes w.log
  failed : w.recovery.failed = false → ¬Since clears Fails w.log
  resizes : Explained Resizes w.log

section
variable {w : World} {s : ViewResizeRecovery} {e : Event}

/-- The recovery is now the one behind the event. -/
theorem Good.next (h : Good w) (hfailed : e.failed = s.failed) (hresizes : Resizes w.log e)
    (hseen : s.closed_seen = true → s.pending = true ∧ s.closed_update ≤ s.last_update ∧
      Since (breaks s.ids) (SeenShut s.owner s.ids s.closed_update) (w.log ++ [e]))
    (hauthorized : s.failed = false → s.resize_issued = false →
      ¬Authorizes w.log e ∧ (releases e = true ∨ w.recovery.resize_issued = false))
    (hlive : s.failed = false → w.recovery.failed = false ∨ clears e = true)
    (hunseen : s.failed = true → s.closed_seen = false) : Good ⟨s, w.log ++ [e]⟩ where
  unseen := hunseen
  seen := hseen
  authorized hs hissued hsince := by
    obtain ⟨hnot, hbefore⟩ := hauthorized hs hissued
    rcases hsince.of_snoc with hnow | ⟨hsince, hkept⟩
    · exact hnot hnow
    rcases hlive hs with hw | hclears
    · rcases hbefore with hreleases | hunissued
      · exact absurd (hreleases.symm.trans hkept) (by decide)
      · exact h.authorized hw hunissued hsince
    have hreleases : releases e = true := by
      unfold clears at hclears
      unfold releases
      split at hclears
      · rename_i hcall
        rw [hcall]
      · cases hclears
    exact absurd (hreleases.symm.trans hkept) (by decide)
  failed hs hsince := by
    rcases hsince.of_snoc with hnow | ⟨hsince, hkept⟩
    · exact absurd (hnow.symm.trans (hfailed.trans hs)) (by decide)
    rcases hlive hs with hw | hclears
    · exact h.failed hw hsince
    · exact absurd (hclears.symm.trans hkept) (by decide)
  resizes := explained_snoc h.resizes hresizes

/-- An event behind which the recovery has failed. -/
theorem Good.fails (h : Good w) (hfailed : e.failed = true) (hresizes : e.action ≠ some .resize)
    (hs : s.failed = true) (hseen : s.closed_seen = false) : Good ⟨s, w.log ++ [e]⟩ :=
  h.next (hfailed.trans hs.symm) (fun hresize => absurd hresize hresizes) (fun h => absurd (hseen.symm.trans h) (by decide))
    (fun h => absurd (hs.symm.trans h) (by decide)) (fun h => absurd (hs.symm.trans h) (by decide)) fun _ => hseen

theorem Good.seen_kept (h : Good w) (hids : s.ids = w.recovery.ids) (howner : s.owner = w.recovery.owner)
    (hupdate : s.closed_update = w.recovery.closed_update) (hseen : s.closed_seen = w.recovery.closed_seen)
    (hpending : s.pending = w.recovery.pending) (hlast : w.recovery.last_update ≤ s.last_update)
    (hbreaks : breaks s.ids e = false) (hs : s.closed_seen = true) :
    s.pending = true ∧ s.closed_update ≤ s.last_update ∧
      Since (breaks s.ids) (SeenShut s.owner s.ids s.closed_update) (w.log ++ [e]) := by
  obtain ⟨hp, hle, hsince⟩ := h.seen (hseen.symm.trans hs)
  refine ⟨hpending.trans hp, ?_, ?_⟩
  · rw [hupdate]
    exact Nat.le_trans hle hlast
  · rw [hids] at hbreaks ⊢
    rw [howner, hupdate]
    exact hsince.snoc hbreaks

end

section
variable {w : World} {owner : ManagerToken} {ids : OwnedIds} {update : Nat} {views : Views}

theorem allShut_of_judged (hordered : Ordered ids) (h : ∀ view ∈ judged ids views, shut view = true) : AllShut ids views :=
  fun _ hi => h _ (judged_of_owned hordered hi)

theorem not_broken {action : Action} {failed : Bool} (h : AllShut ids views) :
    breaks ids { call := .observe owner ids update views, action := some action, failed } = false := by
  simp [breaks, h]

theorem Good.observe (h : Good w) (hordered : Ordered ids)
    (hopen : w.recovery.resize_issued = true → (∀ i, ids i ≠ 0 → ready_chain (views i) = true) → AllShut ids views) :
    Good (step w (.observe owner ids update views)) := by
  show Good ⟨(w.recovery.observe owner ids update views).2, w.log ++ [_]⟩
  have hcases : Observes w.recovery owner ids update views (w.recovery.observe owner ids update views) := observes
  generalize w.recovery.observe owner ids update views = observed at hcases ⊢
  cases hcases with
  | blocked hfailed => exact h.fails hfailed nofun hfailed (h.unseen hfailed)
  | fails behind => exact h.fails rfl nofun rfl rfl
  | idle hlive hidle =>
    refine h.next rfl nofun (fun hs => ?_) (fun _ hissued => ⟨nofun, .inr hissued⟩) (fun hs => .inl hs) h.unseen
    exact absurd ((h.seen hs).1.symm.trans hidle) (by decide)
  | unavailable hlive =>
    exact h.next rfl nofun nofun (fun _ hissued => ⟨nofun, .inr hissued⟩) (fun hs => .inl hs) fun _ => rfl
  | issued hlive hpending hids hupdate hready hissued =>
    have hshut := hopen hissued fun i hi => hready _ (judged_of_owned hordered hi)
    subst hids
    exact h.next rfl nofun (h.seen_kept rfl rfl rfl rfl rfl hupdate (not_broken hshut))
      (fun _ hunissued => ⟨nofun, .inr hunissued⟩) (fun hs => .inl hs) h.unseen
  | opened hlive hissued =>
    exact h.next rfl nofun nofun (fun _ hissued => ⟨nofun, .inr hissued⟩) (fun hs => .inl hs) fun _ => rfl
  | first hlive hpending howner hids hissued hshut =>
    subst hids howner
    refine h.next rfl nofun (fun _ => ⟨hpending, Nat.le_refl _, Since.now ?_⟩) (fun _ hunissued => ⟨nofun, .inr hunissued⟩)
      (fun hs => .inl hs) fun hs => absurd (hlive.symm.trans hs) (by decide)
    exact ⟨views, rfl, allShut_of_judged hordered hshut⟩
  | same hlive hpending hids hupdate hshut hissued =>
    subst hids
    exact h.next rfl nofun (h.seen_kept rfl rfl rfl rfl rfl hupdate (not_broken (allShut_of_judged hordered hshut)))
      (fun _ hunissued => ⟨nofun, .inr hunissued⟩) (fun hs => .inl hs) h.unseen
  | resize hlive hpending howner hids hupdate hshut hissued hseen hlater =>
    subst hids howner
    have hall := allShut_of_judged hordered hshut
    obtain ⟨-, hlast, hsince⟩ := h.seen hseen
    refine h.next rfl (fun _ => ?_) (h.seen_kept rfl rfl rfl rfl rfl hupdate (not_broken hall)) nofun (fun hs => .inl hs) h.unseen
    exact ⟨_, _, update, views, rfl, hall, ⟨_, Nat.lt_of_le_of_ne (Nat.le_trans hlast hupdate) (Ne.symm hlater), hsince⟩,
      h.authorized hlive hissued, h.failed hlive⟩

theorem Good.step (h : Good w) {call : Call} (husual : Usual w call) : Good (step w call) := by
  cases call with
  | observe owner ids update views => exact h.observe husual.1 husual.2
  | begin owner ids =>
    show Good ⟨(w.recovery.begin owner ids).2, w.log ++ [_]⟩
    unfold ViewResizeRecovery.begin
    split
    · rename_i hfailed
      exact h.fails hfailed nofun hfailed (h.unseen hfailed)
    split
    · exact h.fails rfl nofun rfl rfl
    split
    · exact h.next rfl nofun (h.seen_kept rfl rfl rfl rfl rfl (Nat.le_refl _) rfl) (fun _ hissued => ⟨nofun, .inr hissued⟩)
        (fun hs => .inl hs) h.unseen
    rename_i hpending
    exact h.next rfl nofun (fun hs => absurd (h.seen hs).1 hpending) (fun _ hissued => ⟨nofun, .inr hissued⟩)
      (fun hs => .inl hs) h.unseen
  | finish owner ids =>
    show Good ⟨(w.recovery.finish owner ids).2, w.log ++ [_]⟩
    have hkept : Good ⟨w.recovery, w.log ++ [{ call := .finish owner ids, answer := false, failed := w.recovery.failed }]⟩ :=
      h.next rfl nofun (h.seen_kept rfl rfl rfl rfl rfl (Nat.le_refl _) rfl) (fun _ hissued => ⟨nofun, .inr hissued⟩)
        (fun hs => .inl hs) h.unseen
    unfold ViewResizeRecovery.finish
    split
    · exact hkept
    rename_i hlive
    split
    · exact h.fails rfl nofun rfl rfl
    split
    · exact hkept
    refine h.next rfl nofun nofun (fun _ _ => ⟨nofun, .inl rfl⟩) (fun _ => .inl ?_) nofun
    simp only [Bool.or_eq_true, not_or, Bool.not_eq_true] at hlive
    exact hlive.2
  | release_resize_authorization =>
    show Good ⟨w.recovery.release_resize_authorization, w.log ++ [_]⟩
    unfold ViewResizeRecovery.release_resize_authorization
    split
    · exact h.next rfl nofun (h.seen_kept rfl rfl rfl rfl rfl (Nat.le_refl _) rfl) (fun _ _ => ⟨nofun, .inl rfl⟩)
        (fun hs => .inl hs) h.unseen
    exact h.next rfl nofun (h.seen_kept rfl rfl rfl rfl rfl (Nat.le_refl _) rfl) (fun _ _ => ⟨nofun, .inl rfl⟩)
      (fun hs => .inl hs) h.unseen
  | clear => exact h.next rfl nofun nofun (fun _ _ => ⟨nofun, .inl rfl⟩) (fun _ => .inr rfl) nofun
  | mark_failed => exact h.fails rfl nofun rfl rfl

theorem Good.start : Good {} where
  unseen := nofun
  seen := nofun
  authorized _ _ hsince := by
    obtain ⟨before, x, after, hsplit, -⟩ := hsince
    cases before <;> cases hsplit
  failed _ hsince := by
    obtain ⟨before, x, after, hsplit, -⟩ := hsince
    cases before <;> cases hsplit
  resizes := explained_nil

end

/-- Destructive steps need gates that were seen closed in an earlier update: the native removal of a view, and a resize,
where no view was seen open while an authorization was out. -/
theorem gates_are_seen_closed_before_a_destructive_step (retirements : List view_retirement.Call) (calls : List Call) :
    Explained view_retirement.Retires (run view_retirement.step ({} : view_retirement.World) retirements).log ∧
      (Guarded step Usual ({} : World) calls → Explained Resizes (run step ({} : World) calls).log) := by
  refine ⟨view_retirement.retires retirements, fun hcalls => ?_⟩
  have hone : ∀ (w : World) (call : Call), Good w → Usual w call → Good (step w call) := fun _ _ h husual => h.step husual
  exact (guarded_invariant hone calls Good.start hcalls).resizes

/-! ## A view that is opened while an authorization is out -/

def pair : OwnedIds := fun i => if i = 0 then 1 else if i = 1 then 2 else 0

/-- The two views of a pair, with the flag word of the first. -/
def pair_views (flags : UInt64) : Views := fun i =>
  { complete := true, ready := true, status := .ready, view_address := 8 * (i.val + 1), node_address := 16, camera_address := 24,
    view_index := i.val, fov := 0x3f800000#32, flags := (if i = 0 then flags else 1, 0) }

def twice_closed : List Call :=
  [.begin ⟨7, 1⟩ pair, .observe ⟨7, 1⟩ pair 1 (pair_views 1), .observe ⟨7, 1⟩ pair 2 (pair_views 1)]

theorem twice_closed_is_resized : Explained Resizes (run step ({} : World) twice_closed).log := by
  apply (gates_are_seen_closed_before_a_destructive_step [] _).2
  have hordered : Ordered pair := by
    unfold Ordered
    decide
  exact ⟨trivial, ⟨hordered, fun _ _ => by decide⟩, ⟨hordered, fun _ _ => by decide⟩, trivial⟩

def reopened : List Call :=
  twice_closed ++ [.observe ⟨7, 1⟩ pair 3 (pair_views 0), .release_resize_authorization]

/-- The view that was opened is not remembered: the next closed update is answered by another resize. -/
theorem reopened_is_resized :
    ¬Explained Resizes (run step ({} : World) (reopened ++ [.observe ⟨7, 1⟩ pair 4 (pair_views 1)])).log := by
  intro h
  obtain ⟨owner, ids, update, views, hcall, -, ⟨earlier, -, hsince⟩, -⟩ :=
    h (run step ({} : World) reopened).log ⟨.observe ⟨7, 1⟩ pair 4 (pair_views 1), some .resize, false, false⟩ [] rfl rfl
  cases hcall
  replace hsince : Since (breaks pair) (SeenShut ⟨7, 1⟩ pair earlier) ((run step ({} : World) twice_closed).log ++
      [⟨.observe ⟨7, 1⟩ pair 3 (pair_views 0), some .wait, false, false⟩] ++
      [⟨.release_resize_authorization, none, false, false⟩]) := hsince
  rcases hsince.of_snoc with ⟨views, hcall, -⟩ | ⟨hsince, -⟩
  · cases hcall
  rcases hsince.of_snoc with ⟨views, hcall, hshut⟩ | ⟨-, hkept⟩
  · cases hcall
    exact absurd (hshut 0 (by decide)) (by decide)
  · exact absurd hkept (by decide)

end taxi_camera.native_camera.view_resize_recovery
