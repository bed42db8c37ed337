-- A stop wins over a start that is not finished. A creation is committed for a
-- start, a retry or a resumed wait alone, at the current revision, after which
-- nothing was stopped; an entry is created only by an update of the controller
-- that began then; and the observer ends no start that it did not sample, but
-- for a change of the flight that it follows.
import TaxiCam.ObserverPhases

namespace taxi_camera.native_camera

open engine_camera histories runs PairController List
open Event (ended)
open Since (now)

/-! ## The history of the requests -/

namespace Event

/-- What gives the requests a new revision. -/
def renews : Event → Bool
  | .started _ _ | .ended _ | .retried _ | .withdrawn _ => true
  | _ => false

/-- What ends every request. -/
def ends : Event → Bool
  | .ended _ => true
  | _ => false

def starts : Event → Bool
  | .started _ _ => true
  | _ => false

/-- What uses a request up, or gives it a new revision. -/
def spends : Event → Bool
  | .committed _ => true
  | e => e.renews

def begins : Event → Bool
  | .began => true
  | _ => false

end Event

/-- A start was accepted, and no end of the requests since. -/
def Asked : List Event → Prop := Since Event.ends fun _ e => e.starts = true

/-- The revision came with a start or a retry, and none since, nor an end of the requests. -/
structure Live (revision : Nat) (past : List Event) : Prop where
  latest : Since Event.renews (fun _ e => e = .started revision false ∨ e = .retried revision) past
  asked : Asked past

/-- A start, a retry or a resumed wait of the revision was not committed yet. -/
def Armed (revision : Nat) : List Event → Prop :=
  Since Event.spends fun _ e => e = .started revision false ∨ e = .retried revision ∨ e = .resumed revision

/-- A creation was committed at the revision, which is current. -/
def Committed (revision : Nat) : List Event → Prop :=
  Since Event.renews fun _ e => e = .committed revision

/-- The last update of the controller began with a creation that was committed and not stopped. -/
def Underway : List Event → Prop :=
  Since Event.begins fun before e =>
    e.begins = true ∧ ∃ revision, Committed revision before ∧ Live revision before

/-- What each entry of the history needs of those before it. -/
def Justified (past : List Event) : Event → Prop
  | .committed revision => Armed revision past ∧ Live revision past
  | .resumed revision | .withdrawn revision => Live revision past
  | .created _ _ _ => Underway past
  | _ => True

variable {e : Event} {pair : PairController}

theorem not_ends (h : e.renews = false) : e.ends = false := by
  cases e <;> first | rfl | exact h

theorem Live.append {revision : Nat} {past es : List Event} (h : Live revision past)
    (hes : ∀ e ∈ es, e.renews = false) : Live revision (past ++ es) :=
  ⟨h.latest.append hes, h.asked.append fun e he => not_ends (hes e he)⟩

theorem Live.snoc {revision : Nat} {past : List Event} (h : Live revision past)
    (he : e.renews = false) : Live revision (past ++ [e]) :=
  ⟨h.latest.snoc he, h.asked.snoc (not_ends he)⟩

/-! ## The controller that may create -/

/-- The update that is under way, or that has just been begun, may come to a creation. -/
def Willing (pair : PairController) : Prop :=
  match pair.phase with
  | .taking _ _ => pair.mailbox.command = .enable
  | .deciding _ _ | .starting _ => pair.creation_pending = true
  | .preparing _ _ | .creating _ _ _ => True
  | _ => False

theorem not_willing (h : pair.phase = .idle) : ¬Willing pair := by
  unfold Willing
  rw [h]
  exact id

theorem Willing.beside {pair' : PairController} (hb : Beside pair pair') (h : Willing pair') :
    Willing pair := by
  unfold Willing at h ⊢
  rw [hb.phase] at h
  split at h
  · exact hb.asks h
  · exact hb.pends h
  · exact hb.pends h
  · trivial
  · trivial
  · exact h.elim

/-- A step of the update makes it no more willing. -/
theorem Willing.of_resume (ht : pair.Tidy) {answer : Answer} (h : Willing (pair.resume answer)) : Willing pair := by
  have hstaged := ht.staged
  unfold resume at h
  unfold Willing
  split at h <;> rename_i hphase <;> rw [hphase] at hstaged
  · exact absurd h (not_willing hphase)
  · exact hstaged.elim
  · exact hstaged.elim
  · exact hstaged.elim
  · unfold PairController.take apply at h
    rw [hphase]
    split at h
    · rename_i hcommand
      exact hcommand
    · exact absurd (h : false = true) nofun
    · exact absurd (hstaged.2.2.symm.trans (h : pair.creation_pending = true)) nofun
  · unfold decide_update rest begin_cleanup at h
    rw [hphase]
    repeat' split at h
    all_goals first | exact h | exact False.elim h
  · exfalso
    have hpending := hstaged.2
    rename_i left after
    cases left with
    | nil =>
      unfold cleanup end_cleanup at h
      cases after <;> cases hids : pair.has_owned_ids <;> rw [hids] at h
      · exact absurd (hpending.symm.trans (h : pair.creation_pending = true)) nofun
      · exact h
      · exact h
      · exact h
    | cons index rest =>
      unfold cleanup at h
      dsimp only at h
      repeat' split at h
      all_goals exact h
  · unfold start rest at h
    rw [hphase]
    split at h
    · exact False.elim h
    rename_i hpending
    simp only [Bool.or_eq_true, Bool.not_eq_true', not_or, Bool.not_eq_false] at hpending
    exact hpending.2
  · rw [hphase]
    trivial
  · rw [hphase]
    trivial
  · exact False.elim h
  · exact False.elim h

/-! ## The invariant -/

namespace Runtime

/-- No revision that an update goes by is newer than the current one, and where the pair of an
update shows no request, there is none in the mailbox. -/
structure Sampled (revision : Nat) (command : Command) (point : Point) : Prop where
  revision : point.revision ≤ revision
  quiet : ∀ u, point.retries = some u → u.pair.request_pending = false → command ≠ .enable

structure Sound (s : Runtime) : Prop where
  told : Explained Justified s.history
  start : s.requested_start = true → Armed s.requested_start_revision s.history ∧
    Live s.requested_start_revision s.history ∧ s.pair.mailbox.command ≠ .enable
  asks : s.pair.phase = .idle → s.pair.mailbox.command = .enable →
    Committed s.requested_start_revision s.history ∧ Live s.requested_start_revision s.history
  pass : Willing s.pair → Underway s.history ∧
    (s.creation_revision = s.requested_start_revision → Live s.requested_start_revision s.history)
  recovers : s.recovery.requested = true → Asked s.history
  creation : s.creation_revision ≤ s.requested_start_revision
  wait : s.creation_wait.pending = true → s.creation_wait.revision ≤ s.requested_start_revision ∧
    (s.creation_wait.revision = s.requested_start_revision → Live s.requested_start_revision s.history)
  sampled : Sampled s.requested_start_revision s.pair.mailbox.command s.point

variable {point : Point} {s : Runtime}

theorem Sampled.going {revision : Nat} {command : Command}
    (h : point.revision ≤ revision) (hretries : point.retries = none) : Sampled revision command point where
  revision := h
  quiet u hu := by rw [hretries] at hu; cases hu

theorem Sampled.le {revision revision' : Nat} {command command' : Command}
    (h : Sampled revision command point) (hle : revision ≤ revision')
    (hcommand : command' = .enable → command = .enable) : Sampled revision' command' point where
  revision := Nat.le_trans h.revision hle
  quiet u hu hp hc := h.quiet u hu hp (hcommand hc)

theorem Sound.initial : Sound {} where
  told := explained_nil
  start h := Bool.noConfusion (h : false = true)
  asks _ h := by cases h
  pass h := absurd h (not_willing rfl)
  recovers h := Bool.noConfusion (h : false = true)
  creation := Nat.le_refl 0
  wait h := Bool.noConfusion (h : false = true)
  sampled := Sampled.going (Nat.zero_le _) rfl

section
variable {s s' : Runtime} (h : s.Sound)
include h

theorem Sound.keeps (hk : Keeps s s') : s'.Sound where
  told := by rw [hk.history]; exact h.told
  start hstart := by
    rw [hk.start] at hstart
    obtain ⟨harmed, hlive, hasks⟩ := h.start hstart
    rw [hk.history, hk.revision]
    exact ⟨harmed, hlive, fun hc => hasks (hk.pair.asks hc)⟩
  asks hidle hc := by
    rw [hk.history, hk.revision]
    exact h.asks (hk.pair.phase.symm.trans hidle) (hk.pair.asks hc)
  pass hw := by
    rw [hk.history, hk.revision, hk.creation_revision]
    exact h.pass (hw.beside hk.pair)
  recovers hr := by
    rw [hk.recovers] at hr
    rw [hk.history]
    exact h.recovers hr
  creation := by
    rw [hk.revision, hk.creation_revision]
    exact h.creation
  wait hpending := by
    rw [hk.creation_wait] at hpending ⊢
    rw [hk.history, hk.revision]
    exact h.wait hpending
  sampled := by
    rw [hk.revision, hk.point]
    exact h.sampled.le (Nat.le_refl _) hk.pair.asks

variable {e : Event}

/-- What is told with a new revision. -/
theorem Sound.snoc (he : Justified s.history e) : Explained Justified (s.history ++ [e]) := explained_snoc h.told he

/-- The end of a request, and the start of another: no older revision is current any more. -/
theorem Sound.renewed (ha : Apart s s') (hrevision : s'.requested_start_revision = s.requested_start_revision + 1)
    (hhistory : s'.history = s.history ++ [e]) (he : Justified s.history e) (hbegins : e.begins = false)
    (hasks : s.pair.phase = .idle → s'.pair.mailbox.command ≠ .enable)
    (hrecovers : s'.recovery.requested = true → Asked s'.history)
    (hstart : s'.requested_start = true → Armed s'.requested_start_revision s'.history ∧
      Live s'.requested_start_revision s'.history ∧ s'.pair.mailbox.command ≠ .enable) : s'.Sound where
  told := by rw [hhistory]; exact h.snoc he
  start := hstart
  asks hidle hc := absurd hc (hasks (ha.pair.phase.symm.trans hidle))
  pass hw := by
    refine ⟨?_, fun hsame => ?_⟩
    · rw [hhistory]
      exact (h.pass (hw.beside ha.pair)).1.snoc hbegins
    · have hle := h.creation
      rw [ha.creation_revision, hrevision] at hsame
      omega
  recovers := hrecovers
  creation := by
    have hle := h.creation
    rw [ha.creation_revision, hrevision]
    omega
  wait hpending := by
    rw [ha.creation_wait] at hpending ⊢
    have hle := (h.wait hpending).1
    refine ⟨by omega, fun hsame => ?_⟩
    omega
  sampled := by
    rw [hrevision, ha.point]
    exact h.sampled.le (Nat.le_succ _) ha.pair.asks

theorem Sound.ends {by_what : Ending} (hends : Ends s s' by_what) (ht : s.pair.Tidy)
    (hreset : s.ResetHeld) : s'.Sound := by
  refine h.renewed hends.toApart hends.revision hends.history trivial rfl (hends.asks ht hreset)
    (fun hr => ?_) fun hstart => ?_
  · rw [hends.recovers] at hr
    cases hr
  · rw [hends.start] at hstart
    cases hstart

theorem Sound.block (hb : Block s s') (ht : s.pair.Tidy) (hreset : s.ResetHeld) : s'.Sound := by
  rcases hb.kind with hkeeps | ⟨by_what, hends⟩ | ⟨retained, hstarts⟩
  · exact h.keeps hkeeps
  · exact h.ends hends ht hreset
  have hasked : Asked s'.history := by
    rw [hstarts.history]
    exact now rfl
  refine h.renewed hstarts.toApart hstarts.revision hstarts.history trivial rfl
    (hstarts.asks ht) (fun _ => hasked) fun hstart => ?_
  rw [hstarts.start] at hstart
  have hretained : retained = false := by simpa using hstart
  subst hretained
  rw [hstarts.history] at hasked ⊢
  rw [hstarts.revision]
  exact ⟨now (.inl rfl), ⟨now (.inl rfl), hasked⟩, hstarts.disables rfl⟩

end

/-! ## The work on the pool -/

theorem plain_of_inner {e : Event} (h : e.inner = true) : e.renews = false ∧ e.spends = false ∧ e.begins = false := by
  cases e <;> first | exact ⟨rfl, rfl, rfl⟩ | cases h

/-- What is told in an update of the controller that may create. -/
theorem explained_inner {log es : List Event} (h : Explained Justified log)
    (hes : ∀ e ∈ es, e.inner = true ∧ (e.creates = true → Underway log)) :
    Explained Justified (log ++ es) := by
  induction es generalizing log with
  | nil =>
    rw [append_nil]
    exact h
  | cons e rest ih =>
    obtain ⟨hinner, hcreates⟩ := hes e mem_cons_self
    have he : Justified log e := by
      cases e with
      | created renderer required id => exact hcreates rfl
      | committed _ => cases hinner
      | resumed _ => cases hinner
      | withdrawn _ => cases hinner
      | _ => trivial
    have happend : log ++ e :: rest = (log ++ [e]) ++ rest := by simp
    rw [happend]
    refine ih (explained_snoc h he) fun x hx => ?_
    obtain ⟨hinner', hcreates'⟩ := hes x (mem_cons_of_mem _ hx)
    exact ⟨hinner', fun hc => (hcreates' hc).snoc (plain_of_inner hinner).2.2⟩

section
variable {s t : Runtime} (h : s.Sound)
include h

theorem Sound.inside {creates : Bool} (ht : Inside creates s t) (hw : creates = true → Willing s.pair) : t.Sound := by
  obtain ⟨es, hhistory, hes⟩ := ht.told
  have hrenews : ∀ e ∈ es, e.renews = false := fun e he => (plain_of_inner (hes e he).1).1
  have hspends : ∀ e ∈ es, e.spends = false := fun e he => (plain_of_inner (hes e he).1).2.1
  have hbegins : ∀ e ∈ es, e.begins = false := fun e he => (plain_of_inner (hes e he).1).2.2
  refine ⟨?_, fun hstart => ?_, fun hidle hc => ?_, fun hwilling => ?_, fun hrecovers => ?_, ?_,
    fun hpending => ?_, ?_⟩
  · rw [hhistory]
    exact explained_inner h.told fun e he => ⟨(hes e he).1, fun hc => (h.pass (hw ((hes e he).2 hc))).1⟩
  · rw [ht.start] at hstart
    obtain ⟨harmed, hlive, hasks⟩ := h.start hstart
    rw [hhistory, ht.revision, ht.pair]
    exact ⟨harmed.append hspends, hlive.append hrenews, hasks⟩
  · rw [ht.pair] at hidle hc
    obtain ⟨hcommitted, hlive⟩ := h.asks hidle hc
    rw [hhistory, ht.revision]
    exact ⟨hcommitted.append hrenews, hlive.append hrenews⟩
  · rw [ht.pair] at hwilling
    obtain ⟨hunderway, hlive⟩ := h.pass hwilling
    rw [hhistory, ht.revision, ht.creation_revision]
    exact ⟨hunderway.append hbegins, fun hsame => (hlive hsame).append hrenews⟩
  · rw [ht.recovery] at hrecovers
    rw [hhistory]
    exact (h.recovers hrecovers).append fun e he => not_ends (hrenews e he)
  · rw [ht.revision, ht.creation_revision]
    exact h.creation
  · rw [hhistory, ht.revision]
    rcases ht.wait with hsame | ⟨hcreates, hdefer⟩
    · rw [hsame] at hpending ⊢
      obtain ⟨hle, hlive⟩ := h.wait hpending
      exact ⟨hle, fun hcurrent => (hlive hcurrent).append hrenews⟩
    -- the wait is for the revision of the creation that is under way
    rw [hdefer]
    exact ⟨h.creation, fun hcurrent => ((h.pass (hw hcreates)).2 hcurrent).append hrenews⟩
  · rw [ht.revision, ht.pair, ht.point]
    exact h.sampled

theorem Sound.go_to {point : Point} (hpoint : Sampled s.requested_start_revision s.pair.mailbox.command point) :
    (s.go_to point).Sound :=
  ⟨h.told, h.start, h.asks, h.pass, h.recovers, h.creation, h.wait, hpoint⟩

/-- An update of the controller begins: with a creation, where one was committed. -/
theorem Sound.process_update (hrest : s.Resting) (u : Update) (pass : Pass) (sight : Sight)
    (hu : u.start_revision ≤ s.requested_start_revision) : (s.process_update u pass sight).Sound := by
  have hsampled : Sampled s.requested_start_revision s.pair.mailbox.command (.processing u pass) :=
    Sampled.going hu rfl
  unfold Runtime.process_update
  split
  · exact h.go_to hsampled
  have hidle := processing_eq_false hrest.idle
  have hpair : s.pair.process_update s.token {} = { s.pair with phase := .taking s.token {} } := by
    unfold PairController.process_update
    rw [hidle]
    rfl
  rw [hpair]
  refine ⟨explained_snoc h.told trivial, fun hstart => ?_, fun hidle' => ?_, fun hwilling => ?_,
    fun hrecovers => (h.recovers hrecovers).snoc rfl, h.creation, fun hpending => ?_, hsampled⟩
  · obtain ⟨harmed, hlive, hasks⟩ := h.start hstart
    exact ⟨harmed.snoc rfl, hlive.snoc rfl, hasks⟩
  · cases hidle'
  · obtain ⟨hcommitted, hlive⟩ := h.asks hrest.idle hwilling
    exact ⟨now ⟨rfl, _, hcommitted, hlive⟩, fun _ => hlive.snoc rfl⟩
  · obtain ⟨hle, hlive⟩ := h.wait hpending
    exact ⟨hle, fun hcurrent => (hlive hcurrent).snoc rfl⟩

/-- The controller takes a step within its update. -/
theorem Sound.resume (ho : s.pair.Tidy) (hprocessing : s.pair.processing = true) (answer : Answer) :
    Sound { s with pair := s.pair.resume answer } := by
  refine ⟨h.told, fun hstart => ?_, fun hidle hc => ?_, fun hwilling => ?_, h.recovers, h.creation, h.wait, ?_⟩
  · obtain ⟨harmed, hlive, hasks⟩ := h.start hstart
    exact ⟨harmed, hlive, fun hc => hasks ((resume_steps answer ho).2 hc)⟩
  · exact absurd hc (idle_resume_asks answer hprocessing ho hidle)
  · exact h.pass (Willing.of_resume ho hwilling)
  · exact h.sampled.le (Nat.le_refl _) (resume_steps answer ho).2

end

/-! ## A step of the observer -/

/-- Why the observer may clear a start: it is the one its update goes by, or the observer begins a
reset or a change of the flight by itself. -/
def Cleared (s : Runtime) (es : List Event) : Prop :=
  ended .session_reset ∈ es ∨ ended .flight_change ∈ es ∨
    ∃ u, s.point.update = some u ∧ u.start_revision = s.requested_start_revision

/-- What the observer came to, and what it cleared on the way. -/
structure Fair (s s' : Runtime) : Prop where
  sound : s'.Sound
  spares : ∃ es, s'.history = s.history ++ es ∧
    (s.requested_start = true → s'.requested_start = true ∨ s.Cleared es)

section
variable {s t v : Runtime}

theorem Fair.refl (h : s.Sound) : Fair s s := ⟨h, [], (append_nil _).symm, fun hstart => .inl hstart⟩

theorem Cleared.append {es es' : List Event} (h : s.Cleared es) : s.Cleared (es ++ es') := by
  rcases h with hreset | hflight | hsampled
  · exact .inl (mem_append_left _ hreset)
  · exact .inr (.inl (mem_append_left _ hflight))
  · exact .inr (.inr hsampled)

/-- A start that was not cleared before the last part, and what that part tells. -/
theorem Fair.then (h : Fair s t) (hv : v.Sound) (es : List Event) (hhistory : v.history = t.history ++ es)
    (hspares : t.requested_start = true → v.requested_start = true ∨
      ended .session_reset ∈ es ∨ ended .flight_change ∈ es) : Fair s v := by
  obtain ⟨past, hpast, hstart⟩ := h.spares
  refine ⟨hv, past ++ es, by rw [hhistory, hpast, append_assoc], fun hs => ?_⟩
  rcases hstart hs with ht | hcleared
  · rcases hspares ht with hv | hreset | hflight
    · exact .inl hv
    · exact .inr (.inl (mem_append_right _ hreset))
    · exact .inr (.inr (.inl (mem_append_right _ hflight)))
  · exact .inr hcleared.append

section
variable (h : Fair s t)
include h

theorem Fair.keeps (hk : Keeps t v) : Fair s v := by
  refine h.then (h.sound.keeps hk) [] (by rw [hk.history, append_nil]) fun hstart => .inl ?_
  rw [hk.start]
  exact hstart

theorem Fair.inside (hi : Inside false t v) : Fair s v := by
  obtain ⟨es, hes, -⟩ := hi.told
  refine h.then (h.sound.inside hi nofun) es hes fun hstart => .inl ?_
  rw [hi.start]
  exact hstart

theorem Fair.go_to {point : Point} (hpoint : Sampled t.requested_start_revision t.pair.mailbox.command point) :
    Fair s (t.go_to point) :=
  h.then (h.sound.go_to hpoint) [] (append_nil _).symm fun hstart => .inl hstart

theorem Fair.changes (hrest : t.Resting) (hc : Changes t v) : Fair s v := by
  rcases hc with hkeeps | hends | hends
  · exact h.keeps hkeeps
  · refine h.then (h.sound.ends hends hrest.tidy hrest.reset) _ hends.history fun _ => .inr (.inl ?_)
    exact mem_singleton_self _
  refine h.then (h.sound.ends hends hrest.tidy hrest.reset) _ hends.history fun _ => .inr (.inr ?_)
  exact mem_singleton_self _

theorem Fair.blocks (hrest : t.Resting) (hb : Blocks t v) : Fair s v := by
  induction hb with
  | refl => exact h
  | block hbefore _ hchanges ih => exact ih.changes (hrest.blocks hbefore) hchanges

theorem Fair.path (hrest : t.Resting) (hp : Path t v) : Fair s v := by
  induction hp with
  | refl => exact h
  | blocks hbefore hblocks ih => exact ih.blocks (hbefore.resting hrest) hblocks
  | work _ hwork ih => exact ih.inside hwork.inside.1

theorem Fair.process_update (hrest : t.Resting) (u : Update) (pass : Pass) (sight : Sight)
    (hu : u.start_revision ≤ t.requested_start_revision) : Fair s (t.process_update u pass sight) := by
  have hsound := h.sound.process_update hrest u pass sight hu
  revert hsound
  unfold Runtime.process_update
  split
  · exact fun hsound => h.then hsound [] (append_nil _).symm fun hstart => .inl hstart
  · exact fun hsound => h.then hsound [.began] rfl fun hstart => .inl hstart

end

end

theorem sample_fair (h : s.Sound) (hrest : s.Resting) (u : Update) : Fair s (s.sample u) := by
  have hready := (Fair.refl h).blocks hrest (ready_blocks s u)
  exact hready.go_to (Sampled.going (Nat.le_refl _) rfl)

section
variable {s : Runtime} {u : Update} (h : s.Sound) (hle : u.start_revision ≤ s.requested_start_revision)
include h hle

theorem Goes.fair {going : Bool} {v : Runtime} (hg : Goes going s u v) (hrest : s.Resting) : Fair s v := by
  obtain ⟨t, point, hleads, rfl⟩ := hg
  refine ((Fair.refl h).path hrest hleads.path).go_to (Sampled.going ?_ hleads.retries)
  exact Nat.le_trans hleads.revision (Nat.le_trans hle hleads.path.revision)

theorem finish_pass_fair (pass : Pass) : Fair s (s.finish_pass u pass) := by
  unfold finish_pass
  cases pass with
  | first =>
    refine (Fair.refl h).go_to ⟨hle, fun v hv hp hc => ?_⟩
    obtain rfl := Option.some.inj (hv : some { u with pair := s.pair.snapshot } = some v)
    change (s.pair.mailbox.command != .none) = false at hp
    rw [hc] at hp
    cases hp
  | second => exact (Fair.refl h).go_to (Sampled.going hle rfl)
  | removal => exact (Fair.refl h).go_to (Sampled.going hle rfl)
  | reset => exact (Fair.refl h).go_to (Sampled.going hle rfl)

end

/-! ## What is asked for -/

section
variable {s : Runtime} {u : Update} (h : s.Sound)
include h

/-- A start is withdrawn at the revision that was sampled. -/
theorem withdraw_fair (hu : s.point.update = some u) (temporary : Bool) : Fair s (s.withdraw u temporary) := by
  have hle : u.start_revision ≤ s.requested_start_revision := by
    rw [← Point.revision_eq hu]
    exact h.sampled.revision
  have hconsumed : Fair s (if u.requested_start && s.requested_start &&
        s.requested_start_revision = u.start_revision then
      { s with
        requested_start := false
        requested_start_revision := s.requested_start_revision + 1 }.tell (.withdrawn u.start_revision)
    else s) := by
    split
    · rename_i hsampled
      simp only [Bool.and_eq_true, decide_eq_true_eq] at hsampled
      obtain ⟨⟨-, hstart⟩, hrevision⟩ := hsampled
      obtain ⟨-, hlive, hasks⟩ := h.start hstart
      rw [hrevision] at hlive
      refine ⟨?_, [.withdrawn u.start_revision], rfl, fun _ => .inr (.inr (.inr ⟨u, hu, hrevision.symm⟩))⟩
      exact h.renewed { (Keeps.refl s).toApart with } rfl rfl hlive rfl (fun _ => hasks)
        (fun hr => (h.recovers hr).snoc rfl) nofun
    · exact Fair.refl h
  have hafter : u.start_revision ≤ (if u.requested_start && s.requested_start &&
        s.requested_start_revision = u.start_revision then
      { s with
        requested_start := false
        requested_start_revision := s.requested_start_revision + 1 }.tell (.withdrawn u.start_revision)
    else s).requested_start_revision := by
    split
    · exact Nat.le_succ_of_le hle
    · exact hle
  unfold withdraw
  revert hconsumed hafter
  generalize (if u.requested_start && s.requested_start && s.requested_start_revision = u.start_revision then
      { s with
        requested_start := false
        requested_start_revision := s.requested_start_revision + 1 }.tell (.withdrawn u.start_revision)
    else s) = consumed
  intro hconsumed hafter
  split
  · exact (hconsumed.keeps (Keeps.of_beside consumed (Beside.of_disable _))).go_to (Sampled.going hafter rfl)
  · exact hconsumed.go_to (Sampled.going hafter rfl)

/-- A creation that waited is asked for where its request is still the current one. -/
theorem resume_creation_fair (hrest : s.Resting) (hpoint : s.point = .waiting u) : Fair s (s.resume_creation u) := by
  have hsampled := h.sampled
  rw [hpoint] at hsampled
  have hle : u.start_revision ≤ s.requested_start_revision := hsampled.revision
  have hagain : Sampled s.requested_start_revision s.pair.mailbox.command (.retrying u) := ⟨hle, hsampled.quiet⟩
  have hkeeps := cancel_uncreated_request_keeps s
  have hcancelled := h.keeps hkeeps
  unfold resume_creation
  dsimp only
  split
  · exact (Fair.refl h).go_to hagain
  rename_i hpending
  split
  · have hdropped : Sound { s with creation_wait := { s.creation_wait with pending := false } } :=
      ⟨h.told, h.start, h.asks, h.pass, h.recovers, h.creation, nofun, h.sampled⟩
    exact ((Fair.refl h).then hdropped [] (append_nil _).symm fun hstart => .inl hstart).go_to hagain
  rename_i hcurrent
  simp only [bne_iff_ne, Bool.or_eq_true, Bool.not_eq_true', not_or, not_not] at hcurrent
  split
  · exact (Fair.refl h).go_to hagain
  split
  · refine ((Fair.refl h).keeps hkeeps).go_to (hagain.le ?_ hkeeps.pair.asks)
    exact Nat.le_of_eq hkeeps.revision.symm
  have hwait := (h.wait (by simpa using hpending)).2 hcurrent.1.symm
  have hasks := cancel_uncreated_request_asks s hrest.tidy hrest.idle
  have hidle := hkeeps.pair.phase.trans hrest.idle
  have hrevision := hkeeps.revision
  have hle' : u.start_revision ≤ s.cancel_uncreated_request.1.requested_start_revision := by
    rw [hrevision]
    exact hle
  have hlive : Live s.requested_start_revision s.cancel_uncreated_request.1.history := by
    rw [hkeeps.history]
    exact hwait
  refine (Fair.refl h).then ?_ [.resumed s.requested_start_revision] ?_ fun _ => .inl rfl
  · refine ⟨explained_snoc hcancelled.told hlive, fun _ => ?_, fun _ hc => absurd hc hasks,
      fun hwilling => absurd hwilling (not_willing hidle),
      fun hr => (hcancelled.recovers hr).snoc rfl, hcancelled.creation, nofun,
      hle', fun _ _ _ => hasks⟩
    refine ⟨?_, ?_, hasks⟩
    · rw [hrevision]
      exact now (.inr (.inr rfl))
    · rw [hrevision]
      exact hlive.snoc rfl
  · show s.cancel_uncreated_request.1.history ++ _ = _
    rw [hkeeps.history]

/-- A retry has a revision of its own. -/
theorem retry_fair (hpoint : s.point = .retrying u) (sight : Sight) : Fair s (s.retry u sight) := by
  have hsampled := h.sampled
  rw [hpoint] at hsampled
  have hle : u.start_revision ≤ s.requested_start_revision := hsampled.revision
  unfold retry
  dsimp only
  split
  · exact (Fair.refl h).go_to (Sampled.going hle rfl)
  split
  · rename_i hretries
    simp only [Bool.and_eq_true] at hretries
    have hmay : s.recovery.may_retry sight.now u.pair sight.pose = true := by
      by_contra hnot
      have := hretries.2
      unfold SceneRecovery.retry at this
      rw [if_neg hnot] at this
      cases this
    simp only [SceneRecovery.may_retry, SceneRecovery.clean, Bool.and_eq_true, Bool.not_eq_true',
      Bool.or_eq_false_iff] at hmay
    have hquiet : u.pair.request_pending = false := hmay.2.1.1.1.1.2
    have hasked := h.recovers hmay.1.1.1.1.1
    have hasks := hsampled.quiet u rfl hquiet
    have hretried : Sound ({ s with
        recovery := (s.recovery.retry sight.now u.pair sight.pose).1
        requested_start := true
        requested_start_revision := s.requested_start_revision + 1 }.tell
        (.retried (s.requested_start_revision + 1))) := by
      have hasked' := hasked.snoc (show (Event.retried (s.requested_start_revision + 1)).ends = false from rfl)
      refine h.renewed { (Keeps.refl s).toApart with } rfl rfl trivial rfl (fun _ => hasks)
        (fun _ => hasked') fun _ => ?_
      exact ⟨now (.inr (.inl rfl)), ⟨now (.inr rfl), hasked'⟩, hasks⟩
    refine ((Fair.refl h).then hretried _ rfl fun _ => .inl rfl).go_to (Sampled.going ?_ rfl)
    exact Nat.le_refl (s.requested_start_revision + 1)
  · exact (Fair.refl h).go_to (Sampled.going hle rfl)

/-- A start is committed at the revision that the update goes by, which is current. -/
theorem commit_fair (hidle : s.pair.phase = .idle) (hpoint : s.point = .committing u) : Fair s (s.commit u) := by
  have hle : u.start_revision ≤ s.requested_start_revision := by
    have := h.sampled.revision
    rw [hpoint] at this
    exact this
  unfold commit
  split
  · rename_i hallowed
    simp only [Bool.and_eq_true, decide_eq_true_eq] at hallowed
    obtain ⟨⟨⟨hstart, hrevision⟩, -⟩, -⟩ := hallowed
    obtain ⟨harmed, hlive, -⟩ := h.start hstart
    rw [hrevision] at harmed hlive
    have hcommitted : Committed s.requested_start_revision (s.history ++ [.committed u.start_revision]) := by
      rw [hrevision]
      exact now rfl
    have hlive' : Live s.requested_start_revision (s.history ++ [.committed u.start_revision]) := by
      rw [hrevision]
      exact hlive.snoc rfl
    refine ⟨?_, [.committed u.start_revision], rfl, fun _ => .inr (.inr (.inr ⟨u, ?_, hrevision.symm⟩))⟩
    · refine ⟨explained_snoc h.told ⟨harmed, hlive⟩, nofun, fun _ _ => ⟨hcommitted, hlive'⟩,
        fun hwilling => absurd hwilling (not_willing hidle), fun hr => (h.recovers hr).snoc rfl, hle,
        fun hpending => ?_, Sampled.going hle rfl⟩
      obtain ⟨hwait, hsame⟩ := h.wait hpending
      exact ⟨hwait, fun hcurrent => (hsame hcurrent).snoc rfl⟩
    · rw [hpoint]
      rfl
  · exact (Fair.refl h).go_to (Sampled.going hle rfl)

theorem thrown_fair (sight : Sight) : Fair s (s.thrown sight) := by
  have hdisabled := Keeps.of_beside s (Beside.of_disable s.pair)
  have hstopped := record_stop_keeps { s with pair := s.pair.request_disable } .exception sight.detail sight.now none
  exact (((Fair.refl h).keeps hdisabled).keeps hstopped).go_to (Sampled.going (Nat.zero_le _) rfl)

end

/-- The controller goes on after what it called. -/
theorem turn_inside {t : Runtime} {creates : Bool} (h : s.Sound) (ho : s.pair.Tidy)
    (hprocessing : s.pair.processing = true) (ht : Inside creates s t) (hw : creates = true → Willing s.pair)
    (answer : Answer) : Fair s { t with pair := t.pair.resume answer } := by
  have hsound := h.inside ht hw
  rw [← ht.pair] at ho hprocessing
  obtain ⟨es, hes, -⟩ := ht.told
  refine (Fair.refl h).then (hsound.resume ho hprocessing answer) es hes fun hstart => .inl ?_
  rw [show requested_start _ = t.requested_start from rfl, ht.start]
  exact hstart

theorem turn_fair (h : s.Sound) (ho : s.pair.Tidy) (hprocessing : s.pair.processing = true)
    (sight : Sight) : Fair s (s.turn sight) := by
  unfold turn
  dsimp only
  split
  · split
    · have htold : Inside false s (s.tell .attempted) := (Inside.refl false s).of_tell rfl nofun
      exact turn_inside h ho hprocessing htold nofun _
    · exact turn_inside h ho hprocessing (Inside.refl false s) nofun _
  · rename_i hphase
    refine turn_inside h ho hprocessing (initializer_inside s sight) (fun _ => ?_) _
    unfold Willing
    rw [hphase]
    trivial
  · rename_i manager _ _ hphase
    have hwilling : Willing s.pair := by
      unfold Willing
      rw [hphase]
      trivial
    split
    · exact turn_inside h ho hprocessing (native_create_inside s _ sight) (fun _ => hwilling) _
    have hinside := guard_create_inside s manager sight
    split
    · obtain ⟨es, hes, -⟩ := hinside.told
      refine (Fair.refl h).then (h.inside hinside fun _ => hwilling) es hes fun hstart => .inl ?_
      rw [hinside.start]
      exact hstart
    · exact turn_inside h ho hprocessing hinside (fun _ => hwilling) _
  · split
    · exact turn_inside h ho hprocessing (Inside.refl false s) nofun _
    · exact turn_inside h ho hprocessing (erase_inside false s _ sight) nofun _
  · exact turn_inside h ho hprocessing (Inside.refl false s) nofun _

/-- Every step of the observer. -/
theorem observe_fair (h : s.Sound) (ho : s.Ordered) (sight : Sight) : Fair s (s.observe sight) := by
  have hplaced := ho.placed
  have hrest : s.point.passes = false → s.Resting := ho.resting
  have hle : ∀ u, s.point.update = some u → u.start_revision ≤ s.requested_start_revision := by
    intro u hu
    rw [← Point.revision_eq hu]
    exact h.sampled.revision
  have hkeep : ∀ {t : Runtime} {u : Update} {point : Point}, Keeps s t →
      u.start_revision ≤ s.requested_start_revision → point.revision ≤ u.start_revision →
      point.retries = none → Fair s (t.go_to point) := by
    intro t u point hkeeps hu hpoint hretries
    refine ((Fair.refl h).keeps hkeeps).go_to (Sampled.going ?_ hretries)
    rw [hkeeps.revision]
    exact Nat.le_trans hpoint hu
  have hdisabled := Keeps.of_beside s (Beside.of_disable s.pair)
  unfold observe
  split
  · exact thrown_fair h sight
  split <;> rename_i hpoint <;> rw [hpoint] at hplaced hrest hle
  · split
    · exact (Fair.refl h).go_to (Sampled.going (Nat.zero_le _) rfl)
    · exact Fair.refl h
  · exact sample_fair h (hrest rfl) _
  · exact (choose_goes s _ _).fair h (hle _ rfl) (hrest rfl)
  · exact (service_reset_goes s _ _).fair h (hle _ rfl) (hrest rfl)
  · exact ((Fair.refl h).keeps hdisabled).process_update ((hrest rfl).beside (Beside.of_disable s.pair)) _ _ _
      (hle _ rfl)
  · exact (drain_goes s _ _).fair h (hle _ rfl) (hrest rfl)
  · exact hkeep { Keeps.refl s with } (hle _ rfl) (Nat.le_refl _) rfl
  · exact (service_transition_goes s _).fair h (hle _ rfl) (hrest rfl)
  · exact (settle_transition_goes s _ _ _ _ _ _).fair h (hle _ rfl) (hrest rfl)
  · exact hkeep (record_stop_keeps s _ _ _ _) (hle _ rfl) (Nat.le_refl _) rfl
  · exact withdraw_fair h (by rw [hpoint]; rfl) _
  · rename_i u
    have hresting := hrest rfl
    have hentered : Sound { s with
        creations := 0
        creation_pose_unavailable := false
        creation_pool_deferred := false
        creation_revision := u.start_revision
        creation_valid := sight.validated } :=
      ⟨h.told, h.start, h.asks, fun hwilling => absurd hwilling (not_willing hresting.idle), h.recovers,
        hle u rfl, h.wait, h.sampled⟩
    refine ((Fair.refl h).then hentered [] (append_nil _).symm fun hstart => .inl hstart).process_update
      ?_ _ _ _ (hle u rfl)
    exact ⟨hresting.tidy, hresting.idle, hresting.calling, hresting.reset⟩
  · split
    · rename_i hprocessing
      exact turn_fair h ho.tidy hprocessing sight
    · exact finish_pass_fair h (hle _ rfl) _
  · exact resume_creation_fair h (hrest rfl) hpoint
  · exact retry_fair h hpoint _
  · exact (check_goes (hplaced.token rfl) (hplaced.after _ rfl) _).fair h (hle _ rfl) (hrest rfl)
  · exact commit_fair h (hrest rfl).idle hpoint
  · exact (Fair.refl h).process_update (hrest rfl) _ _ _ (hle _ rfl)
  · exact ((hrest rfl).fail (hplaced.token rfl) (hplaced.after _ rfl) _).fair h (hle _ rfl) (hrest rfl)
  · exact ((hrest rfl).defer_failure (hplaced.token rfl) (hplaced.after _ rfl) _ _).fair h (hle _ rfl) (hrest rfl)
  · exact hkeep (record_stop_keeps s _ _ _ _) (hle _ rfl) (Nat.le_refl _) rfl
  · exact (settle_goes (hplaced.token rfl) (hplaced.after _ rfl) _).fair h (hle _ rfl) (hrest rfl)
  · exact hkeep (record_stop_keeps s _ _ _ _) (hle _ rfl) (Nat.le_refl _) rfl
  · exact ((Fair.refl h).keeps hdisabled).process_update ((hrest rfl).beside (Beside.of_disable s.pair)) _ _ _
      (hle _ rfl)
  · rename_i u
    have hu := hle u rfl
    unfold clear
    split
    · exact (Fair.refl h).go_to (Sampled.going hu rfl)
    have hinside := clear_retired_pair_inside false s
    rw [← hinside.revision] at hu
    exact ((Fair.refl h).inside hinside).go_to (Sampled.going hu rfl)
  · exact hkeep { Keeps.refl s with } (hle _ rfl) (Nat.zero_le _) rfl

theorem Sound.step (h : s.Sound) (ho : s.Ordered) (op : Op) : (s.step op).Sound := by
  cases hobserves : op.observes with
  | false => exact h.block (step_block s hobserves) ho.tidy ho.reset
  | true =>
    cases op with
    | observe sight => exact (observe_fair h ho sight).sound
    | _ => cases hobserves

/-- Every run of the observer beside the other threads. -/
theorem sound_run (ops : List Op) : (run Runtime.step {} ops).Ordered ∧ (run Runtime.step {} ops).Sound := by
  have hstep : ∀ (s : Runtime) (op : Op), s.Ordered ∧ s.Sound → (s.step op).Ordered ∧ (s.step op).Sound :=
    fun s op h => ⟨h.1.step op, h.2.step h.1 op⟩
  exact @invariant _ _ step {} (fun s => s.Ordered ∧ s.Sound) hstep ops ⟨Ordered.initial, Sound.initial⟩

/-- An update of the controller that may create after an end began before it, where no start came
since. -/
theorem begun_before_end {before between : List Event} {by_what : Ending}
    (h : Underway (before ++ .ended by_what :: between)) (hnone : ∀ e ∈ between, e.starts = false) :
    ∀ e ∈ between, e.begins = false := by
  intro e he
  by_contra hbegins
  have hbegins : e.begins = true := by simpa using hbegins
  obtain ⟨middle, rest, rfl⟩ := append_of_mem he
  have hsplit : before ++ ended by_what :: (middle ++ e :: rest) =
      (before ++ ended by_what :: middle) ++ e :: rest := by simp
  rw [hsplit] at h
  -- the last update that began did so after the end, and needs a start since
  obtain ⟨past, x, after, hlog, ⟨hx, revision, -, hlive⟩, hafter⟩ := h
  have hlonger : before ++ ended by_what :: middle <+: past := by
    rcases append_eq_append_iff.mp hlog with ⟨c, hpast, -⟩ | ⟨c, hpast, hc⟩
    · exact ⟨c, hpast.symm⟩
    cases c with
    | nil =>
      rw [append_nil] at hpast
      exact ⟨[], by rw [append_nil, hpast]⟩
    | cons y tail =>
      obtain ⟨rfl, htail⟩ := List.cons.inj hc
      have := hafter e (by rw [htail]; simp)
      rw [hbegins] at this
      cases this
  obtain ⟨c, rfl⟩ := hlonger
  have hasked : Asked (before ++ .ended by_what :: (middle ++ c)) := by
    have := hlive.asked
    rwa [append_assoc, cons_append] at this
  obtain ⟨first, y, last, hmc, hy, -⟩ := hasked.after rfl nofun
  have hmem : y ∈ middle ++ e :: rest := by
    have hwhole : (before ++ ended by_what :: middle) ++ e :: rest =
        (before ++ ended by_what :: middle) ++ (c ++ x :: after) := by
      rw [hlog, append_assoc]
    have hrest := append_cancel_left hwhole
    rw [hrest, ← append_assoc, hmc]
    simp
  rw [hnone y hmem] at hy
  cases hy

/-- A creation is committed for a start, a retry or a wait of the current revision after which
nothing ended the requests; a native create after an end is one of an update of the controller that
had begun; and a start is cleared at its own revision, or by a reset or a change of the flight that
the observer itself begins. -/
theorem a_stop_wins (ops : List Op) :
    Explained Justified (run Runtime.step {} ops).history ∧
      (∀ before by_what between renderer required id after,
        (run Runtime.step {} ops).history =
          before ++ .ended by_what :: (between ++ .created renderer required id :: after) →
        (∀ e ∈ between, e.starts = false) → ∀ e ∈ between, e.begins = false) ∧
      ∀ sight, (run Runtime.step {} ops).requested_start = true →
        ((run Runtime.step {} ops).observe sight).requested_start = false →
        ∃ es, ((run Runtime.step {} ops).observe sight).history = (run Runtime.step {} ops).history ++ es ∧
          (run Runtime.step {} ops).Cleared es := by
  obtain ⟨hordered, hsound⟩ := sound_run ops
  refine ⟨hsound.told, ?_, ?_⟩
  · intro before by_what between renderer required id after hhistory hnone
    have hcreated : Underway (before ++ .ended by_what :: between) := by
      refine hsound.told _ (.created renderer required id) after ?_
      rw [hhistory]
      simp
    exact begun_before_end hcreated hnone
  · intro sight hstart hclear
    obtain ⟨es, hes, hspares⟩ := (observe_fair hsound hordered sight).spares
    refine ⟨es, hes, (hspares hstart).resolve_left ?_⟩
    rw [hclear]
    exact nofun

/-- A manager that passes its inspection, at a pool whose slots are all free. -/
def ready_sight : Sight where
  route := .inspected
  manager := some ⟨7, ⟨3, 1⟩, rfl, by decide⟩
  pool := { valid := true, free_count := 8, first_free_indices := #v[0, 1, 2, 3], release_checked := true }
  pose := true
  validated := true
  id := 41
  view := some 100

/-- A start, and the observer up to the first entry that is prepared. -/
def up_to_a_creation : List Op :=
  [.aircraft { ready := true }, .request_scene_test] ++ List.replicate 17 (.observe ready_sight)

/-- A stop that comes while an entry is prepared does not keep the engine from creating it. -/
theorem a_stop_comes_too_late : ∃ before between after,
    (run Runtime.step {} (up_to_a_creation ++ .request_scene_stop :: List.replicate 3 (.observe ready_sight))).history =
      before ++ .ended .stop :: (between ++ .created 7 2 41 :: after) ∧
    ∀ e ∈ between, e.starts = false := by
  refine ⟨[.started 1 false, .began, .snapshot 7 ready_sight.pool, .committed 1, .began, .attempted],
    [.snapshot 7 ready_sight.pool, .snapshot 7 ready_sight.pool], [.recorded 7 100], ?_, ?_⟩
  · decide +kernel
  · decide +kernel

/-- Beside the other threads, only the observer's own update is in the controller, and what is
published between updates says whether an entry is owned, also under a session reset. -/
theorem what_is_published_is_owned (ops : List Op) :
    let s := run Runtime.step {} ops
    (s.pair.processing = true → s.point.passes = true) ∧
    (s.pair.phase = .idle → s.pair.creation_pending = false ∧
      any_owned s.pair.snapshot.owned_ids = s.pair.has_owned_ids ∧
        (s.pair.mailbox.command = .enable → s.pair.has_owned_ids = false)) ∧
    (∀ u, s.point.after = some u → any_owned u.pair.owned_ids = s.pair.has_owned_ids) ∧
    (s.session_reset.holding = true → s.reset_requested = true ∧
      (s.pair.phase = .idle → s.pair.mailbox.command ≠ .enable)) := by
  intro s
  have h : s.Ordered := (sound_run ops).1
  refine ⟨h.held, fun hidle => ?_, h.placed.after, h.reset⟩
  have hstaged := h.tidy.staged
  rw [hidle] at hstaged
  exact ⟨hstaged.1, hstaged.2, h.tidy.mailbox⟩

end Runtime

end taxi_camera.native_camera
