-- What the observer finds of its controller in each phase, where no other
-- thread takes an update: no creation is left over between two updates, an
-- enable request stands in the mailbox only while no entry is owned, and what
-- is published says whether an entry is owned.
import TaxiCam.SceneObserver
import TaxiCam.EntryLedger
import TaxiCam.RecoveryBudget

namespace taxi_camera.engine_camera

open histories runs
open PairController (advance apply begin_cleanup cancel create creation_failed prepare rest)

namespace PairController

/-! ## The controller of one observer -/

/-- A cleanup is under way: its IDs go one by one, and its owner at the end. -/
def erasing : Phase → Bool
  | .erasing _ _ => true
  | _ => false

/-- What holds in each phase. -/
def Staged (s : PairController) : Phase → Prop
  | .cancelling | .acknowledging _ | .forgetting => False
  | .taking manager engine => manager.valid = true ∧ engine = {} ∧ s.creation_pending = false
  | .deciding manager engine => manager.valid = true ∧ engine = {} ∧ s.mailbox.command ≠ .enable ∧
      (s.creation_pending = true → s.desired_enabled = true ∧ s.has_owned_ids = false)
  | .starting _ => s.mailbox.command ≠ .enable ∧ s.has_owned_ids = false ∧
      (s.creation_pending = true → s.desired_enabled = true)
  | .idle => s.creation_pending = false ∧ any_owned s.published.owned_ids = s.has_owned_ids
  | .leaving => s.mailbox.command ≠ .enable ∧ s.creation_pending = false ∧
      any_owned s.published.owned_ids = s.has_owned_ids
  | _ => s.mailbox.command ≠ .enable ∧ s.creation_pending = false

structure Tidy (s : PairController) : Prop where
  staged : s.Staged s.phase
  owner : erasing s.phase = false → s.has_owned_ids = false → s.owner = {}
  mailbox : s.mailbox.command = .enable → s.has_owned_ids = false

theorem Tidy.initial : Tidy {} where
  staged := ⟨rfl, rfl⟩
  owner _ _ := rfl
  mailbox h := by cases h

section
variable {s : PairController} (h : s.Tidy)
include h

theorem Tidy.tell (e : Event) : (s.tell e).Tidy := ⟨h.staged, h.owner, h.mailbox⟩

/-- A disable request takes the place of what was in the mailbox. -/
theorem Tidy.request_disable : s.request_disable.Tidy := by
  have hstaged := h.staged
  have hdisabled : Tidy { s with mailbox := { command := .disable } } := by
    refine ⟨?_, h.owner, nofun⟩
    revert hstaged
    cases s.phase
    case taking manager engine => exact id
    case deciding manager engine => exact fun ⟨hm, he, _, hp⟩ => ⟨hm, he, nofun, hp⟩
    case starting manager => exact fun ⟨_, hi, hp⟩ => ⟨nofun, hi, hp⟩
    case idle => exact id
    case leaving => exact fun ⟨_, hp⟩ => ⟨nofun, hp⟩
    case cancelling => exact id
    case acknowledging manager => exact id
    case forgetting => exact id
    all_goals exact fun ⟨_, hp⟩ => ⟨nofun, hp⟩
  exact hdisabled.tell _

theorem Tidy.request_independent_pose (feeds : Nat) (hphase : s.phase = .idle)
    (hids : s.has_owned_ids = false) : (s.request_independent_pose feeds).Tidy := by
  have hstaged := h.staged
  rw [hphase] at hstaged
  have henabled : Tidy { s with
      mailbox := { command := .enable, independent_pose := true, feeds := (clamp_feeds feeds).count } } := by
    refine ⟨?_, h.owner, fun _ => hids⟩
    rw [hphase]
    exact hstaged
  exact henabled.tell _

theorem Tidy.process_update (manager : ManagerToken) (hmanager : manager.valid = true)
    (hphase : s.phase = .idle) : (s.process_update manager {}).Tidy := by
  have hstaged := h.staged
  rw [hphase] at hstaged
  have hidle : s.processing = false := by
    unfold PairController.processing
    rw [hphase]
  unfold PairController.process_update
  rw [hidle]
  exact ⟨⟨hmanager, rfl, hstaged.1⟩, fun _ => h.owner (by rw [hphase]; rfl), h.mailbox⟩

/-- The mailbox is empty after the request is taken; an enable is taken where nothing is owned. -/
theorem Tidy.take {manager : ManagerToken} {engine : EngineCallbacks}
    (hphase : s.phase = .taking manager engine) : (s.take manager engine).Tidy := by
  have hstaged := h.staged
  rw [hphase] at hstaged
  obtain ⟨hmanager, hengine, hpending⟩ := hstaged
  have howner := h.owner (by rw [hphase]; rfl)
  unfold PairController.take apply
  split
  · rename_i hcommand
    have hids := h.mailbox hcommand
    refine Tidy.tell ?_ _
    exact ⟨⟨hmanager, hengine, nofun, fun _ => ⟨rfl, hids⟩⟩, fun _ => howner, nofun⟩
  · refine Tidy.tell ?_ _
    exact ⟨⟨hmanager, hengine, nofun, nofun⟩, fun _ => howner, nofun⟩
  refine ⟨⟨hmanager, hengine, nofun, fun hp => ?_⟩, fun _ => howner, nofun⟩
  rw [hpending] at hp
  cases hp

end

variable {s s' : PairController}

/-- An update that is about to be published. -/
theorem Tidy.of_publishing (state : State) (blocked : Blocked)
    (hmailbox : s.mailbox.command ≠ .enable) (hpending : s.creation_pending = false)
    (howner : s.has_owned_ids = false → s.owner = {}) :
    Tidy { s with phase := .publishing state blocked } :=
  ⟨⟨hmailbox, hpending⟩, fun _ => howner, fun hc => absurd hc hmailbox⟩

/-- A cleanup that is about to go on. -/
theorem Tidy.of_erasing (left : List View) (after : Cleanup)
    (hmailbox : s.mailbox.command ≠ .enable) (hpending : s.creation_pending = false) :
    Tidy { s with phase := .erasing left after } :=
  ⟨⟨hmailbox, hpending⟩, nofun, fun hc => absurd hc hmailbox⟩

section
variable {s : PairController} (h : s.Tidy)
include h

variable {left : List View} {manager : ManagerToken}

theorem Tidy.decide_update {engine : EngineCallbacks}
    (hphase : s.phase = .deciding manager engine) : (s.decide_update manager engine).Tidy := by
  have hstaged := h.staged
  have howner := h.owner (by rw [hphase]; rfl)
  rw [hphase] at hstaged
  obtain ⟨hmanager, rfl, hmailbox, hpending⟩ := hstaged
  have hnone : s.has_owned_ids = true → s.creation_pending = false := by
    intro hids
    by_contra hp
    rw [(hpending (by simpa using hp)).2] at hids
    cases hids
  unfold PairController.decide_update
  rw [hmanager]
  split
  · rename_i hrest
    simp only [Bool.and_eq_true, Bool.not_eq_eq_eq_not, Bool.not_true] at hrest
    exact Tidy.of_publishing _ _ hmailbox hrest.2 howner
  simp only [Bool.not_true, Bool.false_eq_true, if_false, Bool.or_self]
  split
  · rename_i hother
    exact Tidy.of_publishing _ _ hmailbox (hnone (by simp_all)) howner
  split
  · rename_i hids
    split
    · exact Tidy.of_publishing _ _ hmailbox (hnone hids) howner
    · exact @Tidy.of_erasing { s with active_pair := false } _ _ hmailbox (hnone hids)
  rename_i hids
  have hids : s.has_owned_ids = false := by simpa using hids
  exact ⟨⟨hmailbox, hids, fun hp => (hpending hp).1⟩, fun _ => howner, fun _ => hids⟩

theorem Tidy.end_cleanup {after : Cleanup} (hphase : s.phase = .erasing left after) : (s.end_cleanup after).Tidy := by
  have hstaged := h.staged
  rw [hphase] at hstaged
  obtain ⟨hmailbox, hpending⟩ := hstaged
  unfold PairController.end_cleanup
  cases hids : s.has_owned_ids with
  | true =>
    have howner : s.has_owned_ids = false → s.owner = {} := by
      intro hnone
      rw [hids] at hnone
      cases hnone
    cases after <;> exact Tidy.of_publishing _ _ hmailbox hpending howner
  | false =>
    have hpending' : s.creation_pending = true → s.desired_enabled = true := by
      rw [hpending]
      exact nofun
    cases after with
    | of_failed_creation =>
      exact @Tidy.of_publishing { s with owner := {}, owned_feeds := 0 } _ _ hmailbox hpending fun _ => rfl
    | before_creation manager => exact ⟨⟨hmailbox, hids, hpending'⟩, fun _ _ => rfl, fun _ => hids⟩

theorem Tidy.cleanup {after : Cleanup} (hphase : s.phase = .erasing left after)
    (answer : Answer) : (s.cleanup left after answer).Tidy := by
  have hstaged := h.staged
  rw [hphase] at hstaged
  obtain ⟨hmailbox, hpending⟩ := hstaged
  cases left with
  | nil => exact h.end_cleanup hphase
  | cons index rest =>
    have hgo : Tidy { s with phase := .erasing rest after } := Tidy.of_erasing _ _ hmailbox hpending
    unfold PairController.cleanup
    dsimp only
    split
    · exact hgo
    split
    · have herased := @Tidy.of_erasing { s with ids := Function.update s.ids index 0 } rest after hmailbox hpending
      exact herased.tell _
    · exact hgo.tell _

theorem Tidy.start (hphase : s.phase = .starting manager) : (s.start manager).Tidy := by
  have hstaged := h.staged
  have howner := h.owner (by rw [hphase]; rfl)
  rw [hphase] at hstaged
  obtain ⟨hmailbox, hids, hpending⟩ := hstaged
  unfold PairController.start
  split
  · rename_i hrest
    refine Tidy.of_publishing _ _ hmailbox ?_ howner
    by_contra hp
    rw [hpending (by simpa using hp)] at hrest
    simp_all
  have hattempt : Tidy { s with
      creation_pending := false
      ids := fun _ => 0
      owned_feeds := 0
      phase := .preparing manager 0 } :=
    ⟨⟨hmailbox, rfl⟩, fun _ _ => howner hids, fun _ => rfl⟩
  exact hattempt.tell _

end

section
variable {s : PairController} (hmailbox : s.mailbox.command ≠ .enable)
  (hpending : s.creation_pending = false) (howner : s.has_owned_ids = false → s.owner = {})
include hmailbox hpending howner

theorem Tidy.of_creation_failed (failure : Failure) : (s.creation_failed failure).Tidy := by
  unfold creation_failed
  split
  · exact @Tidy.of_erasing { s with failure, active_pair := false } _ _ hmailbox hpending
  · exact @Tidy.of_publishing { s with failure } _ _ hmailbox hpending howner

theorem Tidy.of_prepare (manager : ManagerToken) (index : View) (answer : Answer) :
    (s.prepare manager index answer).Tidy := by
  unfold prepare
  split
  · exact Tidy.of_creation_failed hmailbox hpending howner _
  dsimp only
  split
  · exact Tidy.of_creation_failed hmailbox hpending howner _
  · exact ⟨⟨hmailbox, hpending⟩, fun _ => howner, fun hc => absurd hc hmailbox⟩

theorem Tidy.of_advance (manager : ManagerToken) (index : View) : (s.advance manager index).Tidy := by
  unfold advance
  split
  · exact ⟨⟨hmailbox, hpending⟩, fun _ => howner, fun hc => absurd hc hmailbox⟩
  · exact ⟨⟨hmailbox, hpending⟩, fun _ => howner, fun hc => absurd hc hmailbox⟩

theorem Tidy.of_create (manager : ManagerToken) (index : View) (answer : Answer) :
    (s.create manager index answer).Tidy := by
  unfold create
  dsimp only
  split
  · exact @Tidy.of_creation_failed (s.tell _) hmailbox hpending howner _
  rename_i hid
  split
  · exact @Tidy.of_creation_failed (s.tell _) hmailbox hpending howner _
  have hids : any_owned (Function.update s.ids index answer.create) = true :=
    any_owned_iff.mpr ⟨index, by rwa [Function.update_self]⟩
  refine @Tidy.of_advance { s.tell _ with
    owner := if index = 0 then manager else s.owner
    ids := Function.update s.ids index answer.create } hmailbox hpending ?_ manager index
  intro hnone
  exact absurd (hids.symm.trans hnone) nofun

end

/-- A step of the call that is under way. -/
theorem Tidy.resume (h : s.Tidy) (answer : Answer) : (s.resume answer).Tidy := by
  have hstaged := h.staged
  have howner := h.owner
  unfold PairController.resume
  split <;> rename_i hphase <;> rw [hphase] at hstaged howner
  · exact h
  · exact hstaged.elim
  · exact hstaged.elim
  · exact hstaged.elim
  · exact h.take hphase
  · exact h.decide_update hphase
  · exact h.cleanup hphase answer
  · exact h.start hphase
  · exact Tidy.of_prepare hstaged.1 hstaged.2 (howner rfl) _ _ _
  · exact Tidy.of_create hstaged.1 hstaged.2 (howner rfl) _ _ _
  · exact ⟨⟨hstaged.1, hstaged.2, rfl⟩, fun _ => howner rfl, fun hc => absurd hc hstaged.1⟩
  · exact ⟨⟨hstaged.2.1, hstaged.2.2⟩, fun _ => howner rfl, fun hc => absurd hc hstaged.1⟩

theorem creation_failed_steps (failure : Failure) :
    (s.creation_failed failure).processing = true ∧ (s.creation_failed failure).mailbox = s.mailbox := by
  unfold creation_failed begin_cleanup
  split <;> exact ⟨rfl, rfl⟩

/-- A call is over by its last step alone, and none of its steps posts a request. -/
theorem resume_steps (answer : Answer) (htidy : s.Tidy) :
    (s.processing = true → s.phase ≠ .leaving → (s.resume answer).processing = true) ∧
      ((s.resume answer).mailbox.command = .enable → s.mailbox.command = .enable) := by
  have hstaged := htidy.staged
  have hfailed : ∀ (t : PairController) (failure : Failure), t.mailbox = s.mailbox →
      (s.processing = true → s.phase ≠ .leaving → (t.creation_failed failure).processing = true) ∧
        ((t.creation_failed failure).mailbox.command = .enable → s.mailbox.command = .enable) := by
    intro t failure ht
    obtain ⟨hprocessing, hmailbox⟩ := @creation_failed_steps t failure
    rw [hmailbox, ht]
    exact ⟨fun _ _ => hprocessing, id⟩
  unfold PairController.resume
  split <;> rename_i hphase <;> rw [hphase] at hstaged
  · exact ⟨fun h _ => h, id⟩
  · exact hstaged.elim
  · exact hstaged.elim
  · exact hstaged.elim
  · unfold PairController.take apply
    split <;> exact ⟨fun _ _ => rfl, nofun⟩
  · unfold PairController.decide_update rest begin_cleanup
    repeat' split
    all_goals exact ⟨fun _ _ => rfl, id⟩
  · rename_i left after
    cases left with
    | nil =>
      unfold PairController.cleanup PairController.end_cleanup
      cases after <;> cases s.has_owned_ids <;> exact ⟨fun _ _ => rfl, id⟩
    | cons index rest =>
      unfold PairController.cleanup
      dsimp only
      repeat' split
      all_goals exact ⟨fun _ _ => rfl, id⟩
  · unfold PairController.start rest
    split <;> exact ⟨fun _ _ => rfl, id⟩
  · unfold prepare
    split
    · exact hfailed _ _ rfl
    dsimp only
    split
    · exact hfailed _ _ rfl
    · exact ⟨fun _ _ => rfl, id⟩
  · unfold create advance
    dsimp only
    repeat' split
    all_goals first | exact hfailed _ _ rfl | exact ⟨fun _ _ => rfl, id⟩
  · exact ⟨fun _ _ => rfl, id⟩
  · exact ⟨fun _ h => absurd hphase h, id⟩

/-- Only its last step leaves the controller idle, and then nothing is asked for. -/
theorem idle_resume_asks (answer : Answer) (h : s.processing = true) (htidy : s.Tidy)
    (hidle : (s.resume answer).phase = .idle) : (s.resume answer).mailbox.command ≠ .enable := by
  intro hc
  have hleaving : s.phase = .leaving := by
    by_contra hnot
    have hstill := (resume_steps answer htidy).1 h hnot
    unfold PairController.processing at hstill
    rw [hidle] at hstill
    cases hstill
  have hstaged := htidy.staged
  rw [hleaving] at hstaged
  exact hstaged.1 ((resume_steps answer htidy).2 hc)

/-! ## What comes in from the side -/

/-- A change that leaves the call under way and the owned entries, and that asks for nothing. -/
structure Beside (s s' : PairController) : Prop where
  phase : s'.phase = s.phase
  ids : s'.ids = s.ids
  tidy : s.Tidy → s'.Tidy
  asks : s'.mailbox.command = .enable → s.mailbox.command = .enable
  pends : s'.creation_pending = true → s.creation_pending = true

theorem Beside.refl (s : PairController) : Beside s s := ⟨rfl, rfl, id, id, id⟩

theorem Beside.trans {s'' : PairController} (h : Beside s s') (h' : Beside s' s'') : Beside s s'' where
  phase := h'.phase.trans h.phase
  ids := h'.ids.trans h.ids
  tidy ht := h'.tidy (h.tidy ht)
  asks hc := h.asks (h'.asks hc)
  pends hc := h.pends (h'.pends hc)

theorem Beside.of_tell (s : PairController) (e : Event) : Beside s (s.tell e) :=
  ⟨rfl, rfl, fun ht => ht.tell e, id, id⟩

theorem Beside.of_disable (s : PairController) : Beside s s.request_disable :=
  ⟨rfl, rfl, fun ht => ht.request_disable, nofun, id⟩

theorem Beside.has_owned_ids (h : Beside s s') : s'.has_owned_ids = s.has_owned_ids := by
  unfold PairController.has_owned_ids
  rw [h.ids]

theorem processing_eq_false (h : s.phase = .idle) : s.processing = false := by
  unfold PairController.processing
  rw [h]

theorem idle_of_processing (h : s.processing = false) : s.phase = .idle := by
  unfold PairController.processing at h
  split at h
  · assumption
  · cases h

theorem Beside.processing (h : Beside s s') : s'.processing = s.processing := by
  unfold PairController.processing
  rw [h.phase]

/-- What the canceller answers `owned` to. -/
def kept (s : PairController) : Bool := s.has_owned_ids || s.owner != {}

theorem cancelled_eq (hidle : s.phase = .idle) : (s.cancel_uncreated_request.resume {}).resume {} =
      { cancel { s with phase := .cancelling } with phase := .idle } := by
  unfold PairController.cancel_uncreated_request
  rw [processing_eq_false hidle]
  show PairController.resume (cancel { s with phase := .cancelling }) {} = _
  unfold cancel
  split <;> rfl

theorem cancelled_of_kept (hidle : s.phase = .idle) (h : s.kept = true) :
    (s.cancel_uncreated_request.resume {}).resume {} = { s.tell (.cancel_answered .owned) with phase := .idle } := by
  have hcancel : cancel { s with phase := .cancelling } =
      PairController.tell { s with phase := .leaving } (.cancel_answered .owned) := by
    unfold cancel
    exact if_pos h
  rw [cancelled_eq hidle, hcancel]
  rfl

theorem cancelled_of_not_kept (hidle : s.phase = .idle) (h : s.kept = false) :
    (s.cancel_uncreated_request.resume {}).resume {} =
      { s.tell (.cancel_answered .cancelled) with
        mailbox := {}
        desired_enabled := false
        creation_pending := false
        active_pair := false
        failure := .none
        published := {}
        phase := .idle } := by
  have hnot : ¬s.kept = true := by simp [h]
  have hcancel : cancel { s with phase := .cancelling } =
      PairController.tell { s with
        mailbox := {}
        desired_enabled := false
        creation_pending := false
        active_pair := false
        failure := .none
        published := {}
        phase := .leaving } (.cancel_answered .cancelled) := by
    unfold cancel
    exact if_neg hnot
  rw [cancelled_eq hidle, hcancel]
  rfl

theorem not_kept (h : s.kept = false) : s.has_owned_ids = false ∧ s.owner = {} := by
  simpa [kept] using h

/-- A whole cancellation between two updates. -/
theorem Beside.of_cancelled (hidle : s.phase = .idle) :
    Beside s ((s.cancel_uncreated_request.resume {}).resume {}) := by
  cases hkept : s.kept with
  | true =>
    rw [cancelled_of_kept hidle hkept]
    refine ⟨hidle.symm, rfl, fun ht => ?_, id, id⟩
    have hstaged := ht.staged
    rw [hidle] at hstaged
    exact ⟨hstaged, fun _ => ht.owner (by rw [hidle]; rfl), ht.mailbox⟩
  | false =>
    obtain ⟨hids, howner⟩ := not_kept hkept
    rw [cancelled_of_not_kept hidle hkept]
    exact ⟨hidle.symm, rfl, fun _ => ⟨⟨rfl, hids.symm⟩, fun _ _ => howner, nofun⟩, nofun, nofun⟩

/-- After it nothing is asked for any more. -/
theorem cancelled_asks (h : s.Tidy) (hidle : s.phase = .idle) :
    ((s.cancel_uncreated_request.resume {}).resume {}).mailbox.command ≠ .enable := by
  cases hkept : s.kept with
  | true =>
    rw [cancelled_of_kept hidle hkept]
    intro hc
    have hids := h.mailbox hc
    unfold kept at hkept
    rw [hids, h.owner (by rw [hidle]; rfl) hids] at hkept
    exact absurd hkept (by decide)
  | false =>
    rw [cancelled_of_not_kept hidle hkept]
    exact nofun

theorem kept_eq_false (h : s.Tidy) (hidle : s.phase = .idle) (hids : s.has_owned_ids = false) : s.kept = false := by
  unfold kept
  rw [hids, h.owner (by rw [hidle]; rfl) hids]
  decide

/-- An update without callbacks that finds a disable request, between two updates. -/
theorem Beside.of_process_without_callbacks (hidle : s.phase = .idle)
    (hmailbox : s.mailbox.command = .disable) (manager : ManagerToken) :
    Beside s (native_camera.SceneRecovery.process_without_callbacks s manager) := by
  obtain ⟨state, blocked, hupdate⟩ := native_camera.SceneRecovery.process_without_callbacks_eq s manager hidle
  rw [hupdate]
  unfold PairController.take apply
  rw [hmailbox]
  refine ⟨hidle.symm, rfl, fun ht => ?_, nofun, nofun⟩
  exact ⟨⟨rfl, rfl⟩, fun _ => ht.owner (by rw [hidle]; rfl), nofun⟩

/-- The deferral of a failure that came of the pose. -/
theorem Beside.of_defer (hidle : s.phase = .idle) (manager : ManagerToken)
    (recovery : native_camera.SceneRecovery) (temporary_pose : Bool)
    (created inspected_revision current_revision now : Nat) :
    Beside s (native_camera.SceneRecovery.defer_initial_pose_failure s manager recovery temporary_pose
      created inspected_revision current_revision now).1 := by
  have hdisabled := Beside.of_disable s
  unfold native_camera.SceneRecovery.defer_initial_pose_failure
  dsimp only
  split
  · exact Beside.refl s
  split
  · exact hdisabled
  have hupdated := hdisabled.trans (Beside.of_process_without_callbacks (hdisabled.phase.trans hidle) rfl manager)
  split
  · exact hupdated
  · exact hupdated

end PairController

end taxi_camera.engine_camera

namespace taxi_camera.native_camera

open engine_camera histories runs PairController

namespace SceneRecovery

/-! ## Whether a recovery is asked for -/

section
variable (s : SceneRecovery)

@[simp] theorem failed_requested (reason : SceneStopReason) (now : Nat) :
    (s.failed reason now).requested = s.requested := by
  unfold SceneRecovery.failed
  split
  · rfl
  · split <;> rfl

@[simp] theorem resumed_requested : s.resumed_retained_resolution.requested = s.requested := by
  unfold SceneRecovery.resumed_retained_resolution
  split <;> rfl

@[simp] theorem capture_progress_requested (now : Nat) : (s.capture_progress now).requested = s.requested := by
  unfold SceneRecovery.capture_progress
  split
  · rfl
  dsimp only
  repeat' split
  all_goals rfl

theorem record_stop_requested (runtime : SceneRecovery.Runtime) (reason : SceneStopReason) (detail : String)
    (now : Nat) (expected : Option Nat) :
    (runtime.record_stop reason detail now expected).recovery.requested = runtime.recovery.requested := by
  unfold SceneRecovery.Runtime.record_stop
  repeat' split
  all_goals simp

theorem defer_requested (controller : PairController) (manager : ManagerToken) (temporary_pose : Bool)
    (created inspected_revision current_revision now : Nat) :
    (SceneRecovery.defer_initial_pose_failure controller manager s temporary_pose created
      inspected_revision current_revision now).2.1.requested = s.requested := by
  unfold SceneRecovery.defer_initial_pose_failure
  dsimp only
  repeat' split
  all_goals simp

end

end SceneRecovery

namespace Runtime

/-! ## Blocks under the mutex -/

/-- What a block leaves of the observer: the blocks of the other threads, and its own where they
are about requests. -/
structure Apart (s s' : Runtime) : Prop where
  pair : Beside s.pair s'.pair
  point : s'.point = s.point
  token : s'.token = s.token
  calling : s'.calling = s.calling
  renderer : s'.renderer = s.renderer
  creations : s'.creations = s.creations
  creation_revision : s'.creation_revision = s.creation_revision
  creation_wait : s'.creation_wait = s.creation_wait
  retired_views : s'.retired_views = s.retired_views
  owned_pool_views : s'.owned_pool_views = s.owned_pool_views
  owned_pool_renderer : s'.owned_pool_renderer = s.owned_pool_renderer

/-- A block that is about no request. -/
structure Keeps (s s' : Runtime) : Prop extends Apart s s' where
  start : s'.requested_start = s.requested_start
  revision : s'.requested_start_revision = s.requested_start_revision
  recovers : s'.recovery.requested = s.recovery.requested
  history : s'.history = s.history

/-- While a reset holds, work is forbidden and no enable request waits between two updates. -/
def ResetHeld (s : Runtime) : Prop :=
  s.session_reset.holding = true →
    s.reset_requested = true ∧ (s.pair.phase = .idle → s.pair.mailbox.command ≠ .enable)

/-- A block that ends every request. Between two updates it leaves none in the mailbox. -/
structure Ends (s s' : Runtime) (by_what : Ending) : Prop extends Apart s s' where
  start : s'.requested_start = false
  recovers : s'.recovery.requested = false
  revision : s'.requested_start_revision = s.requested_start_revision + 1
  history : s'.history = s.history ++ [.ended by_what]
  asks : s.pair.Tidy → s.ResetHeld → s.pair.phase = .idle → s'.pair.mailbox.command ≠ .enable

/-- A block that begins a request. -/
structure Starts (s s' : Runtime) (retained : Bool) : Prop extends Apart s s' where
  start : s'.requested_start = !retained
  revision : s'.requested_start_revision = s.requested_start_revision + 1
  history : s'.history = s.history ++ [.started (s.requested_start_revision + 1) retained]
  disables : retained = false → s'.pair.mailbox.command ≠ .enable
  asks : s.pair.Tidy → s.pair.phase = .idle → s'.pair.mailbox.command ≠ .enable

theorem Keeps.refl (s : Runtime) : Keeps s s where
  pair := Beside.refl _
  point := rfl
  token := rfl
  calling := rfl
  renderer := rfl
  creations := rfl
  creation_revision := rfl
  creation_wait := rfl
  retired_views := rfl
  owned_pool_views := rfl
  owned_pool_renderer := rfl
  start := rfl
  revision := rfl
  recovers := rfl
  history := rfl

section
variable {s s' s'' : Runtime}

theorem Apart.trans (h : Apart s s') (h' : Apart s' s'') : Apart s s'' where
  pair := h.pair.trans h'.pair
  point := h'.point.trans h.point
  token := h'.token.trans h.token
  calling := h'.calling.trans h.calling
  renderer := h'.renderer.trans h.renderer
  creations := h'.creations.trans h.creations
  creation_revision := h'.creation_revision.trans h.creation_revision
  creation_wait := h'.creation_wait.trans h.creation_wait
  retired_views := h'.retired_views.trans h.retired_views
  owned_pool_views := h'.owned_pool_views.trans h.owned_pool_views
  owned_pool_renderer := h'.owned_pool_renderer.trans h.owned_pool_renderer

theorem Keeps.trans (h : Keeps s s') (h' : Keeps s' s'') : Keeps s s'' where
  toApart := h.toApart.trans h'.toApart
  start := h'.start.trans h.start
  revision := h'.revision.trans h.revision
  recovers := h'.recovers.trans h.recovers
  history := h'.history.trans h.history

end

section
variable (s : Runtime)

/-- A change of the controller alone. -/
theorem Keeps.of_beside {pair : PairController} (h : Beside s.pair pair) : Keeps s { s with pair } :=
  { Keeps.refl s with pair := h }

theorem record_stop_keeps (reason : SceneStopReason) (detail : String) (now : Nat) (expected : Option Nat) :
    Keeps s (s.record_stop reason detail now expected) :=
  { Keeps.refl s with recovers := SceneRecovery.record_stop_requested _ reason detail now expected }

theorem resume_kept_keeps (allowed : Bool) (start_revision : Nat) :
    Keeps s (s.resume_kept allowed start_revision) := by
  unfold Runtime.resume_kept
  split
  · exact { Keeps.refl s with }
  · exact Keeps.refl s

theorem keep_resolution_keeps (sight : Sight) : Keeps s (s.keep_resolution sight) := by
  have hrestored : ∀ t : Runtime, Keeps s t → Keeps s { t with
      recovery := t.recovery.resumed_retained_resolution, stop_detail := "" } := fun t ht =>
    ht.trans { Keeps.refl t with recovers := SceneRecovery.resumed_requested _ }
  have hpaused := record_stop_keeps s .resolution_changed sight.detail sight.now none
  unfold Runtime.keep_resolution
  dsimp only
  cases sight.resolution_changed <;> cases sight.restored
  · exact Keeps.refl s
  · exact hrestored _ (Keeps.refl s)
  · exact hpaused
  · exact hrestored _ hpaused

theorem cancel_uncreated_request_keeps : Keeps s s.cancel_uncreated_request.1 := by
  unfold Runtime.cancel_uncreated_request
  cases hprocessing : s.pair.processing with
  | true =>
    have hbusy : s.pair.cancel_uncreated_request = s.pair.tell (.cancel_answered .busy) := by
      unfold PairController.cancel_uncreated_request
      rw [if_pos hprocessing]
    rw [if_pos rfl, hbusy]
    exact Keeps.of_beside s (Beside.of_tell _ _)
  | false =>
    rw [if_neg nofun]
    exact Keeps.of_beside s (Beside.of_cancelled (idle_of_processing hprocessing))

theorem cancel_uncreated_request_asks (ht : s.pair.Tidy) (hidle : s.pair.phase = .idle) :
    s.cancel_uncreated_request.1.pair.mailbox.command ≠ .enable := by
  unfold Runtime.cancel_uncreated_request
  rw [if_neg (by rw [processing_eq_false hidle]; exact nofun)]
  exact cancelled_asks ht hidle

variable {by_what : Ending} {s' : Runtime}

/-- A request ends where nothing else that matters here changes. -/
theorem Ends.of_end_request (h : Keeps s s') :
    Apart s (s'.end_request by_what) ∧ (s'.end_request by_what).requested_start = false ∧
      (s'.end_request by_what).recovery.requested = false ∧
      (s'.end_request by_what).requested_start_revision = s.requested_start_revision + 1 ∧
      (s'.end_request by_what).history = s.history ++ [.ended by_what] := by
  refine ⟨{ h.toApart with }, rfl, rfl, ?_, ?_⟩
  · show s'.requested_start_revision + 1 = _
    rw [h.revision]
  · show s'.history ++ _ = _
    rw [h.history]

/-- The end of a request, and then a cancellation. -/
theorem Ends.of_cancelled {s'' : Runtime} (h : Keeps s s')
    (hlast : Keeps (s'.end_request by_what).cancel_uncreated_request.1 s'') : Ends s s'' by_what := by
  obtain ⟨hapart, hstart, hrecovers, hrevision, hhistory⟩ := @Ends.of_end_request s by_what s' h
  have hkeeps := (cancel_uncreated_request_keeps (s'.end_request by_what)).trans hlast
  refine ⟨hapart.trans hkeeps.toApart, hkeeps.start.trans hstart, hkeeps.recovers.trans hrecovers,
    hkeeps.revision.trans hrevision, hkeeps.history.trans hhistory, fun ht _ hidle hc => ?_⟩
  exact cancel_uncreated_request_asks _ (hapart.pair.tidy ht) (hapart.pair.phase.trans hidle) (hlast.pair.asks hc)

theorem begin_session_reset_ends (profile : Nat) : Ends s (s.begin_session_reset profile) .session_reset := by
  refine @Ends.of_cancelled s _ { s with
    flight_change_hold := false
    reset_requested := true
    suspended := true
    requested_profile := profile
    profile_transition := s.profile_transition.consume
    session_reset := SceneSessionReset.begin profile } _ { Keeps.refl s with } ?_
  unfold Runtime.begin_session_reset
  dsimp only
  split
  · exact { Keeps.refl _ with }
  · exact { Keeps.refl _ with }

theorem begin_transition_ends (h : Keeps s s') (id : Nat) :
    Ends s ((s'.end_request by_what).begin_transition id) by_what := by
  refine @Ends.of_cancelled s _ s' _ h ?_
  exact { Keeps.refl _ with }

/-! ## The other threads -/

/-- Between two updates a published pair is owned, and no enable waits for it. -/
theorem not_asked_of_published {s : Runtime} (ht : s.pair.Tidy) (hidle : s.pair.phase = .idle)
    (h : any_owned s.pair.snapshot.owned_ids = true) : s.pair.mailbox.command ≠ .enable := by
  intro hc
  have hstaged := ht.staged
  rw [hidle] at hstaged
  have hids := ht.mailbox hc
  rw [← hstaged.2] at hids
  exact absurd (h.symm.trans hids) nofun

theorem any_owned_of_can_resume {transition : RetainedProfileTransition} {pair : Snapshot}
    (h : transition.can_resume pair = true) : any_owned pair.owned_ids = true := by
  simp only [RetainedProfileTransition.can_resume, RetainedProfileTransition.valid_pair, distinct_owned,
    Bool.and_eq_true, bne_iff_ne] at h
  exact any_owned_iff.mpr ⟨0, h.1.1.2.1.1.1.1.2.1.1⟩

theorem request_scene_test_cases :
    Keeps s s.request_scene_test ∨ ∃ retained, Starts s s.request_scene_test retained := by
  unfold Runtime.request_scene_test
  dsimp only
  split
  · exact .inl (Keeps.refl s)
  split
  · exact .inl { Keeps.refl s with }
  cases hretained : s.profile_transition.can_resume s.pair.snapshot with
  | true =>
    refine .inr ⟨true, { (Keeps.refl s).toApart with
      start := rfl, revision := rfl, history := rfl, disables := nofun, asks := ?_ }⟩
    exact fun ht hidle => not_asked_of_published ht hidle (any_owned_of_can_resume hretained)
  | false =>
    exact .inr ⟨false, { (Keeps.refl s).toApart with
      pair := Beside.of_disable _, start := rfl, revision := rfl, history := rfl
      disables := fun _ => nofun, asks := fun _ _ => nofun }⟩

theorem request_scene_stop_ends : Ends s s.request_scene_stop .stop := by
  obtain ⟨hapart, hstart, hrecovers, hrevision, hhistory⟩ := @Ends.of_end_request s .stop
    { s with stop_detail := "Explicit camera OFF/Stop requested." } { Keeps.refl s with }
  unfold Runtime.request_scene_stop
  dsimp only
  split
  · exact { hapart with
      pair := hapart.pair.trans (Beside.of_disable _)
      start := hstart, recovers := hrecovers, revision := hrevision, history := hhistory
      asks := fun _ _ _ => nofun }
  rename_i hholds
  refine { hapart with
    start := hstart, recovers := hrecovers, revision := hrevision, history := hhistory, asks := ?_ }
  intro ht hreset hidle
  cases hholding : s.session_reset.holding with
  | true => exact (hreset hholding).2 hidle
  | false =>
    refine @not_asked_of_published s ht hidle ?_
    by_contra hnone
    have hnone : any_owned s.pair.snapshot.owned_ids = false := by simpa using hnone
    apply hholds
    rw [hholding, hnone, Bool.not_false, Bool.or_true, Bool.and_true]

end

/-! ## Blocks keep the hold of a reset -/

section
variable {s s' : Runtime}

theorem ResetHeld.same (h : s.ResetHeld) (hpair : Beside s.pair s'.pair)
    (hsession : s'.session_reset.holding = s.session_reset.holding)
    (hrequested : s'.reset_requested = s.reset_requested) : s'.ResetHeld := by
  intro hholding
  obtain ⟨hreset, hasks⟩ := h (hsession.symm.trans hholding)
  exact ⟨hrequested.trans hreset, fun hidle hc => hasks (hpair.phase.symm.trans hidle) (hpair.asks hc)⟩

/-- One block under the mutex: of another thread, or of the observer where it is about requests. -/
structure Block (s s' : Runtime) : Prop where
  kind : Keeps s s' ∨ (∃ by_what, Ends s s' by_what) ∨ ∃ retained, Starts s s' retained
  reset : s.pair.Tidy → s.ResetHeld → s'.ResetHeld

/-- What the observer does by itself to the requests in a block. -/
def Changes (s s' : Runtime) : Prop :=
  Keeps s s' ∨ Ends s s' .session_reset ∨ Ends s s' .flight_change

theorem Block.apart (h : Block s s') : Apart s s' := by
  rcases h.kind with hkeeps | ⟨_, hends⟩ | ⟨_, hstarts⟩
  · exact hkeeps.toApart
  · exact hends.toApart
  · exact hstarts.toApart

theorem Block.of_keeps (h : Keeps s s') (hsession : s'.session_reset.holding = s.session_reset.holding)
    (hrequested : s'.reset_requested = s.reset_requested) : Block s s' :=
  ⟨.inl h, fun _ hreset => hreset.same h.pair hsession hrequested⟩

variable (s)

theorem cancel_uncreated_request_block : Block s s.cancel_uncreated_request.1 := by
  refine Block.of_keeps (cancel_uncreated_request_keeps s) ?_ ?_ <;>
    (unfold Runtime.cancel_uncreated_request; split <;> rfl)

theorem begin_session_reset_block (profile : Nat) : Block s (s.begin_session_reset profile) := by
  have hends := begin_session_reset_ends s profile
  have hrequested : (s.begin_session_reset profile).reset_requested = true := by
    unfold Runtime.begin_session_reset
    dsimp only
    split <;> (dsimp only; unfold Runtime.cancel_uncreated_request; split <;> rfl)
  refine ⟨.inr (.inl ⟨_, hends⟩), fun ht hreset _ => ⟨hrequested, fun hidle => ?_⟩⟩
  exact hends.asks ht hreset (hends.pair.phase.symm.trans hidle)

/-- The end of a request by a transition, after a change that matters to none. -/
theorem begin_transition_block (by_what : Ending) (id : Nat) (h : Keeps s s')
    (hsession : s'.session_reset.holding = s.session_reset.holding)
    (hrequested : s'.reset_requested = s.reset_requested) :
    Block s ((s'.end_request by_what).begin_transition id) := by
  have hends := @begin_transition_ends s by_what s' h id
  refine ⟨.inr (.inl ⟨_, hends⟩), fun _ hreset => hreset.same hends.pair ?_ ?_⟩
  · rw [← hsession]
    unfold Runtime.begin_transition Runtime.cancel_uncreated_request
    dsimp only
    split <;> rfl
  · rw [← hrequested]
    unfold Runtime.begin_transition Runtime.cancel_uncreated_request
    dsimp only
    split <;> rfl

theorem begin_flight_change_changes : Changes s s.begin_flight_change := by
  unfold Runtime.begin_flight_change
  dsimp only
  split
  · exact .inl { Keeps.refl s with }
  split
  · exact .inr (.inl (begin_session_reset_ends s _))
  have hends := @begin_transition_ends s .flight_change { s with suspended := true }
    { Keeps.refl s with } s.requested_profile
  exact .inr (.inr { hends with })

theorem begin_flight_change_block : Block s s.begin_flight_change := by
  refine ⟨?_, ?_⟩
  · rcases begin_flight_change_changes s with hkeeps | hends | hends
    · exact .inl hkeeps
    · exact .inr (.inl ⟨_, hends⟩)
    · exact .inr (.inl ⟨_, hends⟩)
  · unfold Runtime.begin_flight_change
    dsimp only
    split
    · exact fun _ hreset => hreset
    split
    · exact (begin_session_reset_block s _).reset
    exact (@begin_transition_block s { s with suspended := true } .flight_change
      s.requested_profile { Keeps.refl s with } rfl rfl).reset

theorem request_scene_test_block : Block s s.request_scene_test := by
  refine ⟨?_, fun _ hreset => ?_⟩
  · rcases request_scene_test_cases s with hkeeps | hstarts
    · exact .inl hkeeps
    · exact .inr (.inr hstarts)
  · -- a start that is accepted has consumed the reset
    have hconsumed : (if s.session_reset.holding = true then ({} : SceneSessionReset)
        else s.session_reset).holding = false := by
      split
      · rfl
      rename_i hnot
      exact Bool.eq_false_of_not_eq_true hnot
    unfold Runtime.request_scene_test
    dsimp only
    split
    · exact hreset
    split
    · intro hholding
      exact absurd (hconsumed.symm.trans hholding) nofun
    intro hholding
    split at hholding
    · exact absurd (hconsumed.symm.trans hholding) nofun
    · exact absurd (hconsumed.symm.trans hholding) nofun

theorem request_scene_stop_block : Block s s.request_scene_stop := by
  have hends := request_scene_stop_ends s
  refine ⟨.inr (.inl ⟨_, hends⟩), fun _ hreset => hreset.same hends.pair ?_ ?_⟩
  · unfold Runtime.request_scene_stop
    dsimp only
    split <;> rfl
  · unfold Runtime.request_scene_stop
    dsimp only
    split <;> rfl

theorem request_scene_profile_transition_block (id : Nat) : Block s (s.request_scene_profile_transition id) := by
  unfold Runtime.request_scene_profile_transition
  split
  · exact Block.of_keeps (Keeps.refl s) rfl rfl
  split
  · exact begin_session_reset_block s id
  exact @begin_transition_block s { s with suspended := true, requested_profile := id } _ id
    { Keeps.refl s with } rfl rfl

theorem request_scene_session_reset_block (id : Nat) : Block s (s.request_scene_session_reset id) := by
  unfold Runtime.request_scene_session_reset
  split
  · exact Block.of_keeps (Keeps.refl s) rfl rfl
  · exact begin_session_reset_block s id

theorem request_scene_profile_block (id : Nat) : Block s (s.request_scene_profile id) := by
  unfold Runtime.request_scene_profile
  dsimp only
  split
  · exact Block.of_keeps (Keeps.refl s) rfl rfl
  · exact Block.of_keeps { Keeps.refl s with } rfl rfl

/-- The step is one of the observer. -/
def Op.observes : Op → Bool
  | .observe _ => true
  | _ => false

/-- A step of another thread is one block. -/
theorem step_block {op : Op} (h : op.observes = false) : Block s (s.step op) := by
  cases op with
  | request_scene_test => exact request_scene_test_block s
  | request_scene_stop => exact request_scene_stop_block s
  | request_scene_profile_transition id => exact request_scene_profile_transition_block s id
  | request_scene_session_reset id => exact request_scene_session_reset_block s id
  | request_scene_profile id => exact request_scene_profile_block s id
  | suspend_scene_rendering suspended => exact Block.of_keeps { Keeps.refl s with } rfl rfl
  | note_scene_capture_progress now =>
    have hkeeps : Keeps s { s with recovery := s.recovery.capture_progress now } :=
      { Keeps.refl s with recovers := SceneRecovery.capture_progress_requested _ _ }
    exact Block.of_keeps hkeeps rfl rfl
  | hook => exact Block.of_keeps { Keeps.refl s with } rfl rfl
  | aircraft readiness => exact Block.of_keeps { Keeps.refl s with } rfl rfl
  | observe sight => cases h

end

/-! ## The observer and its controller -/

end Runtime

namespace Point

/-- An update of the controller may be under way. -/
def passes : Point → Bool
  | .processing _ _ => true
  | _ => false

/-- The manager passed its inspection in this update. -/
def inspected : Point → Bool
  | .retiring _ | .entering _ | .processing _ _ | .waiting _ | .retrying _ | .checking _ | .committing _
  | .creating _ | .failing _ | .deferring _ _ | .stopping _ | .settled _ | .losing _ _ | .removing _ => true
  | _ => false

/-- The points that go by the pair that was published last. -/
def after : Point → Option Update
  | .waiting u | .retrying u | .checking u | .committing u | .failing u | .deferring u _ | .stopping u
  | .settled u | .losing u _ | .clearing u => some u
  | _ => none

/-- The update that is under way at a point. -/
def update : Point → Option Update
  | .away => none
  | .begun u | .sampled u | .resetting u | .retiring u | .draining u | .drained u _ _ | .transitioning u
  | .transitioned u _ _ _ _ | .refused u _ | .consuming u _ | .entering u | .processing u _ | .waiting u
  | .retrying u | .checking u | .committing u | .creating u | .failing u | .deferring u _ | .stopping u
  | .settled u | .losing u _ | .removing u | .clearing u | .publishing u => some u

/-- The revision that an update goes by. -/
def revision (point : Point) : Nat :=
  match point.update with
  | none => 0
  | some u => u.start_revision

theorem revision_eq {point : Point} {u : Update} (h : point.update = some u) : point.revision = u.start_revision := by
  unfold revision
  rw [h]

/-- A retry is still to be decided on. -/
def retries : Point → Option Update
  | .waiting u | .retrying u => some u
  | _ => none

/-- A creation is about to be asked for or begun. -/
def vacant : Point → Bool
  | .committing _ | .creating _ => true
  | _ => false

end Point

namespace Runtime

/-- What a point says of the controller and of the manager. -/
structure Placed (pair : PairController) (token : ManagerToken) (point : Point) : Prop where
  token : point.inspected = true → token.valid = true
  after : ∀ u, point.after = some u → any_owned u.pair.owned_ids = pair.has_owned_ids
  vacant : point.vacant = true → pair.has_owned_ids = false

/-- Only the observer is ever in the controller, and what it goes by is true. -/
structure Ordered (s : Runtime) : Prop where
  tidy : s.pair.Tidy
  held : s.pair.processing = true → s.point.passes = true
  calling : s.calling.isSome = true → ∃ manager index descriptor, s.pair.phase = .creating manager index descriptor
  reset : s.ResetHeld
  placed : Placed s.pair s.token s.point

/-- No update of the controller is under way. -/
structure Resting (s : Runtime) : Prop where
  tidy : s.pair.Tidy
  idle : s.pair.phase = .idle
  calling : s.calling = none
  reset : s.ResetHeld

section
variable {s s' : Runtime}
variable {token : ManagerToken} {pair : PairController} {point : Point}

theorem Placed.plain (htoken : token.valid = true) (hafter : point.after = none) (hvacant : point.vacant = false) :
    Placed pair token point where
  token _ := htoken
  after u h := by rw [hafter] at h; cases h
  vacant h := by rw [hvacant] at h; cases h

theorem Placed.free (htoken : point.inspected = false) (hafter : point.after = none) (hvacant : point.vacant = false) :
    Placed pair token point where
  token h := by rw [htoken] at h; cases h
  after u h := by rw [hafter] at h; cases h
  vacant h := by rw [hvacant] at h; cases h

theorem Ordered.initial : Ordered {} where
  tidy := Tidy.initial
  held h := Bool.noConfusion (h : false = true)
  calling h := Bool.noConfusion (h : false = true)
  reset h := Bool.noConfusion (h : false = true)
  placed := Placed.free rfl rfl rfl

theorem Ordered.resting (h : s.Ordered) (hpoint : s.point.passes = false) : s.Resting := by
  have hidle : s.pair.phase = .idle := by
    apply idle_of_processing
    by_contra hprocessing
    rw [h.held (by simpa using hprocessing)] at hpoint
    cases hpoint
  refine ⟨h.tidy, hidle, ?_, h.reset⟩
  by_contra hcalling
  obtain ⟨manager, index, descriptor, hphase⟩ := h.calling (Option.isSome_iff_ne_none.mpr hcalling)
  rw [hidle] at hphase
  cases hphase

theorem Resting.go_to (h : s.Resting) (hplaced : Placed s.pair s.token point) : (s.go_to point).Ordered where
  tidy := h.tidy
  held hprocessing := by
    rw [show (s.go_to point).pair = s.pair from rfl, processing_eq_false h.idle] at hprocessing
    cases hprocessing
  calling hcalling := by
    rw [show (s.go_to point).calling = s.calling from rfl, h.calling] at hcalling
    cases hcalling
  reset := h.reset
  placed := hplaced

theorem Placed.beside {pair' : PairController}
    (h : Placed pair token point) (hb : Beside pair pair') : Placed pair' token point where
  token := h.token
  after u hu := (h.after u hu).trans hb.has_owned_ids.symm
  vacant hv := hb.has_owned_ids.trans (h.vacant hv)

theorem Resting.block (h : s.Resting) (hb : Block s s') : s'.Resting where
  tidy := hb.apart.pair.tidy h.tidy
  idle := hb.apart.pair.phase.trans h.idle
  calling := hb.apart.calling.trans h.calling
  reset := hb.reset h.tidy h.reset

theorem Ordered.block (h : s.Ordered) (hb : Block s s') : s'.Ordered where
  tidy := hb.apart.pair.tidy h.tidy
  held hprocessing := by
    rw [hb.apart.pair.processing] at hprocessing
    rw [hb.apart.point]
    exact h.held hprocessing
  calling hcalling := by
    rw [hb.apart.calling] at hcalling
    rw [hb.apart.pair.phase]
    exact h.calling hcalling
  reset := hb.reset h.tidy h.reset
  placed := by
    rw [hb.apart.token, hb.apart.point]
    exact h.placed.beside hb.apart.pair

/-- An update of the controller begins where none is under way, or is over at once. -/
theorem Resting.process_update (h : s.Resting) (u : Update) (pass : Pass) (sight : Sight)
    (htoken : s.token.valid = true) : (s.process_update u pass sight).Ordered := by
  have hplaced : ∀ pair : PairController, Placed pair s.token (.processing u pass) :=
    fun _ => Placed.plain htoken rfl rfl
  unfold Runtime.process_update
  split
  · exact h.go_to (hplaced _)
  refine ⟨h.tidy.process_update _ htoken h.idle, fun _ => rfl, fun hcalling => ?_, ?_, hplaced _⟩
  · rw [h.calling] at hcalling
    cases hcalling
  · intro hholding
    obtain ⟨hreset, -⟩ := h.reset hholding
    refine ⟨hreset, fun hidle => ?_⟩
    exfalso
    unfold PairController.process_update at hidle
    rw [processing_eq_false h.idle] at hidle
    cases hidle

end

/-! ## The callbacks -/

end Runtime

/-- What is told of the pool and of the engine's calls. -/
def Event.inner : Event → Bool
  | .attempted | .snapshot _ _ | .cleared _ _ | .created _ _ _ | .recorded _ _ | .handed _ _ => true
  | _ => false

def Event.creates : Event → Bool
  | .created _ _ _ => true
  | _ => false

namespace Runtime

/-- What the work on the pool and the calls of the engine leave. Only a creation calls the native
create, and one that waits does so at the revision of its request. -/
structure Inside (creates : Bool) (s s' : Runtime) : Prop where
  pair : s'.pair = s.pair
  point : s'.point = s.point
  token : s.token.valid = true → s'.token.valid = true
  session_reset : s'.session_reset = s.session_reset
  reset_requested : s'.reset_requested = s.reset_requested
  start : s'.requested_start = s.requested_start
  revision : s'.requested_start_revision = s.requested_start_revision
  recovery : s'.recovery = s.recovery
  creation_revision : s'.creation_revision = s.creation_revision
  wait : s'.creation_wait = s.creation_wait ∨
    creates = true ∧ s'.creation_wait = ViewCreationWait.defer s.creation_revision
  told : ∃ es, s'.history = s.history ++ es ∧
    ∀ e ∈ es, e.inner = true ∧ (e.creates = true → creates = true)

theorem Inside.refl (creates : Bool) (s : Runtime) : Inside creates s s where
  pair := rfl
  point := rfl
  token := id
  session_reset := rfl
  reset_requested := rfl
  start := rfl
  revision := rfl
  recovery := rfl
  creation_revision := rfl
  wait := .inl rfl
  told := ⟨[], (List.append_nil _).symm, nofun⟩

section
variable {creates : Bool} {s s' s'' : Runtime}

theorem Inside.trans (h : Inside creates s s') (h' : Inside creates s' s'') : Inside creates s s'' where
  pair := h'.pair.trans h.pair
  point := h'.point.trans h.point
  token ht := h'.token (h.token ht)
  session_reset := h'.session_reset.trans h.session_reset
  reset_requested := h'.reset_requested.trans h.reset_requested
  start := h'.start.trans h.start
  revision := h'.revision.trans h.revision
  recovery := h'.recovery.trans h.recovery
  creation_revision := h'.creation_revision.trans h.creation_revision
  wait := by
    rcases h'.wait with hsame | ⟨hcreates, hdefer⟩
    · rw [hsame]
      exact h.wait
    rw [hdefer, h.creation_revision]
    exact .inr ⟨hcreates, rfl⟩
  told := by
    obtain ⟨es, hes, hinner⟩ := h.told
    obtain ⟨es', hes', hinner'⟩ := h'.told
    refine ⟨es ++ es', by rw [hes', hes, List.append_assoc], ?_⟩
    intro e he
    rcases List.mem_append.mp he with he | he
    · exact hinner e he
    · exact hinner' e he

theorem Inside.of_tell (h : Inside creates s s') {e : Event} (he : e.inner = true)
    (hcreates : e.creates = true → creates = true) : Inside creates s (s'.tell e) := by
  refine h.trans { Inside.refl creates s' with told := ⟨[e], rfl, ?_⟩ }
  intro x hx
  rw [List.mem_singleton.mp hx]
  exact ⟨he, hcreates⟩

variable (creates) (s)

theorem manager_context_inside (identity : ManagerIdentity) : Inside creates s (s.manager_context identity) :=
  { Inside.refl creates s with token := fun _ => identity.valid }

theorem creation_pool_inside (pool : ViewPoolSnapshot) : Inside creates s (s.creation_pool pool) := by
  refine { Inside.refl creates s with told := ⟨_, rfl, ?_⟩ }
  intro e he
  rcases List.mem_cons.mp he with rfl | he
  · exact ⟨rfl, nofun⟩
  obtain ⟨view, -, rfl⟩ := List.mem_map.mp he
  exact ⟨rfl, nofun⟩

theorem creation_capacity_inside (required : Nat) (sight : Sight) :
    Inside creates s (s.creation_capacity required sight).1 := by
  have hfirst := creation_pool_inside creates s sight.pool
  have hsecond := hfirst.trans (creation_pool_inside creates (s.creation_pool sight.pool) sight.pool_again)
  unfold Runtime.creation_capacity
  dsimp only
  generalize (sight.pool.valid && !(s.creation_pool sight.pool).retirement_waiting && sight.cleared_aa) = again
  have hfull : ∀ t : Runtime, Inside creates s t → Inside creates s { t with retirement_waiting := true } :=
    fun t ht => ht.trans { Inside.refl creates t with }
  cases again
  · simp only [Bool.false_eq_true, if_false]
    split
    · exact hfirst
    · exact hfull _ hfirst
  · simp only [if_true]
    split
    · exact hsecond
    · exact hfull _ hsecond

theorem transfer_inside (index : View) : Inside creates s (s.transfer index) := by
  unfold Runtime.transfer
  dsimp only
  split
  · exact { Inside.refl _ s with }
  · exact Inside.refl _ s

theorem clear_retired_pair_inside : Inside creates s s.clear_retired_pair := by
  have hfold : ∀ (indices : List View) (t : Runtime), Inside creates t (indices.foldl transfer t) := by
    intro indices
    induction indices with
    | nil => exact Inside.refl creates
    | cons index rest ih =>
      intro t
      exact (transfer_inside creates t index).trans (ih _)
  exact hfold _ s

theorem defer_creation_inside : Inside true s s.defer_creation := { Inside.refl true s with wait := .inr ⟨rfl, rfl⟩ }

theorem initializer_inside (sight : Sight) : Inside true s (s.initializer sight).1 := by
  unfold Runtime.initializer
  split
  · exact { Inside.refl _ s with }
  dsimp only
  split
  · unfold Runtime.first_initialize
    dsimp only
    have hbegun : Inside true s { s with creation_pose_unavailable := false } := { Inside.refl _ s with }
    have hcapacity := hbegun.trans (creation_capacity_inside _ _ s.required_feeds sight)
    split
    · exact hcapacity.trans (defer_creation_inside _)
    · exact hcapacity.trans { Inside.refl _ _ with }
  · exact Inside.refl _ s

theorem guard_create_inside (manager : ManagerToken) (sight : Sight) :
    Inside true s (s.guard_create manager sight).1 := by
  unfold Runtime.guard_create
  split
  · exact { Inside.refl _ s with }
  split
  · exact Inside.refl _ s
  split
  · exact Inside.refl _ s
  rename_i identity _
  have hinspected := manager_context_inside true s identity
  dsimp only
  split
  · exact hinspected
  generalize (if s.creations = 0 then s.required_feeds else 1) = required
  have hcapacity := hinspected.trans (creation_capacity_inside _ _ required sight)
  split
  · exact hcapacity.trans (defer_creation_inside _)
  split
  · exact hcapacity.trans { Inside.refl _ _ with }
  · exact hcapacity.trans { Inside.refl _ _ with }

theorem record_view_inside (sight : Sight) : Inside true s (s.record_view sight) := by
  unfold Runtime.record_view
  split
  · exact { Inside.refl _ s with }
  rename_i view _
  have hset : Inside true s { s with
      owned_pool_renderer := s.renderer
      owned_pool_views := fun k => if k.val + 1 = s.creations then view else s.owned_pool_views k
      creation_valid := sight.validated } := { Inside.refl _ s with }
  exact hset.of_tell rfl (fun _ => rfl)

theorem native_create_inside (required : Nat) (sight : Sight) : Inside true s (s.native_create required sight) := by
  have hset : Inside true s { s with calling := none } := { Inside.refl _ s with }
  have hcalled : Inside true s ({ s with calling := none }.tell (.created s.renderer required sight.id)) :=
    hset.of_tell rfl (fun _ => rfl)
  unfold Runtime.native_create
  dsimp only
  split
  · exact hcalled
  have hcount : Inside true s { s with calling := none, creations := s.creations + 1 } := { Inside.refl _ s with }
  have htold : Inside true s ({ s with calling := none, creations := s.creations + 1 }.tell
    (.created s.renderer required sight.id)) := hcount.of_tell rfl (fun _ => rfl)
  exact htold.trans (record_view_inside _ sight)

theorem erase_inside (manager : ManagerToken) (sight : Sight) : Inside creates s (s.erase manager sight).1 := by
  unfold Runtime.erase
  split
  · exact Inside.refl _ s
  rename_i identity _
  have hinspected := manager_context_inside creates s identity
  dsimp only
  split
  · exact hinspected
  split
  · exact hinspected
  · exact hinspected
  split
  · exact hinspected
  have hset : Inside creates s { s.manager_context identity with
      retired_views := (s.retired_views.retain identity.renderer sight.address).1 } :=
    hinspected.trans { Inside.refl _ _ with }
  exact hset.of_tell rfl nofun

end

/-! ## A step of the observer -/

section
variable {s : Runtime}

theorem exists_of_passes {point : Point} (h : point.passes = true) : ∃ u pass, point = .processing u pass := by
  cases point with
  | processing u pass => exact ⟨u, pass, rfl⟩
  | _ => cases h

theorem creation_capacity_same (s : Runtime) (required : Nat) (sight : Sight) :
    ∃ retired_views retirement_waiting history, (s.creation_capacity required sight).1 =
      { s with retired_views, retirement_waiting, history } := by
  unfold Runtime.creation_capacity
  dsimp only
  cases sight.pool.valid && !(s.creation_pool sight.pool).retirement_waiting && sight.cleared_aa
  · simp only [Bool.false_eq_true, if_false]
    split <;> exact ⟨_, _, _, rfl⟩
  · simp only [if_true]
    split <;> exact ⟨_, _, _, rfl⟩

theorem creation_capacity_calling (required : Nat) (sight : Sight) :
    (s.creation_capacity required sight).1.calling = s.calling := by
  obtain ⟨_, _, _, h⟩ := creation_capacity_same s required sight
  rw [h]

theorem initializer_calling (sight : Sight) : (s.initializer sight).1.calling = s.calling := by
  unfold Runtime.initializer
  split
  · rfl
  dsimp only
  split
  · unfold Runtime.first_initialize
    dsimp only
    have hcapacity := @creation_capacity_calling { s with creation_pose_unavailable := false } s.required_feeds sight
    split
    · exact hcapacity
    · exact hcapacity
  · rfl

theorem guard_create_calling (manager : ManagerToken) (sight : Sight) (h : (s.guard_create manager sight).2 = false) :
    (s.guard_create manager sight).1.calling = s.calling := by
  revert h
  unfold Runtime.guard_create
  split
  · exact fun _ => rfl
  split
  · exact fun _ => rfl
  split
  · exact fun _ => rfl
  rename_i identity _
  dsimp only
  split
  · exact fun _ => rfl
  generalize (if s.creations = 0 then s.required_feeds else 1) = required
  have hcapacity := @creation_capacity_calling (s.manager_context identity) required sight
  split
  · exact fun _ => hcapacity
  split
  · exact fun _ => hcapacity
  · exact nofun

theorem native_create_calling (required : Nat) (sight : Sight) : (s.native_create required sight).calling = none := by
  unfold Runtime.native_create
  dsimp only
  split
  · rfl
  unfold Runtime.record_view
  split <;> rfl

theorem erase_calling (manager : ManagerToken) (sight : Sight) : (s.erase manager sight).1.calling = s.calling := by
  unfold Runtime.erase
  dsimp only
  repeat' split
  all_goals rfl

/-- The controller takes a step within its update. -/
theorem Ordered.go (h : s.Ordered) {creates : Bool} {t : Runtime} (ht : Inside creates s t)
    (hcalling : t.calling = none) (hprocessing : s.pair.processing = true) (answer : Answer) :
    Ordered { t with pair := t.pair.resume answer } := by
  have hpass := h.held hprocessing
  have htidy := h.tidy
  rw [← ht.pair] at htidy hprocessing
  refine ⟨htidy.resume answer, fun _ => ?_, fun hsome => ?_, ?_, ?_⟩
  · rw [show Runtime.point _ = t.point from rfl, ht.point]
    exact hpass
  · rw [hcalling] at hsome
    cases hsome
  · intro hholding
    obtain ⟨hreset, -⟩ := h.reset (by rw [← ht.session_reset]; exact hholding)
    exact ⟨ht.reset_requested.trans hreset, idle_resume_asks answer hprocessing htidy⟩
  · obtain ⟨u, pass, hpoint⟩ := exists_of_passes hpass
    rw [show Runtime.point _ = t.point from rfl, ht.point, hpoint]
    refine Placed.plain (ht.token (h.placed.token ?_)) rfl rfl
    rw [hpoint]
    rfl

/-- No creation is called where the controller is at another phase. -/
theorem Ordered.not_calling (h : s.Ordered)
    (hphase : ∀ manager index descriptor, s.pair.phase ≠ .creating manager index descriptor) :
    s.calling = none := by
  by_contra hcalling
  obtain ⟨manager, index, descriptor, hcreating⟩ := h.calling (Option.isSome_iff_ne_none.mpr hcalling)
  exact hphase _ _ _ hcreating

theorem Ordered.turn (h : s.Ordered) (hprocessing : s.pair.processing = true) (sight : Sight) :
    (s.turn sight).Ordered := by
  unfold Runtime.turn
  dsimp only
  split
  · rename_i hphase
    have hcalling := h.not_calling (by rw [hphase]; exact nofun)
    split
    · have htold : Inside false s (s.tell .attempted) := (Inside.refl false s).of_tell rfl nofun
      exact h.go htold hcalling hprocessing _
    · exact h.go (Inside.refl false s) hcalling hprocessing _
  · rename_i hphase
    have hcalling := h.not_calling (by rw [hphase]; exact nofun)
    exact h.go (initializer_inside s sight) (by rwa [initializer_calling]) hprocessing _
  · rename_i manager _ _ hphase
    split
    · rename_i required _
      exact h.go (native_create_inside s required sight) (native_create_calling _ _) hprocessing _
    rename_i hcalling
    have hinside := guard_create_inside s manager sight
    split
    · have hpass := h.held hprocessing
      obtain ⟨u, pass, hpoint⟩ := exists_of_passes hpass
      refine ⟨?_, fun _ => ?_, fun _ => ?_, ?_, ?_⟩
      · rw [hinside.pair]
        exact h.tidy
      · rw [hinside.point]
        exact hpass
      · rw [hinside.pair]
        exact ⟨_, _, _, hphase⟩
      · refine h.reset.same ?_ (by rw [hinside.session_reset]) hinside.reset_requested
        rw [hinside.pair]
        exact Beside.refl _
      · rw [hinside.point, hpoint]
        refine Placed.plain (hinside.token (h.placed.token ?_)) rfl rfl
        rw [hpoint]
        rfl
    rename_i hnot
    refine h.go hinside ?_ hprocessing _
    rw [guard_create_calling manager sight (by simpa using hnot), hcalling]
  · rename_i index rest after hphase
    have hcalling := h.not_calling (by rw [hphase]; exact nofun)
    split
    · exact h.go (Inside.refl false s) hcalling hprocessing _
    · exact h.go (erase_inside false s _ sight) (by rwa [erase_calling]) hprocessing _
  · rename_i _ _ hcreating _
    exact h.go (Inside.refl false s) (h.not_calling hcreating) hprocessing _

end

section
variable {s : Runtime}
variable {token : ManagerToken} {pair : PairController} {point : Point} {t : Runtime} {u : Update}

theorem Resting.inside (h : s.Resting) {creates : Bool} (ht : Inside creates s t)
    (hcalling : t.calling = s.calling) : t.Resting where
  tidy := by rw [ht.pair]; exact h.tidy
  idle := by rw [ht.pair]; exact h.idle
  calling := hcalling.trans h.calling
  reset := by
    refine h.reset.same ?_ (by rw [ht.session_reset]) ht.reset_requested
    rw [ht.pair]
    exact Beside.refl _

/-- What a published pair says is true between two updates. -/
theorem Resting.published (h : s.Resting) : any_owned s.pair.snapshot.owned_ids = s.pair.has_owned_ids := by
  have hstaged := h.tidy.staged
  rw [h.idle] at hstaged
  exact hstaged.2

theorem clear_retired_pair_calling : s.clear_retired_pair.calling = s.calling := by
  have hfold : ∀ (indices : List View) (t : Runtime), (indices.foldl transfer t).calling = t.calling := by
    intro indices
    induction indices with
    | nil => exact fun _ => rfl
    | cons index rest ih =>
      intro t
      refine (ih _).trans ?_
      unfold Runtime.transfer
      dsimp only
      split <;> rfl
  exact hfold _ s

theorem cancel_outside_keeps (s : Runtime) (sight : Sight) : Keeps s (s.cancel_outside sight).1 := by
  unfold Runtime.cancel_outside
  split
  · exact Keeps.of_beside s (Beside.of_tell _ _)
  · exact cancel_uncreated_request_keeps s

theorem cancel_outside_block (s : Runtime) (sight : Sight) : Block s (s.cancel_outside sight).1 := by
  unfold Runtime.cancel_outside
  split
  · exact Block.of_keeps (Keeps.of_beside s (Beside.of_tell _ _)) rfl rfl
  · exact cancel_uncreated_request_block s

/-- Blocks of the observer, one after the other. -/
inductive Blocks : Runtime → Runtime → Prop
  | refl (s : Runtime) : Blocks s s
  | block {s t v : Runtime} : Blocks s t → Block t v → Changes t v → Blocks s v

/-- The blocks with which an update begins. -/
def ready (s : Runtime) (u : Update) : Runtime :=
  ((s.adopt_profile u).forget_refusal.fall_back).follow_flight u

theorem ready_blocks (s : Runtime) (u : Update) : Blocks s (s.ready u) := by
  have hadopt : Blocks s (s.adopt_profile u) := by
    unfold Runtime.adopt_profile
    split
    · exact .refl s
    have hkeeps : Keeps s { s with aircraft_profile := s.requested_profile } := { Keeps.refl s with }
    exact (Blocks.refl s).block (Block.of_keeps hkeeps rfl rfl) (.inl hkeeps)
  have hforget : ∀ t, Blocks s t → Blocks s t.forget_refusal := by
    intro t ht
    unfold Runtime.forget_refusal
    split
    · have hkeeps : Keeps t { t with kept_resize_refused := false } := { Keeps.refl t with }
      exact ht.block (Block.of_keeps hkeeps rfl rfl) (.inl hkeeps)
    · exact ht
  have hfall : ∀ t, Blocks s t → Blocks s t.fall_back := by
    intro t ht
    unfold Runtime.fall_back
    split
    · have hkeeps : Keeps t { t with kept_resize_refused := false } := { Keeps.refl t with }
      exact (ht.block (Block.of_keeps hkeeps rfl rfl) (.inl hkeeps)).block
        (begin_session_reset_block _ _) (.inr (.inl (begin_session_reset_ends _ _)))
    · exact ht
  unfold Runtime.ready Runtime.follow_flight
  split
  · exact (hfall _ (hforget _ hadopt)).block (begin_flight_change_block _) (begin_flight_change_changes _)
  · exact hfall _ (hforget _ hadopt)

theorem Resting.blocks (h : s.Resting) (ht : Blocks s t) : t.Resting := by
  induction ht with
  | refl => exact h
  | block _ hblock _ ih => exact ih.block hblock

/-- Work on the pool between two updates of the controller. -/
inductive Work (s : Runtime) : Runtime → Prop
  | context (identity : ManagerIdentity) : Work s (s.manager_context identity)
  | pool (pool : ViewPoolSnapshot) : Work s (s.creation_pool pool)
  | capacity (required : Nat) (sight : Sight) : Work s (s.creation_capacity required sight).1
  | clear : Work s s.clear_retired_pair

theorem Work.inside (h : Work s t) : Inside false s t ∧ t.calling = s.calling := by
  cases h with
  | context identity => exact ⟨manager_context_inside false s identity, rfl⟩
  | pool pool => exact ⟨creation_pool_inside false s pool, rfl⟩
  | capacity required sight =>
    exact ⟨creation_capacity_inside false s required sight, creation_capacity_calling required sight⟩
  | clear => exact ⟨clear_retired_pair_inside false s, clear_retired_pair_calling⟩

theorem Blocks.apart (h : Blocks s t) : Apart s t := by
  induction h with
  | refl => exact (Keeps.refl _).toApart
  | block _ hblock _ ih => exact ih.trans hblock.apart

theorem Blocks.revision (h : Blocks s t) : s.requested_start_revision ≤ t.requested_start_revision := by
  induction h with
  | refl => exact Nat.le_refl _
  | block _ _ hchanges ih =>
    rcases hchanges with hkeeps | hends | hends
    · rw [hkeeps.revision]
      exact ih
    · rw [hends.revision]
      exact Nat.le_succ_of_le ih
    rw [hends.revision]
    exact Nat.le_succ_of_le ih

/-- What the observer does from one point of an update to the next. -/
inductive Path (s : Runtime) : Runtime → Prop
  | refl : Path s s
  | blocks {t v : Runtime} : Path s t → Blocks t v → Path s v
  | work {t v : Runtime} : Path s t → Work t v → Path s v

namespace Path

variable {v : Runtime}

theorem block (h : Path s t) (hb : Block t v) (hc : Changes t v) : Path s v := h.blocks ((Blocks.refl t).block hb hc)

theorem keeps (h : Path s t) (hk : Keeps t v) (hsession : v.session_reset.holding = t.session_reset.holding)
    (hrequested : v.reset_requested = t.reset_requested) : Path s v :=
  h.block (Block.of_keeps hk hsession hrequested) (.inl hk)

theorem look (h : Path s t) (manager : Option ManagerIdentity) : Path s (t.look manager) := by
  cases manager with
  | none => exact h
  | some identity => exact h.work (.context identity)

theorem cancelled (h : Path s t) : Path s t.cancel_uncreated_request.1 :=
  h.block (cancel_uncreated_request_block t) (.inl (cancel_uncreated_request_keeps t))

theorem cancelled_outside (h : Path s t) (sight : Sight) : Path s (t.cancel_outside sight).1 :=
  h.block (cancel_outside_block t sight) (.inl (cancel_outside_keeps t sight))

theorem resting (h : Path s t) (hs : s.Resting) : t.Resting := by
  induction h with
  | refl => exact hs
  | blocks _ hblocks ih => exact ih.blocks hblocks
  | work _ hwork ih => exact ih.inside hwork.inside.1 hwork.inside.2

theorem proven (h : Path s t) (hs : s.token.valid = true) : t.token.valid = true := by
  induction h with
  | refl => exact hs
  | blocks _ hblocks ih =>
    rw [hblocks.apart.token]
    exact ih
  | work _ hwork ih => exact hwork.inside.1.token ih

theorem ids (h : Path s t) : t.pair.has_owned_ids = s.pair.has_owned_ids := by
  induction h with
  | refl => rfl
  | blocks _ hblocks ih => exact hblocks.apart.pair.has_owned_ids.trans ih
  | work _ hwork ih =>
    rw [hwork.inside.1.pair]
    exact ih

theorem revision (h : Path s t) : s.requested_start_revision ≤ t.requested_start_revision := by
  induction h with
  | refl => exact Nat.le_refl _
  | blocks _ hblocks ih => exact Nat.le_trans ih hblocks.revision
  | work _ hwork ih =>
    rw [hwork.inside.1.revision]
    exact ih

end Path

/-- A point at which an update goes on; with `going`, one that goes by the pair that was published last. -/
structure Leads (going : Bool) (s : Runtime) (u : Update) (t : Runtime) (point : Point) : Prop where
  path : Path s t
  placed : Placed t.pair t.token point
  revision : point.revision ≤ u.start_revision
  retries : point.retries = none
  passes : point.passes = false
  after : going = true → point.after.isSome = true

def Goes (going : Bool) (s : Runtime) (u : Update) (v : Runtime) : Prop :=
  ∃ t point, Leads going s u t point ∧ v = t.go_to point

theorem Goes.ordered {going : Bool} {v : Runtime} (h : Goes going s u v) (hs : s.Resting) : v.Ordered := by
  obtain ⟨t, point, hleads, rfl⟩ := h
  exact (hleads.path.resting hs).go_to hleads.placed

theorem Path.free (h : Path s t) (hrevision : point.revision ≤ u.start_revision) (hinspected : point.inspected = false)
    (hafter : point.after = none) (hvacant : point.vacant = false) (hretries : point.retries = none)
    (hpasses : point.passes = false) : Goes false s u (t.go_to point) :=
  ⟨t, point, ⟨h, Placed.free hinspected hafter hvacant, hrevision, hretries, hpasses, nofun⟩, rfl⟩

theorem Path.plain (h : Path s t) (hrevision : point.revision ≤ u.start_revision) (htoken : t.token.valid = true)
    (hafter : point.after = none) (hvacant : point.vacant = false) (hretries : point.retries = none)
    (hpasses : point.passes = false) : Goes false s u (t.go_to point) :=
  ⟨t, point, ⟨h, Placed.plain htoken hafter hvacant, hrevision, hretries, hpasses, nofun⟩, rfl⟩

theorem Resting.sample (h : s.Resting) (u : Update) : (s.sample u).Ordered := by
  have hready := h.blocks (ready_blocks s u)
  exact hready.go_to (Placed.free rfl rfl rfl)

theorem choose_goes (s : Runtime) (u : Update) (sight : Sight) : Goes false s u (s.choose u sight) := by
  have hscheduled : Path s { s with feeds := sight.feeds } := Path.refl.keeps { Keeps.refl s with } rfl rfl
  have hle := Nat.le_refl u.start_revision
  unfold Runtime.choose
  dsimp only
  split
  · exact hscheduled.free (Nat.zero_le _) rfl rfl rfl rfl rfl
  split
  · exact hscheduled.free hle rfl rfl rfl rfl rfl
  split
  · exact hscheduled.free hle rfl rfl rfl rfl rfl
  split
  · exact (hscheduled.look _).free hle rfl rfl rfl rfl rfl
  split
  · exact hscheduled.free hle rfl rfl rfl rfl rfl
  rename_i identity _
  exact (hscheduled.work (.context identity)).plain hle identity.valid rfl rfl rfl rfl

theorem service_reset_goes (s : Runtime) (u : Update) (sight : Sight) : Goes false s u (s.service_reset u sight) := by
  have hcancelled := (Path.refl : Path s s).cancelled_outside sight
  have hle := Nat.le_refl u.start_revision
  unfold Runtime.service_reset
  dsimp only
  split
  · exact hcancelled.free hle rfl rfl rfl rfl rfl
  rename_i identity _
  have hinspected := hcancelled.work (.context identity)
  split
  · exact hcancelled.free hle rfl rfl rfl rfl rfl
  split
  · exact hinspected.free hle rfl rfl rfl rfl rfl
  · exact hinspected.plain hle identity.valid rfl rfl rfl rfl

theorem drain_goes (s : Runtime) (u : Update) (sight : Sight) : Goes false s u (s.drain u sight) := by
  have hcleared : ∀ answer, Path s ((s.cancel_outside sight).1.clear_drained answer) := by
    intro answer
    have hdrained := (Path.refl : Path s s).cancelled_outside sight
    unfold Runtime.clear_drained
    split
    · exact hdrained.work .clear
    · exact hdrained
  have hle := Nat.le_refl u.start_revision
  unfold Runtime.drain
  dsimp only
  split
  · exact (hcleared _).free hle rfl rfl rfl rfl rfl
  split
  · exact (hcleared _).free hle rfl rfl rfl rfl rfl
  rename_i identity _
  exact (((hcleared _).work (.context identity)).work (.pool _)).free hle rfl rfl rfl rfl rfl

theorem service_transition_goes (s : Runtime) (u : Update) : Goes false s u (s.service_transition u) := by
  have hcancelled := (Path.refl : Path s s).cancelled
  have hle := Nat.le_refl u.start_revision
  unfold Runtime.service_transition
  dsimp only
  split
  · exact Path.refl.free hle rfl rfl rfl rfl rfl
  split
  · split
    · exact hcancelled.free hle rfl rfl rfl rfl rfl
    generalize RetainedProfileTransition.begin_published _ _ _ = transition
    have hbegun : Path s { s.cancel_uncreated_request.1 with profile_transition := transition } :=
      hcancelled.keeps { Keeps.refl _ with } rfl rfl
    split
    · exact hbegun.free hle rfl rfl rfl rfl rfl
    · exact hbegun.free hle rfl rfl rfl rfl rfl
  · exact Path.refl.free hle rfl rfl rfl rfl rfl

theorem resume_kept_path (h : Path s t) (allowed : Bool) (start_revision : Nat) :
    Path s (t.resume_kept allowed start_revision) := by
  refine h.keeps (resume_kept_keeps t allowed start_revision) ?_ ?_
  · unfold Runtime.resume_kept
    split <;> rfl
  · unfold Runtime.resume_kept
    split <;> rfl

theorem settle_transition_goes (s : Runtime) (u : Update) (transition : RetainedProfileTransition)
    (token : UInt64) (start_revision : Nat) (resume_requested : Bool) (sight : Sight) :
    Goes false s u (s.settle_transition u transition token start_revision resume_requested sight) := by
  have hlooked := (Path.refl : Path s s).look sight.manager
  have hle := Nat.le_refl u.start_revision
  unfold Runtime.settle_transition
  dsimp only
  split
  · exact hlooked.free hle rfl rfl rfl rfl rfl
  refine Path.free (resume_kept_path (hlooked.keeps ?_ ?_ ?_) _ _) hle rfl rfl rfl rfl rfl
  · exact { Keeps.refl _ with }
  · rfl
  · rfl

theorem Resting.beside (h : s.Resting) (hb : Beside s.pair pair) : Resting { s with pair } where
  tidy := hb.tidy h.tidy
  idle := hb.phase.trans h.idle
  calling := h.calling
  reset := h.reset.same hb rfl rfl

theorem Placed.empty (htoken : token.valid = true) (hafter : point.after = none) (hids : pair.has_owned_ids = false) :
    Placed pair token point where
  token _ := htoken
  after u h := by rw [hafter] at h; cases h
  vacant _ := hids

theorem Placed.going (htoken : token.valid = true) (hpair : any_owned u.pair.owned_ids = pair.has_owned_ids)
    (hafter : point.after = some u) (hvacant : point.vacant = false) : Placed pair token point where
  token _ := htoken
  after v h := by
    rw [hafter] at h
    obtain rfl := Option.some.inj h
    exact hpair
  vacant h := by rw [hvacant] at h; cases h

theorem keep_resolution_path (s : Runtime) (sight : Sight) : Path s (s.keep_resolution sight) := by
  refine Path.refl.keeps (keep_resolution_keeps s sight) ?_ ?_
  · unfold Runtime.keep_resolution
    cases sight.resolution_changed <;> cases sight.restored <;> rfl
  · unfold Runtime.keep_resolution
    cases sight.resolution_changed <;> cases sight.restored <;> rfl

/-- From a point that went by the published pair to another. -/
theorem Path.going (h : Path s t) (htoken : s.token.valid = true) {v : Update} (hpair : any_owned v.pair.owned_ids = t.pair.has_owned_ids)
    (hrevision : point.revision ≤ u.start_revision) (hafter : point.after = some v) (hvacant : point.vacant = false)
    (hretries : point.retries = none) (hpasses : point.passes = false) : Goes true s u (t.go_to point) :=
  ⟨t, point, ⟨h, Placed.going (h.proven htoken) hpair hafter hvacant, hrevision, hretries, hpasses,
    fun _ => by rw [hafter]; rfl⟩, rfl⟩

theorem Resting.withdraw (h : s.Resting) (u : Update) (temporary : Bool) : (s.withdraw u temporary).Ordered := by
  have hasked : ∀ t : Runtime, t.Resting →
      (if temporary = true then { t with pair := t.pair.request_disable } else t).Resting := by
    intro t ht
    split
    · exact ht.beside (Beside.of_disable _)
    · exact ht
  unfold Runtime.withdraw
  dsimp only
  refine Resting.go_to (hasked _ ?_) (Placed.free rfl rfl rfl)
  split
  · exact ⟨h.tidy, h.idle, h.calling, h.reset⟩
  · exact h

section
variable {u : Update} (h : s.Resting) (htoken : s.token.valid = true)
  (hpair : any_owned u.pair.owned_ids = s.pair.has_owned_ids)
include h htoken hpair

theorem Resting.resume_creation : (s.resume_creation u).Ordered := by
  have hcancelled := h.block (cancel_uncreated_request_block s)
  have hkeeps := cancel_uncreated_request_keeps s
  have htoken' : s.cancel_uncreated_request.1.token.valid = true := by rw [hkeeps.token]; exact htoken
  unfold Runtime.resume_creation
  dsimp only
  split
  · exact h.go_to (Placed.going htoken hpair rfl rfl)
  split
  · have hdropped : Resting { s with creation_wait := { s.creation_wait with pending := false } } :=
      ⟨h.tidy, h.idle, h.calling, h.reset⟩
    exact hdropped.go_to (Placed.going htoken hpair rfl rfl)
  split
  · exact h.go_to (Placed.going htoken hpair rfl rfl)
  split
  · exact hcancelled.go_to (Placed.going htoken' (hpair.trans hkeeps.pair.has_owned_ids.symm) rfl rfl)
  refine Resting.go_to ?_ (Placed.going htoken' hcancelled.published rfl rfl)
  exact ⟨hcancelled.tidy, hcancelled.idle, hcancelled.calling, hcancelled.reset⟩

theorem Resting.retry (sight : Sight) : (s.retry u sight).Ordered := by
  unfold Runtime.retry
  dsimp only
  split
  · exact h.go_to (Placed.going htoken hpair rfl rfl)
  split
  · refine Resting.go_to ?_ (@Placed.going _ _ _ { u with
      requested_start := true, start_revision := s.requested_start_revision + 1 } htoken hpair rfl rfl)
    exact ⟨h.tidy, h.idle, h.calling, h.reset⟩
  · exact h.go_to (Placed.going htoken hpair rfl rfl)

omit h in
theorem settle_goes (sight : Sight) : Goes true s u (s.settle u sight) := by
  have hflight : Path s s.begin_flight_change :=
    Path.refl.block (begin_flight_change_block s) (begin_flight_change_changes s)
  have hkept := keep_resolution_path s sight
  have hle := Nat.le_refl u.start_revision
  unfold Runtime.settle
  split
  · exact Path.refl.going htoken hpair hle rfl rfl rfl rfl
  split
  · exact hkept.going htoken (hpair.trans hkept.ids.symm) hle rfl rfl rfl rfl
  split
  · exact Path.refl.going htoken hpair hle rfl rfl rfl rfl
  split
  · exact Path.refl.going htoken hpair hle rfl rfl rfl rfl
  split
  · exact Path.refl.going htoken hpair hle rfl rfl rfl rfl
  · exact hflight.going htoken (hpair.trans hflight.ids.symm) hle rfl rfl rfl rfl

omit h in
theorem check_goes (sight : Sight) : Goes true s u (s.check u sight) := by
  have hle := Nat.le_refl u.start_revision
  unfold Runtime.check
  dsimp only
  split
  · exact Path.refl.going htoken hpair hle rfl rfl rfl rfl
  rename_i hnone
  have hcapacity : Path s _ := Path.refl.work (.capacity s.required_feeds sight)
  have hpair' := hpair.trans hcapacity.ids.symm
  split
  · refine ⟨_, .committing u, ⟨hcapacity, ⟨fun _ => hcapacity.proven htoken, ?_, fun _ => ?_⟩, hle, rfl, rfl, fun _ => rfl⟩,
      rfl⟩
    · intro v hv
      obtain rfl := Option.some.inj (hv : some u = some v)
      exact hpair'
    · rw [← hpair']
      simp only [Bool.or_eq_true, not_or] at hnone
      simpa using hnone.2
  · exact hcapacity.going htoken hpair' hle rfl rfl rfl rfl

theorem Resting.fail (sight : Sight) : Goes true s u (s.fail u sight) := by
  have hdisabled : Path s { s with pair := s.pair.request_disable } :=
    Path.refl.keeps (Keeps.of_beside s (Beside.of_disable s.pair)) rfl rfl
  have hcancelled := hdisabled.cancelled_outside sight
  have hle := Nat.le_refl u.start_revision
  unfold Runtime.fail
  dsimp only
  split
  · exact Path.refl.going htoken hpair hle rfl rfl rfl rfl
  split
  · exact hcancelled.going htoken (hcancelled.resting h).published hle rfl rfl rfl rfl
  · exact Path.refl.going htoken hpair hle rfl rfl rfl rfl

theorem Resting.defer_failure (waits_for_pool : Bool) (sight : Sight) :
    Goes true s u (s.defer_failure u waits_for_pool sight) := by
  have hle := Nat.le_refl u.start_revision
  unfold Runtime.defer_failure
  dsimp only
  split
  · have htold : Path s { s with stop_detail := sight.detail } := Path.refl.keeps { Keeps.refl s with } rfl rfl
    exact htold.going htoken hpair hle rfl rfl rfl rfl
  generalize hresult : SceneRecovery.defer_initial_pose_failure s.pair s.token s.recovery
    s.creation_pose_unavailable s.creations u.start_revision s.requested_start_revision sight.now = deferred
  have hbeside : Beside s.pair deferred.1 := by
    rw [← hresult]
    exact Beside.of_defer h.idle _ _ _ _ _ _ _
  have hrequested : deferred.2.1.requested = s.recovery.requested := by
    rw [← hresult]
    exact SceneRecovery.defer_requested _ _ _ _ _ _ _ _
  have hkeeps : Keeps s { s with pair := deferred.1, recovery := deferred.2.1 } :=
    { Keeps.of_beside s hbeside with recovers := hrequested }
  have hdeferred := Path.refl.keeps hkeeps rfl rfl
  split
  · have htold : Path s { s with
        pair := deferred.1, recovery := deferred.2.1, stop_detail := sight.detail } :=
      hdeferred.keeps { Keeps.refl _ with } rfl rfl
    exact htold.going htoken (htold.resting h).published hle rfl rfl rfl rfl
  · exact hdeferred.going htoken (hpair.trans hdeferred.ids.symm) hle rfl rfl rfl rfl

end

theorem Resting.commit (h : s.Resting) (hplaced : Placed s.pair s.token (.committing u)) : (s.commit u).Ordered := by
  have hids := hplaced.vacant rfl
  have htoken := hplaced.token rfl
  unfold Runtime.commit
  split
  · rename_i hallowed
    refine Resting.go_to ?_ (Placed.empty htoken rfl hids)
    · refine ⟨h.tidy.request_independent_pose _ h.idle hids, h.idle, h.calling, ?_⟩
      intro hholding
      simp only [Bool.and_eq_true, Runtime.session_work_allowed, SceneSessionReset.work_allowed] at hallowed
      have hreset := (h.reset hholding).1
      rw [hreset] at hallowed
      exact absurd hallowed.2.1.1 nofun
  · exact h.go_to (Placed.going htoken (hplaced.after u rfl) rfl rfl)

theorem Resting.thrown (h : s.Resting) (sight : Sight) : (s.thrown sight).Ordered := by
  have hdisabled := h.beside (Beside.of_disable s.pair)
  unfold Runtime.thrown
  refine Resting.go_to ?_ (Placed.free rfl rfl rfl)
  exact ⟨hdisabled.tidy, hdisabled.idle, hdisabled.calling, hdisabled.reset⟩

theorem Resting.finish_pass (h : s.Resting) (htoken : s.token.valid = true) (u : Update) (pass : Pass) :
    (s.finish_pass u pass).Ordered := by
  unfold Runtime.finish_pass
  dsimp only
  refine h.go_to ?_
  have hpair := h.published
  cases pass with
  | first => exact @Placed.going _ _ _ { u with pair := s.pair.snapshot } htoken hpair rfl rfl
  | second => exact @Placed.going _ _ _ { u with pair := s.pair.snapshot } htoken hpair rfl rfl
  | removal => exact @Placed.going _ _ _ { u with pair := s.pair.snapshot } htoken hpair rfl rfl
  | reset => exact Placed.free rfl rfl rfl

end

variable {s : Runtime}

/-- Every step of the observer keeps the order. -/
theorem Ordered.observe (h : s.Ordered) (sight : Sight) : (s.observe sight).Ordered := by
  have hplaced := h.placed
  have hrest : s.point.passes = false → s.Resting := h.resting
  unfold Runtime.observe
  split
  · rename_i hthrows
    refine (h.resting ?_).thrown sight
    simp only [Bool.and_eq_true, Runtime.in_controller] at hthrows
    revert hthrows
    cases s.point <;> first | exact fun _ => rfl | exact fun hx => absurd hx.2 nofun
  split <;> rename_i hpoint <;> rw [hpoint] at hplaced hrest
  · have hresting := hrest rfl
    split
    · exact hresting.go_to (Placed.free rfl rfl rfl)
    · exact h
  · exact (hrest rfl).sample _
  · exact (choose_goes s _ _).ordered (hrest rfl)
  · exact (service_reset_goes s _ _).ordered (hrest rfl)
  · exact Resting.process_update ((hrest rfl).beside (Beside.of_disable _)) _ _ _ (hplaced.token rfl)
  · exact (drain_goes s _ _).ordered (hrest rfl)
  · have hresting := hrest rfl
    refine Resting.go_to ?_ (Placed.free rfl rfl rfl)
    refine ⟨hresting.tidy, hresting.idle, hresting.calling, hresting.reset.same (Beside.refl _) ?_ rfl⟩
    dsimp only
    split
    · unfold SceneSessionReset.observe_empty
      split <;> rfl
    · rfl
  · exact (service_transition_goes s _).ordered (hrest rfl)
  · exact (settle_transition_goes s _ _ _ _ _ _).ordered (hrest rfl)
  · have hresting := hrest rfl
    refine Resting.go_to ?_ (Placed.free rfl rfl rfl)
    exact ⟨hresting.tidy, hresting.idle, hresting.calling, hresting.reset⟩
  · exact (hrest rfl).withdraw _ _
  · have hresting := hrest rfl
    refine Resting.process_update ?_ _ _ _ (hplaced.token rfl)
    exact ⟨hresting.tidy, hresting.idle, hresting.calling, hresting.reset⟩
  · rename_i u pass
    split
    · rename_i hprocessing
      exact h.turn hprocessing sight
    rename_i hprocessing
    have hidle := idle_of_processing (by simpa using hprocessing)
    have hcalling := h.not_calling (by rw [hidle]; exact nofun)
    exact Resting.finish_pass ⟨h.tidy, hidle, hcalling, h.reset⟩ (hplaced.token rfl) u pass
  · exact (hrest rfl).resume_creation (hplaced.token rfl) (hplaced.after _ rfl)
  · exact (hrest rfl).retry (hplaced.token rfl) (hplaced.after _ rfl) _
  · exact (check_goes (hplaced.token rfl) (hplaced.after _ rfl) _).ordered (hrest rfl)
  · exact (hrest rfl).commit hplaced
  · exact (hrest rfl).process_update _ _ _ (hplaced.token rfl)
  · exact ((hrest rfl).fail (hplaced.token rfl) (hplaced.after _ rfl) _).ordered (hrest rfl)
  · exact ((hrest rfl).defer_failure (hplaced.token rfl) (hplaced.after _ rfl) _ _).ordered (hrest rfl)
  · have hresting := hrest rfl
    refine Resting.go_to ?_ (Placed.going (hplaced.token rfl) (hplaced.after _ rfl) rfl rfl)
    exact ⟨hresting.tidy, hresting.idle, hresting.calling, hresting.reset⟩
  · exact (settle_goes (hplaced.token rfl) (hplaced.after _ rfl) _).ordered (hrest rfl)
  · have hresting := hrest rfl
    refine Resting.go_to ?_ (Placed.plain (hplaced.token rfl) rfl rfl)
    exact ⟨hresting.tidy, hresting.idle, hresting.calling, hresting.reset⟩
  · exact Resting.process_update ((hrest rfl).beside (Beside.of_disable _)) _ _ _ (hplaced.token rfl)
  · rename_i u
    have hresting := hrest rfl
    unfold Runtime.clear
    split
    · exact hresting.go_to (Placed.free rfl rfl rfl)
    · exact (hresting.inside (clear_retired_pair_inside false s) clear_retired_pair_calling).go_to (Placed.free rfl rfl rfl)
  · have hresting := hrest rfl
    refine Resting.go_to ?_ (Placed.free rfl rfl rfl)
    exact ⟨hresting.tidy, hresting.idle, hresting.calling, hresting.reset⟩

/-- Every step keeps the order. -/
theorem Ordered.step (h : s.Ordered) (op : Op) : (Runtime.step s op).Ordered := by
  cases op with
  | observe sight => exact h.observe sight
  | _ => exact h.block (step_block s rfl)

end Runtime

end taxi_camera.native_camera
