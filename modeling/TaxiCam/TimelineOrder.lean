-- What one timeline orders: its completed value goes up, and what it has
-- passed is finished, as long as the watchdog signals no value before the
-- queues come to it.
import TaxiCam.DeviceTimeline

namespace taxi_camera.SceneCaptureManager.DeviceTimeline

open fence_queues

variable {s : DeviceTimeline}

/-! ## What the timeline should do, and what it takes -/

/-- The completed value does not decrease. -/
def Steady (s : DeviceTimeline) (turn : Turn) : Prop :=
  s.fence.completed ≤ (s.step turn).fence.completed

/-- A completed value above every value that the watchdog signalled leaves no work of the receipts
up to it. -/
def Complete (s : DeviceTimeline) : Prop :=
  (∀ value ∈ s.signals, value < s.fence.completed) →
    ∀ value ≤ s.fence.completed, ¬ s.fence.Unfinished value

def Ordered (s : DeviceTimeline) (turn : Turn) : Prop := s.Steady turn ∧ (s.step turn).Complete

/-- The watchdog signals only the value behind the last one that a queue signalled, if no queue has
got past it, and no queue passes a Wait before a queue has signalled its value. -/
def Harmless (s : DeviceTimeline) (turn : Turn) : Prop :=
  match turn with
  | .signal_waited true =>
    match s.watchdog with
    | .signalling waited => s.fence.completed ≤ waited ∧ waited ≤ s.fence.reached + 1
    | _ => True
  | .advance q =>
    match s.fence.queues q with
    | .wait value :: _ => value ≤ s.fence.completed → value ≤ s.fence.reached
    | _ => True
  | _ => True

variable {q value waited : Nat}

theorem Harmless.signal (h : s.Harmless (.signal_waited true)) (hw : s.watchdog = .signalling waited) :
    s.fence.completed ≤ waited ∧ waited ≤ s.fence.reached + 1 := by
  unfold Harmless at h
  rw [hw] at h
  exact h

theorem Harmless.pass {rest : List Operation} (h : s.Harmless (.advance q))
    (hq : s.fence.queues q = .wait value :: rest) (hle : value ≤ s.fence.completed) :
    value ≤ s.fence.reached := by
  unfold Harmless at h
  dsimp only at h
  rw [hq] at h
  exact h hle

/-! ## The invariant -/

structure Chained (s : DeviceTimeline) : Prop where
  orderly : s.fence.Orderly s.last_signal s.owner
  begun : ∀ q value, .work value ∈ s.fence.queues q → s.last_signal < value →
    s.failed = true ∨ ∃ t, s.transaction = some t ∧ t.phase = .submitting
  reserved : ∀ t, s.transaction = some t →
    t.value = s.last_signal + 1 ∧ s.owner t.value = some t.queue
  waits : ∀ t, s.transaction = some t → t.phase ≠ .reserved →
    level s.fence.reached (s.fence.queues t.queue) = s.last_signal
  reached_le : s.fence.reached ≤ s.fence.completed
  completed_le : s.fence.completed ≤ s.fence.reached + 1
  signalled : s.fence.completed = s.fence.reached + 1 → s.fence.completed ∈ s.signals

theorem chained_initial : Chained {} where
  orderly := ⟨fun _ => trivial, fun _ => Nat.le_refl _, fun _ _ h => by simp at h⟩
  begun _ _ h := by cases h
  reserved _ h := by cases h
  waits _ h := by cases h
  reached_le := Nat.le_refl _
  completed_le := Nat.zero_le _
  signalled h := by cases h

/-- A completed value that the watchdog did not signal is one that a queue has signalled. -/
theorem Chained.reached_eq (h : s.Chained) (hnot : ∀ value ∈ s.signals, value < s.fence.completed) :
    s.fence.completed = s.fence.reached := by
  have hle := h.reached_le
  have hge := h.completed_le
  by_contra hne
  have hsignalled := hnot _ (h.signalled (by omega))
  omega

theorem Chained.complete (h : s.Chained) : s.Complete := by
  intro hnot value hv hunfinished
  have hreached := h.reached_eq hnot
  have hlt := h.orderly.lt_of_unfinished hunfinished
  omega

/-! ## One turn -/

theorem Chained.fail (h : s.Chained) : s.fail_device.Chained :=
  ⟨h.orderly, fun _ _ _ _ => .inl rfl, h.reserved, h.waits, h.reached_le, h.completed_le, h.signalled⟩

/-- No work and no signal of a value that is not reserved. -/
theorem Chained.not_begun (h : s.Chained) (hfailed : s.failed = false)
    (hnone : ∀ t, s.transaction = some t → t.phase ≠ .submitting)
    (hop : .work value ∈ s.fence.queues q ∨ .signal value ∈ s.fence.queues q) :
    value ≤ s.last_signal := by
  rcases hop with hop | hop
  · by_contra hlt
    rcases h.begun q value hop (by omega) with hf | ⟨t, ht, hphase⟩
    · rw [hfailed] at hf
      cases hf
    · exact hnone t ht hphase
  · exact Nat.le_trans ((h.orderly.order q).le_level hop) (h.orderly.level_le q)

theorem Chained.begin_transaction (h : s.Chained) (hnone : s.transaction = none) (queue : Nat)
    (private_work : Bool) : (s.begin_transaction queue private_work).Chained := by
  unfold DeviceTimeline.begin_transaction
  split
  · exact h.fail
  rename_i hok
  have hfailed : s.failed = false := by
    simp only [Bool.or_eq_true, not_or, Bool.not_eq_true] at hok
    exact hok.1
  have hno (t : Transaction) (ht : s.transaction = some t) : t.phase ≠ .submitting := by
    rw [hnone] at ht
    cases ht
  refine ⟨⟨h.orderly.order, h.orderly.level_le, ?_⟩, ?_, ?_, ?_, h.reached_le, h.completed_le, h.signalled⟩
  · intro q value hop
    have hle := h.not_begun hfailed hno hop
    unfold owner
    dsimp only
    rw [Function.update_of_ne (by omega)]
    exact h.orderly.owned q value hop
  · intro q value hop hlt
    exact absurd (h.not_begun hfailed hno (.inl hop)) (Nat.not_le.mpr hlt)
  · intro t ht
    rw [Option.some.injEq] at ht
    subst ht
    refine ⟨rfl, ?_⟩
    unfold owner
    dsimp only
    rw [Function.update_self]
    rfl
  · intro t ht hphase
    rw [Option.some.injEq] at ht
    subst ht
    exact absurd rfl hphase

theorem Chained.before_submission (h : s.Chained) (queue : Nat) (mask : Bool) :
    (s.before_submission queue mask).Chained := by
  unfold DeviceTimeline.before_submission
  split
  · exact h
  rename_i hnone
  split
  · exact h
  · exact h.begin_transaction hnone queue false

theorem Chained.begin_private_submission (h : s.Chained) (queue : Nat) :
    (s.begin_private_submission queue).Chained := by
  unfold DeviceTimeline.begin_private_submission
  split
  · exact h
  rename_i hnone
  exact h.begin_transaction hnone queue true

/-- The thread of the transaction goes on, and nothing is put on its queue. -/
theorem Chained.next_phase (h : s.Chained) {t : Transaction} (ht : s.transaction = some t)
    (phase : Phase) (hlevel : level s.fence.reached (s.fence.queues t.queue) = s.last_signal)
    (hbegun : t.phase ≠ .submitting) (waited : Nat) :
    Chained { s with waited, transaction := some { t with phase } } := by
  have hno (t' : Transaction) (ht' : s.transaction = some t') : t'.phase ≠ .submitting := by
    rw [ht, Option.some.injEq] at ht'
    subst ht'
    exact hbegun
  refine ⟨h.orderly, ?_, ?_, ?_, h.reached_le, h.completed_le, h.signalled⟩
  · intro q value hop hlt
    rcases h.begun q value hop hlt with hf | ⟨t', ht', hphase⟩
    · exact .inl hf
    · exact absurd hphase (hno t' ht')
  · intro t' ht'
    rw [Option.some.injEq] at ht'
    subst ht'
    exact h.reserved t ht
  · intro t' ht' _
    rw [Option.some.injEq] at ht'
    subst ht'
    exact hlevel

theorem Chained.queue_transaction_wait (h : s.Chained) (succeeded : Bool) :
    (s.queue_transaction_wait succeeded).Chained := by
  unfold DeviceTimeline.queue_transaction_wait
  split
  · rename_i t ht
    split
    · exact h
    rename_i hphase
    have hreserved : t.phase ≠ .submitting := fun he => hphase (he ▸ nofun)
    split
    · rename_i hzero
      -- nothing to wait for: no queue has seen a value
      apply h.next_phase ht .submitting _ hreserved s.waited
      have hle := h.orderly.level_le t.queue
      omega
    split
    · have hle := h.orderly.level_le t.queue
      have hseen : level (level s.fence.reached (s.fence.queues t.queue)) [.wait s.last_signal] =
          s.last_signal := Nat.max_eq_right hle
      have horderly : (s.fence.enqueue t.queue (.wait s.last_signal)).Orderly s.last_signal s.owner := by
        apply h.orderly.enqueue
        · exact trivial
        · exact Nat.le_of_eq hseen
        · rintro value (he | he) <;> cases he
      refine ⟨horderly, ?_, ?_, ?_, h.reached_le, h.completed_le, h.signalled⟩
      · intro q value hop hlt
        rcases Fence.mem_enqueue hop with hop | ⟨-, he⟩
        · rcases h.begun q value hop hlt with hf | ⟨t', ht', hphase'⟩
          · exact .inl hf
          rw [ht, Option.some.injEq] at ht'
          subst ht'
          exact absurd hphase' hreserved
        · cases he
      · intro t' ht'
        rw [Option.some.injEq] at ht'
        subst ht'
        exact h.reserved t ht
      · intro t' ht' _
        rw [Option.some.injEq] at ht'
        subst ht'
        rw [Fence.queues_enqueue, level_snoc]
        exact hseen
    · exact ⟨h.orderly, fun _ _ _ _ => .inl rfl, fun _ ht' => (nomatch ht'),
        fun _ ht' => (nomatch ht'), h.reached_le, h.completed_le, h.signalled⟩
  · exact h

theorem Chained.publish_queued_wait (h : s.Chained) : s.publish_queued_wait.Chained := by
  unfold DeviceTimeline.publish_queued_wait
  split
  · rename_i t ht
    split
    · exact h
    rename_i hphase
    rw [not_not] at hphase
    have hwaits := h.waits t ht (hphase ▸ nofun)
    exact h.next_phase ht .submitting hwaits (hphase ▸ nofun) _
  · exact h

theorem Chained.forward (h : s.Chained) : s.forward.Chained := by
  unfold DeviceTimeline.forward
  split
  · rename_i t ht
    split
    · exact h
    rename_i hphase
    rw [not_not] at hphase
    obtain ⟨hvalue, howner⟩ := h.reserved t ht
    have hlevel := h.waits t ht (hphase ▸ nofun)
    have horderly : (s.fence.enqueue t.queue (.work t.value)).Orderly s.last_signal s.owner := by
      apply h.orderly.enqueue
      · rw [hlevel]
        exact ⟨hvalue, trivial⟩
      · exact Nat.le_of_eq hlevel
      · rintro value (he | he)
        · rw [← Operation.work.inj he, howner]
        · cases he
    refine ⟨horderly, ?_, h.reserved, ?_, h.reached_le, h.completed_le, h.signalled⟩
    · intro q value _ _
      exact .inr ⟨t, ht, hphase⟩
    · intro t' ht' _
      have hsame : t' = t := Option.some.inj (ht'.symm.trans ht)
      rw [hsame, Fence.queues_enqueue, level_snoc]
      exact hlevel
  · exact h

theorem Chained.finish_transaction (h : s.Chained) (succeeded : Bool) : (s.finish_transaction succeeded).Chained := by
  unfold DeviceTimeline.finish_transaction
  split
  · rename_i t ht
    split
    · exact h
    rename_i hphase
    rw [not_not] at hphase
    split
    · exact ⟨h.orderly, fun _ _ _ _ => .inl rfl, fun _ ht' => (nomatch ht'),
        fun _ ht' => (nomatch ht'), h.reached_le, h.completed_le, h.signalled⟩
    obtain ⟨hvalue, howner⟩ := h.reserved t ht
    have hlevel := h.waits t ht (hphase ▸ nofun)
    have horderly : (s.fence.enqueue t.queue (.signal t.value)).Orderly t.value s.owner := by
      apply (h.orderly.mono (hvalue ▸ Nat.le_succ s.last_signal)).enqueue
      · rw [hlevel]
        exact ⟨hvalue, trivial⟩
      · rw [hlevel]
        exact Nat.max_le.mpr ⟨hvalue ▸ Nat.le_succ s.last_signal, Nat.le_refl _⟩
      · rintro value (he | he)
        · cases he
        · rw [← Operation.signal.inj he, howner]
    refine ⟨horderly, ?_, fun _ ht' => (nomatch ht'), fun _ ht' => (nomatch ht'),
      h.reached_le, h.completed_le, h.signalled⟩
    intro q value hop hlt
    rcases Fence.mem_enqueue hop with hop | ⟨-, he⟩
    · have hle := (h.orderly.order q).work_le hop
      have hlast := h.orderly.level_le q
      dsimp only at hlt
      omega
    · cases he
  · exact h

/-- The watchdog reads, and signals nothing. -/
theorem Chained.watch (h : s.Chained) (released : Nat) (watchdog : Watchdog) :
    Chained { s with released, watchdog } :=
  ⟨h.orderly, h.begun, h.reserved, h.waits, h.reached_le, h.completed_le, h.signalled⟩

theorem Chained.signal_waited (h : s.Chained) (succeeded : Bool)
    (hharmless : s.Harmless (.signal_waited succeeded)) : (s.signal_waited succeeded).Chained := by
  unfold DeviceTimeline.signal_waited
  split
  · rename_i waited hw
    split
    · rename_i hok
      subst hok
      obtain ⟨hle, hge⟩ := hharmless.signal hw
      refine ⟨⟨h.orderly.order, h.orderly.level_le, h.orderly.owned⟩, h.begun, h.reserved, h.waits,
        Nat.le_trans h.reached_le hle, hge, ?_⟩
      intro _
      exact List.mem_append_right _ List.mem_cons_self
    · exact h.watch _ _
  · exact h

theorem Chained.advance (h : s.Chained) (q : Nat) (hharmless : s.Harmless (.advance q)) :
    Chained { s with fence := s.fence.advance q } := by
  have horderly := h.orderly.advance fun _ _ => hharmless.pass
  have hlevels := h.orderly.level_le_advance fun _ _ => hharmless.pass
  have hmem (q' : Nat) (op : Operation) (hop : op ∈ (s.fence.advance q).queues q') :
      op ∈ s.fence.queues q' := Fence.mem_of_mem_advance hop
  have hvalues : (s.fence.advance q).reached ≤ (s.fence.advance q).completed ∧
      (s.fence.advance q).completed ≤ (s.fence.advance q).reached + 1 ∧
      ((s.fence.advance q).completed = (s.fence.advance q).reached + 1 →
        (s.fence.advance q).completed ∈ s.signals) := by
    rcases Fence.advance_values s.fence q with ⟨hc, hr, -⟩ | ⟨value, rest, -, hc, hr, -⟩
    · rw [hc, hr]
      exact ⟨h.reached_le, h.completed_le, h.signalled⟩
    rw [hc, hr]
    refine ⟨Nat.le_refl _, Nat.le_succ _, fun he => ?_⟩
    omega
  refine ⟨horderly, ?_, h.reserved, ?_, hvalues.1, hvalues.2.1, hvalues.2.2⟩
  · intro q' value hop hlt
    exact h.begun q' value (hmem q' _ hop) hlt
  · intro t ht hphase
    have hold := h.waits t ht hphase
    have hle := hlevels t.queue
    have hge := horderly.level_le t.queue
    dsimp only at hge ⊢
    omega

/-- A turn that the watchdog takes in time keeps the chain. -/
theorem Chained.step (h : s.Chained) (turn : Turn) (hharmless : s.Harmless turn) : (s.step turn).Chained := by
  cases turn with
  | before_submission queue mask => exact h.before_submission queue mask
  | begin_private_submission queue => exact h.begin_private_submission queue
  | queue_transaction_wait succeeded => exact h.queue_transaction_wait succeeded
  | publish_queued_wait => exact h.publish_queued_wait
  | forward => exact h.forward
  | finish_transaction succeeded => exact h.finish_transaction succeeded
  | fail => exact h.fail
  | release_queued_waits =>
    unfold DeviceTimeline.step release_queued_waits
    dsimp only
    split
    · split
      · exact h
      · exact h.watch _ _
    · exact h
  | read_completed =>
    unfold DeviceTimeline.step read_completed
    dsimp only
    split
    · split <;> exact h.watch _ _
    · exact h
  | signal_waited succeeded => exact h.signal_waited succeeded hharmless
  | advance q => exact h.advance q hharmless

/-! ## The law -/

/-- The values of the fence, and what the watchdog has signalled, stay as they are. -/
structure SameValues (s later : DeviceTimeline) : Prop where
  completed : later.fence.completed = s.fence.completed
  highest : later.fence.highest = s.fence.highest
  signals : later.signals = s.signals

/-- Two turns change the values of the fence. -/
theorem sameValues_step (s : DeviceTimeline) (turn : Turn) :
    s.SameValues (s.step turn) ∨ (∃ waited, turn = .signal_waited true ∧ s.watchdog = .signalling waited) ∨
      ∃ q, turn = .advance q := by
  cases turn with
  | before_submission queue mask =>
    left
    unfold step before_submission begin_transaction
    dsimp only
    repeat' split
    all_goals exact ⟨rfl, rfl, rfl⟩
  | begin_private_submission queue =>
    left
    unfold step begin_private_submission begin_transaction
    dsimp only
    repeat' split
    all_goals exact ⟨rfl, rfl, rfl⟩
  | queue_transaction_wait succeeded =>
    left
    unfold step queue_transaction_wait
    dsimp only
    repeat' split
    all_goals exact ⟨rfl, rfl, rfl⟩
  | publish_queued_wait =>
    left
    unfold step publish_queued_wait
    dsimp only
    repeat' split
    all_goals exact ⟨rfl, rfl, rfl⟩
  | forward =>
    left
    unfold step forward
    dsimp only
    repeat' split
    all_goals exact ⟨rfl, rfl, rfl⟩
  | finish_transaction succeeded =>
    left
    unfold step finish_transaction
    dsimp only
    repeat' split
    all_goals exact ⟨rfl, rfl, rfl⟩
  | fail => exact .inl ⟨rfl, rfl, rfl⟩
  | release_queued_waits =>
    left
    unfold step release_queued_waits
    dsimp only
    repeat' split
    all_goals exact ⟨rfl, rfl, rfl⟩
  | read_completed =>
    left
    unfold step read_completed
    dsimp only
    repeat' split
    all_goals exact ⟨rfl, rfl, rfl⟩
  | signal_waited succeeded =>
    unfold step signal_waited
    dsimp only
    cases hw : s.watchdog with
    | idle => exact .inl ⟨rfl, rfl, rfl⟩
    | loaded waited => exact .inl ⟨rfl, rfl, rfl⟩
    | signalling waited =>
      cases succeeded with
      | false => exact .inl ⟨rfl, rfl, rfl⟩
      | true => exact .inr (.inl ⟨waited, rfl, rfl⟩)
  | advance q => exact .inr (.inr ⟨q, rfl⟩)

/-- What the watchdog signals is the value that it has loaded. -/
theorem step_signal_waited (hw : s.watchdog = .signalling waited) : s.step (.signal_waited true) =
      { s with
        fence := s.fence.signal waited
        released := waited
        signals := s.signals ++ [waited]
        watchdog := .idle } := by
  unfold step signal_waited
  rw [hw]
  rfl

theorem Chained.steady (h : s.Chained) (turn : Turn) (hharmless : s.Harmless turn) : s.Steady turn := by
  unfold Steady
  rcases sameValues_step s turn with he | ⟨waited, rfl, hw⟩ | ⟨q, rfl⟩
  · exact Nat.le_of_eq he.completed.symm
  · rw [step_signal_waited hw]
    exact (hharmless.signal hw).1
  rcases Fence.advance_values s.fence q with ⟨hc, -⟩ | ⟨value, rest, hq, hc, -⟩
  · exact Nat.le_of_eq hc.symm
  have hvalue := h.orderly.signal_eq hq
  have hle := h.completed_le
  change s.fence.completed ≤ (s.fence.advance q).completed
  omega

/-- In every run in which the watchdog signals a value only when the queues have come next to it,
and no queue goes on by that signal alone, the completed value does not decrease, and a value above
those that were signalled leaves no work of the receipts up to it. -/
theorem timeline_orders_receipts (turns : List Turn)
    (hharmless : runs.Guarded step Harmless {} turns) : runs.Guarded step Ordered {} turns := by
  have hstep (t : DeviceTimeline) (turn : Turn) (ht : t.Chained) (hturn : t.Harmless turn) :
      t.Ordered turn ∧ (t.step turn).Chained := by
    have hnext := ht.step turn hturn
    exact ⟨⟨ht.steady turn hturn, hnext.complete⟩, hnext⟩
  exact runs.guarded_of_invariant hstep turns chained_initial hharmless

/-- The turns of a whole receipt. -/
def receipt (opening : Turn) : List Turn :=
  [opening, .queue_transaction_wait true, .publish_queued_wait, .forward, .finish_transaction true]

/-- The gate closes, and the watchdog signals the value that is waited for. -/
def closing : List Turn := [.release_queued_waits, .read_completed, .signal_waited true]

/-- The watchdog signals value 1 while its receipt is at work, and the queue that waits for it goes
on when the receipt is finished. -/
theorem signalled_in_time :
    let turns := receipt (.before_submission 1 false) ++ receipt (.begin_private_submission 2) ++
      closing ++ [.advance 1, .advance 1, .advance 2, .advance 2, .advance 2]
    (runs.run step {} turns).signals = [1] ∧ (runs.run step {} turns).fence.completed = 2 ∧
      runs.Guarded step Ordered {} turns := by
  intro turns
  refine ⟨by decide +kernel, by decide +kernel, ?_⟩
  apply timeline_orders_receipts
  refine ⟨trivial, trivial, trivial, trivial, trivial, trivial, trivial, trivial, trivial, trivial,
    trivial, trivial, ⟨by decide, by decide⟩, trivial, trivial, fun _ => ?_, trivial, trivial, trivial⟩
  decide

/-- The watchdog signals value 2 while receipts 1 and 2 are at work on queue 1: queue 2 takes the
timeline to value 3 before them, and queue 1 takes it back to value 1. -/
theorem signalled_too_soon :
    let turns := receipt (.before_submission 1 false) ++ receipt (.before_submission 1 false) ++
      receipt (.begin_private_submission 2) ++ closing ++ [.advance 2, .advance 2, .advance 2]
    let early := runs.run step {} turns
    let late := runs.run step early [.advance 1, .advance 1]
    early.fence.completed = 3 ∧ early.fence.queues 1 =
        [.work 1, .signal 1, .wait 1, .work 2, .signal 2] ∧ late.fence.completed = 1 ∧
      ¬ runs.Guarded step Ordered {} turns := by
  intro turns early late
  have hqueue : early.fence.queues 1 = [.work 1, .signal 1, .wait 1, .work 2, .signal 2] := by
    decide +kernel
  refine ⟨by decide +kernel, hqueue, by decide +kernel, fun h => ?_⟩
  have hlast : turns[20]? = some (.advance 2) := rfl
  have hcomplete := (runs.guarded_at h hlast).2
  have hunfinished : early.fence.Unfinished 1 := ⟨1, hqueue ▸ List.mem_cons_self⟩
  refine hcomplete ?_ 1 (by decide +kernel) hunfinished
  decide +kernel

/-! ## Queues that go on -/

/-- The queue has an operation, and that does not wait. -/
def Moves (f : Fence) (q : Nat) : Prop :=
  match f.queues q with
  | [] => False
  | .wait value :: _ => value ≤ f.completed
  | _ => True

/-- A queue will signal each value behind the reached one. -/
def Signalled (s : DeviceTimeline) : Prop :=
  ∀ value, s.fence.reached < value → value ≤ s.last_signal → ∃ q, .signal value ∈ s.fence.queues q

/-- The last value stays, or is the one that the queue will signal. -/
theorem Signalled.enqueue (h : s.Signalled) (op : Operation) {t : DeviceTimeline} (hfence : t.fence = s.fence.enqueue q op)
    (hlast : t.last_signal = s.last_signal ∨ t.last_signal = s.last_signal + 1 ∧ op = .signal t.last_signal) :
    t.Signalled := by
  intro value hlt hle
  rw [hfence] at hlt ⊢
  by_cases hold : value ≤ s.last_signal
  · obtain ⟨other, hmem⟩ := h value hlt hold
    refine ⟨other, ?_⟩
    by_cases hother : other = q
    · rw [hother] at hmem ⊢
      rw [Fence.queues_enqueue]
      exact List.mem_append_left _ hmem
    · unfold Fence.enqueue
      dsimp only
      rwa [Function.update_of_ne hother]
  · obtain ⟨hnext, rfl⟩ : t.last_signal = s.last_signal + 1 ∧ op = .signal t.last_signal :=
      hlast.resolve_left (by omega)
    refine ⟨q, ?_⟩
    rw [Fence.queues_enqueue, show value = t.last_signal by omega]
    exact List.mem_append_right _ List.mem_cons_self

theorem Signalled.advance (h : s.Signalled) (hc : s.Chained) (q : Nat) : (s.step (.advance q)).Signalled := by
  intro value hlt hle
  change (s.fence.advance q).reached < value at hlt
  change ∃ other, _ ∈ (s.fence.advance q).queues other
  have hpop (first : Operation) (rest : List Operation) (hq : s.fence.queues q = first :: rest)
      (hne : first ≠ .signal value) (hreached : s.fence.reached < value) :
      ∃ other, .signal value ∈ Function.update s.fence.queues q rest other := by
    obtain ⟨other, hmem⟩ := h value hreached hle
    refine ⟨other, ?_⟩
    by_cases hother : other = q
    · rw [hother, hq] at hmem
      rw [hother, Function.update_self]
      exact (List.mem_cons.mp hmem).resolve_left hne.symm
    · rwa [Function.update_of_ne hother]
  unfold Fence.advance at hlt ⊢
  split at hlt
  · exact h value hlt hle
  · rename_i waited rest hq
    by_cases hpass : waited ≤ s.fence.completed
    · rw [if_pos hpass] at hlt ⊢
      exact hpop _ _ hq nofun hlt
    · rw [if_neg hpass] at hlt ⊢
      exact h value hlt hle
  · rename_i hq
    exact hpop _ _ hq nofun hlt
  · rename_i signalled rest hq
    have hnext := hc.orderly.signal_eq hq
    change signalled < value at hlt
    refine hpop _ _ hq (fun hsame => ?_) (by omega)
    rw [Operation.signal.injEq] at hsame
    omega

theorem Signalled.step (h : s.Signalled) (hc : s.Chained) (turn : Turn) : (s.step turn).Signalled := by
  cases turn with
  | queue_transaction_wait succeeded | forward =>
    unfold DeviceTimeline.step
    dsimp only [queue_transaction_wait, DeviceTimeline.forward]
    repeat' split
    all_goals first | exact h | exact h.enqueue _ rfl (.inl rfl)
  | finish_transaction succeeded =>
    unfold DeviceTimeline.step finish_transaction
    dsimp only
    repeat' split
    all_goals first | exact h | skip
    all_goals
      rename_i t ht _ _ _
      exact h.enqueue _ rfl (.inr ⟨(hc.reserved t ht).1, rfl⟩)
  | advance q => exact h.advance hc q
  | _ =>
    unfold DeviceTimeline.step
    dsimp only [before_submission, begin_private_submission, begin_transaction, publish_queued_wait,
      release_queued_waits, read_completed, signal_waited]
    repeat' split
    all_goals exact h

/-- The queue that signals the next value waits for no later one, and with no value to come no
queue waits. -/
theorem Signalled.moves (h : s.Signalled) (hc : s.Chained) :
    (∀ q, s.fence.queues q = []) ∨ ∃ q, Moves s.fence q := by
  have hreached := hc.reached_le
  rcases Nat.lt_or_ge s.fence.reached s.last_signal with hnext | hlast
  · obtain ⟨q, hq⟩ := h _ (Nat.lt_succ_self _) hnext
    refine .inr ⟨q, ?_⟩
    have horder := hc.orderly.order q
    unfold Moves
    split
    · rename_i hnil
      rw [hnil] at hq
      cases hq
    · rename_i value rest hcons
      rw [hcons] at hq horder
      change InOrder (max s.fence.reached value) rest at horder
      have hlt := InOrder.lt horder (.inr ((List.mem_cons.mp hq).resolve_left nofun))
      omega
    · trivial
  · refine or_iff_not_imp_left.mpr fun hsome => ?_
    obtain ⟨q, hq⟩ := not_forall.mp hsome
    refine ⟨q, ?_⟩
    have hlevel := hc.orderly.level_le q
    unfold Moves
    split
    · contradiction
    · rename_i value rest hcons
      rw [hcons] at hlevel
      have hseen : value ≤ level s.fence.reached (.wait value :: rest) :=
        Nat.le_trans (Nat.le_max_right _ _) le_level
      omega
    · trivial

end taxi_camera.SceneCaptureManager.DeviceTimeline
