-- What a batch of the simulator waits for: receipts of its own queue, and
-- receipts that the timeline had reached. Only the last simulator receipt is
-- checked, and the check of that receipt has covered the ones before it.
import TaxiCam.TimelineOrder

namespace taxi_camera.SceneCaptureManager.DeviceTimeline

open fence_queues

variable {s : DeviceTimeline}

/-! ## What a Wait is for -/

/-- Receipt `a` waits for receipt `b`, or for a receipt that does. -/
inductive WaitsFor (waits : Nat → Option Nat) : Nat → Nat → Prop
  | direct {a b : Nat} : waits a = some b → WaitsFor waits a b
  | through {a b c : Nat} : waits a = some b → WaitsFor waits b c → WaitsFor waits a c

/-- The timeline has reached the value, and as long as the watchdog has signalled nothing, the work
of its receipt is done. -/
def Finished (s : DeviceTimeline) (value : Nat) : Prop :=
  value ≤ s.fence.highest ∧
    (s.signals = [] → value ≤ s.fence.completed ∧ ¬ s.fence.Unfinished value)

/-- The value is of a receipt of the simulator, on the queue. -/
def Simulator (s : DeviceTimeline) (value queue : Nat) : Prop :=
  s.receipts value = some { queue, private_work := false }

/-- The batch has no capture packets. -/
def plain : Turn → Bool
  | .before_submission _ mask => !mask
  | _ => true

/-- When the Wait of a batch of the simulator is queued, each simulator receipt that it is for is
finished, or of the queue of the batch. -/
def WaitsForItself (s : DeviceTimeline) (turn : Turn) : Prop :=
  turn = .queue_transaction_wait true → ∀ t, s.transaction = some t → t.phase = .reserved →
    t.private_work = false → s.last_signal ≠ 0 →
      ∀ value queue, WaitsFor (s.step turn).waits t.value value → s.Simulator value queue →
        s.Finished value ∨ queue = t.queue

/-! ## The invariant -/

/-- Every simulator receipt up to the last one has been reached, or is of the queue. -/
def Covered (s : DeviceTimeline) (queue : Nat) : Prop :=
  ∀ value other, value ≤ s.last_simulator_signal → s.Simulator value other →
    value ≤ s.fence.highest ∨ other = queue

structure Followed (s : DeviceTimeline) : Prop where
  waits_lt : ∀ a b, s.waits a = some b → b < a
  simulator_le : s.last_simulator_signal ≤ s.last_signal
  last : ∀ value queue, value ≤ s.last_signal → s.Simulator value queue →
    value ≤ s.last_simulator_signal
  covered : s.Covered s.last_simulator_queue
  completed_le : s.fence.completed ≤ s.fence.highest
  reserved : ∀ t, s.transaction = some t → t.value = s.last_signal + 1 ∧
    s.receipts t.value = some { queue := t.queue, private_work := t.private_work }
  checked : ∀ t, s.transaction = some t → t.private_work = false → s.Covered t.queue

theorem followed_initial : Followed {} where
  waits_lt _ _ h := by cases h
  simulator_le := Nat.le_refl _
  last _ _ _ h := by cases h
  covered _ _ _ h := by cases h
  completed_le := Nat.le_refl _
  reserved _ h := by cases h
  checked _ h := by cases h

/-- A chain of Waits goes to smaller values. -/
theorem Followed.lt_of_waits (h : s.Followed) {a b : Nat} (hw : WaitsFor s.waits a b) : b < a := by
  induction hw with
  | direct ha => exact h.waits_lt _ _ ha
  | through ha _ ih => exact Nat.lt_trans ih (h.waits_lt _ _ ha)

/-! ## One turn -/

variable {later : DeviceTimeline} {queue : Nat}

theorem Covered.mono (h : s.Covered queue) (hlast : later.last_simulator_signal = s.last_simulator_signal)
    (hreceipts : later.receipts = s.receipts) (hhighest : s.fence.highest ≤ later.fence.highest) :
    later.Covered queue := by
  intro value other hv hs
  unfold Simulator at hs
  rw [hreceipts] at hs
  rw [hlast] at hv
  rcases h value other hv hs with hle | he
  · exact .inl (Nat.le_trans hle hhighest)
  · exact .inr he

/-- A turn that begins and ends no receipt, and may take the thread of one on. -/
theorem Followed.go_on (h : s.Followed) (hlast : later.last_signal = s.last_signal)
    (hqueue : later.last_simulator_queue = s.last_simulator_queue)
    (hsignal : later.last_simulator_signal = s.last_simulator_signal)
    (hreceipts : later.receipts = s.receipts)
    (hwaits : ∀ a b, later.waits a = some b → b < a)
    (hhighest : s.fence.highest ≤ later.fence.highest)
    (hcompleted : later.fence.completed ≤ later.fence.highest)
    (htransaction : ∀ t, later.transaction = some t → ∃ t', s.transaction = some t' ∧
      t.value = t'.value ∧ t.queue = t'.queue ∧ t.private_work = t'.private_work) :
    later.Followed := by
  refine ⟨hwaits, ?_, ?_, ?_, hcompleted, ?_, ?_⟩
  · rw [hsignal, hlast]
    exact h.simulator_le
  · intro value queue hv hs
    unfold Simulator at hs
    rw [hreceipts] at hs
    rw [hlast] at hv
    rw [hsignal]
    exact h.last value queue hv hs
  · rw [hqueue]
    exact h.covered.mono hsignal hreceipts hhighest
  · intro t ht
    obtain ⟨t', ht', hvalue, hqueue', hprivate⟩ := htransaction t ht
    rw [hvalue, hqueue', hprivate, hlast, hreceipts]
    exact h.reserved t' ht'
  · intro t ht hp
    obtain ⟨t', ht', -, hqueue', hprivate⟩ := htransaction t ht
    rw [hqueue']
    exact (h.checked t' ht' (hprivate ▸ hp)).mono hsignal hreceipts hhighest

theorem Followed.begin_transaction (h : s.Followed) (queue : Nat)
    (private_work : Bool) (hcovered : private_work = false → s.Covered queue) :
    (s.begin_transaction queue private_work).Followed := by
  unfold DeviceTimeline.begin_transaction
  split
  · refine h.go_on rfl rfl rfl rfl h.waits_lt (Nat.le_refl _) h.completed_le ?_
    intro t ht
    exact ⟨t, ht, rfl, rfl, rfl⟩
  -- the receipts up to the last one are as they were
  have hold (value other : Nat) (hv : value ≤ s.last_signal)
      (hs : Function.update s.receipts (s.last_signal + 1) (some { queue, private_work }) value =
        some { queue := other, private_work := false }) : s.Simulator value other := by
    rwa [Function.update_of_ne (by omega)] at hs
  have hcover (q : Nat) (hq : s.Covered q) : ∀ value other, value ≤ s.last_simulator_signal →
      Function.update s.receipts (s.last_signal + 1) (some { queue, private_work }) value =
        some { queue := other, private_work := false } →
      value ≤ s.fence.highest ∨ other = q := by
    intro value other hv hs
    exact hq value other hv (hold value other (Nat.le_trans hv h.simulator_le) hs)
  refine ⟨h.waits_lt, h.simulator_le, ?_, hcover _ h.covered, h.completed_le, ?_, ?_⟩
  · intro value other hv hs
    exact h.last value other hv (hold value other hv hs)
  · intro t ht
    rw [Option.some.injEq] at ht
    subst ht
    exact ⟨rfl, Function.update_self _ _ _⟩
  · intro t ht hp
    rw [Option.some.injEq] at ht
    subst ht
    exact hcover queue (hcovered hp)

/-- The check of a batch without packets. -/
theorem Followed.covered_of_check (h : s.Followed)
    (hcheck : s.cross_queue_unfinished queue = false) : s.Covered queue := by
  intro value other hv hs
  unfold cross_queue_unfinished at hcheck
  simp only [Bool.and_eq_false_iff, bne_eq_false_iff_eq, decide_eq_false_iff_not, Nat.not_lt] at hcheck
  rcases hcheck with (hzero | hqueue) | hreached
  · left
    omega
  · rw [← hqueue]
    exact h.covered value other hv hs
  left
  have := h.completed_le
  omega

theorem Followed.before_submission (h : s.Followed) (queue : Nat) : (s.before_submission queue false).Followed := by
  unfold DeviceTimeline.before_submission
  split
  · exact h
  split
  · exact h
  rename_i hcheck
  apply h.begin_transaction
  intro _
  apply h.covered_of_check
  simpa using hcheck

theorem Followed.queue_transaction_wait (h : s.Followed) (succeeded : Bool) :
    (s.queue_transaction_wait succeeded).Followed := by
  unfold DeviceTimeline.queue_transaction_wait
  split
  · rename_i t ht
    have hsame (phase : Phase) (t' : Transaction) (ht' : some { t with phase } = some t') :
        ∃ t'', s.transaction = some t'' ∧ t'.value = t''.value ∧ t'.queue = t''.queue ∧
          t'.private_work = t''.private_work := by
      rw [Option.some.injEq] at ht'
      subst ht'
      exact ⟨t, ht, rfl, rfl, rfl⟩
    split
    · exact h
    split
    · exact h.go_on rfl rfl rfl rfl h.waits_lt (Nat.le_refl _) h.completed_le (hsame _)
    split
    · refine h.go_on rfl rfl rfl rfl ?_ (Nat.le_refl _) h.completed_le (hsame _)
      intro a b hab
      dsimp only at hab
      by_cases ha : a = t.value
      · subst ha
        rw [Function.update_self, Option.some.injEq] at hab
        have hvalue := (h.reserved t ht).1
        omega
      rw [Function.update_of_ne ha] at hab
      exact h.waits_lt a b hab
    refine h.go_on rfl rfl rfl rfl h.waits_lt (Nat.le_refl _) h.completed_le ?_
    intro t' ht'
    cases ht'
  · exact h

theorem Followed.finish_transaction (h : s.Followed) (succeeded : Bool) :
    (s.finish_transaction succeeded).Followed := by
  unfold DeviceTimeline.finish_transaction
  split
  · rename_i t ht
    obtain ⟨hvalue, hreceipt⟩ := h.reserved t ht
    split
    · exact h
    split
    · refine h.go_on rfl rfl rfl rfl h.waits_lt (Nat.le_refl _) h.completed_le ?_
      intro t' ht'
      cases ht'
    have hle := h.simulator_le
    -- the receipts up to the last one, and the one that ends
    have hcases (value other : Nat) (hv : value ≤ t.value) (hs : s.Simulator value other) :
        value ≤ s.last_simulator_signal ∨ (value = t.value ∧ t.private_work = false ∧ other = t.queue) := by
      by_cases he : value = t.value
      · right
        unfold Simulator at hs
        rw [he, hreceipt, Option.some.injEq, Receipt.mk.injEq] at hs
        exact ⟨he, hs.2, hs.1.symm⟩
      left
      exact h.last value other (by omega) hs
    cases hp : t.private_work with
    | true =>
      refine ⟨h.waits_lt, ?_, ?_, h.covered, h.completed_le, fun _ ht' => (nomatch ht'), fun _ ht' => (nomatch ht')⟩
      · simp only [if_true]
        omega
      · intro value other hv hs
        rcases hcases value other hv hs with hlast | ⟨-, hprivate, -⟩
        · exact hlast
        rw [hp] at hprivate
        cases hprivate
    | false =>
      refine ⟨h.waits_lt, Nat.le_refl _, fun _ _ hv _ => hv, ?_, h.completed_le,
        fun _ ht' => (nomatch ht'), fun _ ht' => (nomatch ht')⟩
      intro value other hv hs
      rcases hcases value other hv hs with hlast | ⟨-, -, hqueue⟩
      · exact h.checked t ht hp value other hlast hs
      · exact .inr hqueue
  · exact h

theorem Followed.begin_private_submission (h : s.Followed) (queue : Nat) :
    (s.begin_private_submission queue).Followed := by
  unfold DeviceTimeline.begin_private_submission
  split
  · exact h
  apply h.begin_transaction
  intro hp
  cases hp

/-- The values of the fence change, and no value is higher than the highest. -/
theorem Followed.values (h : s.Followed) (fence : Fence) (released : Nat) (watchdog : Watchdog)
    (signals : List Nat) (hhighest : s.fence.highest ≤ fence.highest)
    (hcompleted : fence.completed ≤ fence.highest) :
    Followed { s with fence, released, watchdog, signals } := by
  refine h.go_on rfl rfl rfl rfl h.waits_lt hhighest hcompleted ?_
  intro t ht
  exact ⟨t, ht, rfl, rfl, rfl⟩

theorem Followed.step (h : s.Followed) (turn : Turn) (hplain : plain turn = true) : (s.step turn).Followed := by
  have hsame (t : Transaction) (ht : s.transaction = some t) : ∃ t', s.transaction = some t' ∧
      t.value = t'.value ∧ t.queue = t'.queue ∧ t.private_work = t'.private_work :=
    ⟨t, ht, rfl, rfl, rfl⟩
  cases turn with
  | before_submission queue mask =>
    have hmask : mask = false := by
      unfold plain at hplain
      simpa using hplain
    subst hmask
    exact h.before_submission queue
  | begin_private_submission queue => exact h.begin_private_submission queue
  | queue_transaction_wait succeeded => exact h.queue_transaction_wait succeeded
  | publish_queued_wait =>
    unfold DeviceTimeline.step publish_queued_wait
    dsimp only
    split
    · rename_i t ht
      split
      · exact h
      refine h.go_on rfl rfl rfl rfl h.waits_lt (Nat.le_refl _) h.completed_le ?_
      intro t' ht'
      rw [Option.some.injEq] at ht'
      subst ht'
      exact ⟨t, ht, rfl, rfl, rfl⟩
    · exact h
  | forward =>
    unfold DeviceTimeline.step forward
    dsimp only
    split
    · split
      · exact h
      · exact h.go_on rfl rfl rfl rfl h.waits_lt (Nat.le_refl _) h.completed_le hsame
    · exact h
  | finish_transaction succeeded => exact h.finish_transaction succeeded
  | fail => exact h.go_on rfl rfl rfl rfl h.waits_lt (Nat.le_refl _) h.completed_le hsame
  | release_queued_waits =>
    unfold DeviceTimeline.step release_queued_waits
    dsimp only
    split
    · split
      · exact h
      · exact h.values _ _ _ _ (Nat.le_refl _) h.completed_le
    · exact h
  | read_completed =>
    unfold DeviceTimeline.step read_completed
    dsimp only
    split
    · split <;> exact h.values _ _ _ _ (Nat.le_refl _) h.completed_le
    · exact h
  | signal_waited succeeded =>
    unfold DeviceTimeline.step signal_waited
    dsimp only
    split
    · rename_i waited hw
      split
      · exact h.values _ _ _ _ (Nat.le_max_left _ _) (Nat.le_max_right _ _)
      · exact h.values _ _ _ _ (Nat.le_refl _) h.completed_le
    · exact h
  | advance q =>
    have hle := h.completed_le
    refine h.values (s.fence.advance q) _ _ _ ?_ ?_
    · rcases Fence.advance_values s.fence q with ⟨-, -, hh⟩ | ⟨value, rest, -, -, -, hh⟩
      · exact Nat.le_of_eq hh.symm
      rw [hh]
      exact Nat.le_max_left _ _
    · rcases Fence.advance_values s.fence q with ⟨hc, -, hh⟩ | ⟨value, rest, -, hc, -, hh⟩
      · rw [hc, hh]
        exact hle
      rw [hc, hh]
      exact Nat.le_max_right _ _

/-! ## A timeline that the watchdog has not signalled -/

/-- As long as the watchdog has signalled nothing, the receipts are chained, and the timeline has
never been higher. -/
def Unsignalled (s : DeviceTimeline) : Prop :=
  s.signals = [] → s.Chained ∧ s.fence.completed = s.fence.highest

/-- What the watchdog has signalled is not forgotten. -/
theorem signals_of_step (turn : Turn) (hnone : (s.step turn).signals = []) : s.signals = [] := by
  rcases sameValues_step s turn with hsame | ⟨waited, rfl, hw⟩ | ⟨q, rfl⟩
  · rw [← hsame.signals, hnone]
  · rw [step_signal_waited hw] at hnone
    simp at hnone
  · exact hnone

/-- A turn in which the watchdog signals nothing, as it has before, is harmless. -/
theorem Chained.harmless (h : s.Chained) (turn : Turn) (hnone : (s.step turn).signals = []) : s.Harmless turn := by
  have hold := signals_of_step turn hnone
  have hreached := h.reached_eq (fun value hv => by rw [hold] at hv; cases hv)
  unfold Harmless
  split
  · split
    · rename_i waited hw
      rw [step_signal_waited hw] at hnone
      simp at hnone
    · trivial
  · split
    · intro hle
      omega
    · trivial
  · trivial

theorem Unsignalled.step (h : s.Unsignalled) (turn : Turn) : (s.step turn).Unsignalled := by
  intro hnone
  obtain ⟨hchained, hhighest⟩ := h (signals_of_step turn hnone)
  have hharmless := hchained.harmless turn hnone
  refine ⟨hchained.step turn hharmless, ?_⟩
  have hsteady := hchained.steady turn hharmless
  rcases sameValues_step s turn with hsame | ⟨waited, rfl, hw⟩ | ⟨q, rfl⟩
  · rw [hsame.completed, hsame.highest, hhighest]
  · rw [step_signal_waited hw] at hnone
    simp at hnone
  change (s.fence.advance q).completed = (s.fence.advance q).highest
  change s.fence.completed ≤ (s.fence.advance q).completed at hsteady
  rcases Fence.advance_values s.fence q with ⟨hc, -, hh⟩ | ⟨value, rest, -, hc, -, hh⟩ <;> omega

/-! ## The law -/

theorem Followed.waits_for_itself (h : s.Followed) (hunsignalled : s.Unsignalled) (turn : Turn)
    (hplain : plain turn = true) : s.WaitsForItself turn := by
  intro hturn t ht _ hp _ value queue hwaits hsimulator
  have hlt := (h.step turn hplain).lt_of_waits hwaits
  have hvalue := (h.reserved t ht).1
  have hlast := h.last value queue (by omega) hsimulator
  rcases h.checked t ht hp value queue hlast hsimulator with hle | hqueue
  · left
    refine ⟨hle, fun hnone => ?_⟩
    obtain ⟨hchained, hhighest⟩ := hunsignalled hnone
    have hcompleted : value ≤ s.fence.completed := hhighest ▸ hle
    refine ⟨hcompleted, hchained.complete ?_ value hcompleted⟩
    intro v hv
    rw [hnone] at hv
    cases hv
  · exact .inr hqueue

/-- In every run of batches without capture packets and of private submissions, whenever the Wait
of a batch of the simulator is queued, every simulator receipt that it is for, at once or through
other receipts, is finished or was submitted on the queue of the batch. -/
theorem batches_wait_for_their_own_queue (turns : List Turn) (hplain : ∀ turn ∈ turns, plain turn = true) :
    runs.Guarded step WaitsForItself {} turns := by
  have hstep (t : DeviceTimeline) (turn : Turn) (ht : t.Followed ∧ t.Unsignalled)
      (hturn : plain turn = true) : t.WaitsForItself turn ∧ (t.step turn).Followed ∧ (t.step turn).Unsignalled :=
    ⟨ht.1.waits_for_itself ht.2 turn hturn, ht.1.step turn hturn, ht.2.step turn⟩
  have hinitial : Unsignalled {} := fun _ => ⟨chained_initial, rfl⟩
  exact runs.guarded_of_invariant hstep turns ⟨followed_initial, hinitial⟩ (runs.guarded_of_forall turns hplain)

/-- A batch of queue 2 waits for private work of queue 3, which waits for a batch of queue 1: the
timeline has reached the receipt of the batch by then. -/
theorem batch_waits_behind_private_work :
    let turns := receipt (.before_submission 1 false) ++ receipt (.begin_private_submission 3) ++
      [.before_submission 2 false, .advance 1, .advance 1] ++ receipt (.before_submission 2 false)
    (runs.run step {} turns).fence.queues 2 = [.wait 2, .work 3, .signal 3] ∧
      runs.Guarded step WaitsForItself {} turns := by
  intro turns
  exact ⟨by decide +kernel, batches_wait_for_their_own_queue turns (by decide +kernel)⟩

end taxi_camera.SceneCaptureManager.DeviceTimeline
