-- Delivery of the messages: what is promised of it, what a snapshot under way
-- has copied, and what the reader has passed over.
import TaxiCam.EventLog

namespace taxi_camera.sim_messages.SimEventLog

open List

variable {s s' : SimEventLog}

/-! ## What is promised -/

/-- Room for all slots, and no posted time out of the fresh ones. -/
def Polled (s : SimEventLog) : Op → Prop
  | .take now_ms capacity =>
    ∀ log ∈ s.copied, NotificationSlots ≤ capacity ∧ ∀ slot ∈ log, slot.serial ≠ 0 →
      slot.posted_ms ≤ now_ms ∧ now_ms - slot.posted_ms ≤ FreshMs
  | _ => True

/-- An event whose call had returned when a snapshot began, and whose slot no newer call had
reserved when the snapshot ended, is delivered when the snapshot is taken. -/
def NothingLost (ops : List Op) : Prop :=
  ∀ pre mid after now_ms capacity,
    ops = pre ++ .begin_snapshot :: (mid ++ after ++ [.take now_ms capacity]) →
    (runs.run step {} pre).snapshot = .idle →
    (∀ now_ms capacity, .take now_ms capacity ∉ mid ++ after) →
    (runs.run step {} (pre ++ .begin_snapshot :: mid)).copied.isSome = true →
    ∀ c ∈ (runs.run step {} pre).calls, c.stage = .returned →
      (∀ d ∈ (runs.run step {} (pre ++ .begin_snapshot :: mid)).calls,
        slot_of d.serial = slot_of c.serial → d.serial ≤ c.serial) →
      ∃ e ∈ (runs.run step {} ops).events, e.serial = c.serial

def NothingTwice (s : SimEventLog) : Prop := s.events.Pairwise fun a b => a.serial ≠ b.serial

/-- What is delivered was published under its serial. -/
def KindsGiven (s : SimEventLog) : Prop :=
  ∀ e ∈ s.events, ∃ c ∈ s.calls, c.serial = e.serial ∧ c.event.value = e.event

/-- The snapshot skips no serial: one above the last serial and below another of the snapshot is
there too, or a newer event has reserved its slot. -/
def Gapless (s : SimEventLog) (log : List NotificationSlot) : Prop :=
  ∀ slot ∈ log, ∀ k < slot.serial, s.last_serial < k →
    (∃ e ∈ log, e.serial = k) ∨ k + NotificationSlots ≤ s.serial

/-- When the log keeps its promises: no two calls of a slot at a time, and no gaps. -/
def Orderly (s : SimEventLog) : Op → Prop
  | .publish event _ => event.value < SimEvent.count.value → s.Free
  | .take _ _ => ∀ log ∈ s.copied, s.Gapless log
  | _ => True

instance {log : List NotificationSlot} : Decidable (s.Gapless log) :=
  inferInstanceAs (Decidable (∀ slot ∈ log, ∀ k < slot.serial, _ → _))

instance decidable_polled (s : SimEventLog) : DecidablePred s.Polled
  | .take _ _ => inferInstanceAs (Decidable (∀ log ∈ s.copied, _ ∧ ∀ slot ∈ log, _ → _))
  | .publish .. | .store .. | .begin_snapshot | .load => .isTrue trivial

instance decidable_orderly (s : SimEventLog) : DecidablePred s.Orderly
  | .publish event _ => inferInstanceAs (Decidable (event.value < SimEvent.count.value → s.Free))
  | .take _ _ => inferInstanceAs (Decidable (∀ log ∈ s.copied, s.Gapless log))
  | .store .. | .begin_snapshot | .load => .isTrue trivial

/-! ## Calls stay -/

/-- Every call is still there, with what it was given, and has not gone back. -/
structure Later (s s' : SimEventLog) : Prop where
  serial : s.serial ≤ s'.serial
  calls : ∀ c ∈ s.calls, ∃ d ∈ s'.calls, d.serial = c.serial ∧ d.slot = c.slot ∧
    (c.stage ≠ .reserved → d.stage ≠ .reserved) ∧ (c.stage = .returned → d = c)

theorem later_refl (s : SimEventLog) : Later s s := ⟨le_rfl, fun c hc => ⟨c, hc, rfl, rfl, id, fun _ => rfl⟩⟩

theorem later_same (hserial : s'.serial = s.serial) (hcalls : s'.calls = s.calls) : Later s s' := by
  refine ⟨hserial.ge, fun c hc => ⟨c, ?_, rfl, rfl, id, fun _ => rfl⟩⟩
  rw [hcalls]
  exact hc

theorem store_later (h : Log s) (j : Nat) : Later s (s.store j) := by
  cases hj : s.calls[j]? with
  | none =>
    unfold store
    rw [hj]
    exact later_refl s
  | some c =>
    have hmem := h.mem_store hj { c with stage := c.stage.next }
    rw [store_call hj]
    refine ⟨le_rfl, fun d hd => ?_⟩
    by_cases hdc : d.serial = c.serial
    · obtain rfl := h.eq_of_serial hd (mem_of_getElem? hj) hdc
      refine ⟨_, (hmem _).mpr (.inl rfl), rfl, rfl, fun _ => d.stage.next_started, ?_⟩
      intro hreturned
      cases d
      cases hreturned
      rfl
    · exact ⟨d, (hmem d).mpr (.inr ⟨hd, hdc⟩), rfl, rfl, id, fun _ => rfl⟩

variable {i : Fin NotificationSlots} {log : List NotificationSlot} {before now_ms serial : Nat}
variable {seen : NotificationSlot → Prop} {event : SimEvent}

theorem reserve_later (hfree : event.value < SimEvent.count.value → s.Free) : Later s (s.reserve event now_ms) := by
  by_cases hevent : event.value < SimEvent.count.value
  · rw [reserve_free now_ms hevent (hfree hevent)]
    exact ⟨Nat.le_succ _, fun c hc => ⟨c, mem_append_left _ hc, rfl, rfl, id, fun _ => rfl⟩⟩
  unfold reserve
  rw [if_pos (by omega)]
  exact later_refl s

/-- What a snapshot or a take changes: neither the log nor its calls. -/
structure Reads (s s' : SimEventLog) : Prop where
  serial : s'.serial = s.serial
  slots : s'.slots = s.slots
  calls : s'.calls = s.calls

theorem begin_snapshot_reads (s : SimEventLog) : Reads s s.begin_snapshot := by
  unfold begin_snapshot
  split <;> exact ⟨rfl, rfl, rfl⟩

theorem load_reads (s : SimEventLog) : Reads s s.load := by
  unfold load
  split
  · exact ⟨rfl, rfl, rfl⟩
  · split <;> exact ⟨rfl, rfl, rfl⟩
  · exact ⟨rfl, rfl, rfl⟩
  · exact ⟨rfl, rfl, rfl⟩
  · exact ⟨rfl, rfl, rfl⟩

theorem take_reads (s : SimEventLog) (now_ms capacity : Nat) : Reads s (s.take now_ms capacity) := by
  unfold take
  split <;> exact ⟨rfl, rfl, rfl⟩

theorem step_log (s : SimEventLog) (op : Op) (h : Log s) (hop : s.Orderly op) :
    Log (step s op) ∧ Later s (step s op) := by
  have hreads {t : SimEventLog} (ht : Reads s t) : Log t ∧ Later s t :=
    ⟨h.same ht.serial ht.slots ht.calls, later_same ht.serial ht.calls⟩
  cases op with
  | publish event now_ms =>
    refine ⟨?_, reserve_later hop⟩
    by_cases hevent : event.value < SimEvent.count.value
    · exact h.reserve now_ms hevent (hop hevent)
    unfold step reserve
    dsimp only
    rw [if_pos (by omega)]
    exact h
  | store j => exact ⟨h.store j, store_later h j⟩
  | begin_snapshot => exact hreads (begin_snapshot_reads s)
  | load => exact hreads (load_reads s)
  | take now_ms capacity => exact hreads (take_reads s now_ms capacity)

/-! ## What a snapshot has read -/

/-- A newer call has started on the slot, so the serial does not come back. -/
def Gone (s : SimEventLog) (i : Fin NotificationSlots) (serial : Nat) : Prop :=
  ∃ c ∈ s.calls, slot_of c.serial = i ∧ serial < c.serial ∧ c.stage ≠ .reserved

/-- What was loaded of a slot after a serial is still there, or the serial is gone. -/
def Loaded (s : SimEventLog) (i : Fin NotificationSlots) (before : Nat)
    (seen : NotificationSlot → Prop) : Prop :=
  before = 0 ∨ Gone s i before ∨ (s.slots i).serial = before ∧ seen (s.slots i)

theorem Gone.later (h : Gone s i serial) (hl : Later s s') : Gone s' i serial := by
  obtain ⟨c, hc, hslot, hlt, hstarted⟩ := h
  obtain ⟨d, hd, heq, -, hstage, -⟩ := hl.calls c hc
  exact ⟨d, hd, heq ▸ hslot, heq ▸ hlt, hstage hstarted⟩

theorem Log.not_gone (h : Log s) (h0 : serial ≠ 0) (hslot : (s.slots i).serial = serial) : ¬Gone s i serial := by
  rintro ⟨c, hc, rfl, hlt, hstarted⟩
  have := h.started c hc hstarted
  omega

/-- A store spoils what was loaded of a slot only when it blanks the slot. -/
theorem Loaded.store (h : Log s) (hl : Loaded s i before seen) (j : Nat) : Loaded (s.store j) i before seen := by
  rcases hl with h0 | hgone | ⟨hserial, hseen⟩
  · exact .inl h0
  · exact .inr (.inl (hgone.later (store_later h j)))
  by_cases h0 : before = 0
  · exact .inl h0
  cases hj : s.calls[j]? with
  | none =>
    unfold SimEventLog.store
    rw [hj]
    exact .inr (.inr ⟨hserial, hseen⟩)
  | some c =>
    have hc : c ∈ s.calls := mem_of_getElem? hj
    have hmem := h.mem_store hj { c with stage := c.stage.next }
    by_cases hslot : i = slot_of c.serial
    · subst hslot
      by_cases hreturned : c.stage = .returned
      · rw [store_returned hj hreturned]
        exact .inr (.inr ⟨hserial, hseen⟩)
      -- The slot has a serial, so the call has not blanked it yet.
      obtain ⟨d, hd, hdstage, hdslot, hdeq⟩ := h.visible (slot_of c.serial) (by omega)
      have hds : d.serial = before := by
        rw [← hserial, hdeq]
        rfl
      have hne : d.serial ≠ c.serial := by
        intro heq
        rw [h.eq_of_serial hd hc heq] at hdstage
        exact hreturned hdstage
      have hlt := (h.under_way hc hreturned hd hdslot hne).1
      rw [store_call hj]
      exact .inr (.inl ⟨_, (hmem _).mpr (.inl rfl), rfl, hds ▸ hlt, c.stage.next_started⟩)
    rw [store_call hj]
    refine .inr (.inr ?_)
    dsimp only
    rw [Function.update_of_ne hslot]
    exact ⟨hserial, hseen⟩

theorem Loaded.same (h : Loaded s i before seen) (hl : Later s s') (hslots : s'.slots = s.slots) :
    Loaded s' i before seen := by
  rcases h with h0 | hgone | hkept
  · exact .inl h0
  · exact .inr (.inl (hgone.later hl))
  rw [← hslots] at hkept
  exact .inr (.inr hkept)

/-- Slots that are empty or hold what a call has stored. -/
def Genuine (s : SimEventLog) (out : List NotificationSlot) : Prop :=
  ∀ slot ∈ out, slot.serial ≠ 0 → ∃ c ∈ s.calls, slot = c.slot

theorem Genuine.later {out : List NotificationSlot} (h : Genuine s out) (hl : Later s s') :
    Genuine s' out := by
  intro slot hmem h0
  obtain ⟨c, hc, rfl⟩ := h slot hmem h0
  obtain ⟨d, hd, -, heq, -⟩ := hl.calls c hc
  exact ⟨d, hd, heq.symm⟩

/-- What the snapshot under way has copied and loaded. -/
def Copies (s : SimEventLog) : Prop :=
  match s.snapshot with
  | .idle => True
  | .load_serial out => Genuine s out
  | .load_posted out before => Genuine s out ∧ Loaded s (slot_of out.length) before fun _ => True
  | .load_event out before posted_ms =>
    Genuine s out ∧ Loaded s (slot_of out.length) before fun slot => slot.posted_ms = posted_ms
  | .load_again out before posted_ms event =>
    Genuine s out ∧ Loaded s (slot_of out.length) before fun slot =>
      slot.posted_ms = posted_ms ∧ slot.event = event

/-- The copy of a slot that was loaded whole. -/
theorem Loaded.copy (h : Log s) {posted_ms event : Nat}
    (hl : Loaded s i before fun slot => slot.posted_ms = posted_ms ∧ slot.event = event)
    (h0 : before ≠ 0) (hafter : before = (s.slots i).serial) :
    ∃ c ∈ s.calls, (⟨before, posted_ms, event⟩ : NotificationSlot) = c.slot := by
  rcases hl with hzero | hgone | ⟨-, hposted, hevent⟩
  · exact absurd hzero h0
  · exact absurd hgone (h.not_gone h0 hafter.symm)
  obtain ⟨c, hc, -, -, hslot⟩ := h.visible i (hafter ▸ h0)
  refine ⟨c, hc, ?_⟩
  rw [hafter, ← hposted, ← hevent, ← hslot]

theorem copies_load (h : Log s) (hc : Copies s) : Copies s.load := by
  unfold Copies at hc
  cases hsnap : s.snapshot with
  | idle =>
    have heq : s.load = s := by
      unfold load
      rw [hsnap]
    unfold Copies
    rw [heq, hsnap]
    trivial
  | load_serial out =>
    rw [hsnap] at hc
    by_cases hlength : out.length = NotificationSlots
    · have heq : s.load = s := by
        unfold load
        rw [hsnap]
        exact if_pos hlength
      unfold Copies
      rw [heq, hsnap]
      exact hc
    have heq : s.load = { s with snapshot := .load_posted out (s.slots (slot_of out.length)).serial } := by
      unfold load
      rw [hsnap]
      exact if_neg hlength
    rw [heq]
    exact ⟨hc, .inr (.inr ⟨rfl, trivial⟩)⟩
  | load_posted out before =>
    rw [hsnap] at hc
    have heq : s.load = { s with snapshot := .load_event out before (s.slots (slot_of out.length)).posted_ms } := by
      unfold load
      rw [hsnap]
    rw [heq]
    exact ⟨hc.1, hc.2.imp id (Or.imp id fun hkept => ⟨hkept.1, rfl⟩)⟩
  | load_event out before posted_ms =>
    rw [hsnap] at hc
    have heq : s.load = { s with
        snapshot := .load_again out before posted_ms (s.slots (slot_of out.length)).event } := by
      unfold load
      rw [hsnap]
    rw [heq]
    exact ⟨hc.1, hc.2.imp id (Or.imp id fun hkept => ⟨hkept.1, hkept.2, rfl⟩)⟩
  | load_again out before posted_ms event =>
    rw [hsnap] at hc
    obtain ⟨hgenuine, hloaded⟩ := hc
    unfold load
    rw [hsnap]
    intro slot hmem h0
    rcases mem_append.mp hmem with hold | hnew
    · exact hgenuine slot hold h0
    rw [mem_singleton.mp hnew] at h0 ⊢
    by_cases hcopy : before ≠ 0 ∧ before = (s.slots (slot_of out.length)).serial
    · rw [if_pos hcopy]
      exact hloaded.copy h hcopy.1 hcopy.2
    rw [if_neg hcopy] at h0
    exact absurd rfl h0

theorem copies_store (h : Log s) (hc : Copies s) (j : Nat) : Copies (s.store j) := by
  have hlater := store_later h j
  have hsnap : (s.store j).snapshot = s.snapshot := by
    unfold store
    split <;> rfl
  unfold Copies at hc ⊢
  rw [hsnap]
  cases hs : s.snapshot <;> rw [hs] at hc
  · trivial
  · exact hc.later hlater
  all_goals exact ⟨hc.1.later hlater, hc.2.store h j⟩

theorem copies_reserve (hc : Copies s)
    (hlater : Later s (s.reserve event now_ms)) : Copies (s.reserve event now_ms) := by
  have hsnap : (s.reserve event now_ms).snapshot = s.snapshot ∧ (s.reserve event now_ms).slots = s.slots := by
    unfold reserve
    split <;> exact ⟨rfl, rfl⟩
  unfold Copies at hc ⊢
  rw [hsnap.1]
  cases hs : s.snapshot <;> rw [hs] at hc
  · trivial
  · exact hc.later hlater
  all_goals exact ⟨hc.1.later hlater, hc.2.same hlater hsnap.2⟩

/-- The copied log of a finished snapshot. -/
theorem copied_some (h : s.copied = some log) : s.snapshot = .load_serial log ∧ log.length = NotificationSlots := by
  unfold copied at h
  split at h
  · rename_i out hsnap
    split at h
    · rename_i hlength
      obtain rfl := Option.some.inj h
      exact ⟨hsnap, hlength⟩
    · cases h
  · cases h

theorem copies_copied (hc : Copies s) (h : s.copied = some log) : Genuine s log := by
  unfold Copies at hc
  rw [(copied_some h).1] at hc
  exact hc

theorem step_copies (s : SimEventLog) (op : Op) (h : Log s) (hop : s.Orderly op)
    (hc : Copies s) : Copies (step s op) := by
  have hlater := (step_log s op h hop).2
  cases op with
  | publish event now_ms => exact copies_reserve hc hlater
  | store j => exact copies_store h hc j
  | begin_snapshot =>
    show Copies s.begin_snapshot
    unfold begin_snapshot
    split
    · exact fun slot hmem => nomatch hmem
    · exact hc
  | load => exact copies_load h hc
  | take now_ms capacity =>
    show Copies (s.take now_ms capacity)
    unfold take
    split
    · exact hc
    · trivial

/-! ## What the reader has passed -/

/-- A serial that the reader has passed was delivered, or a newer event has reserved its slot. -/
def Passed (s : SimEventLog) : Prop :=
  ∀ k, k ≠ 0 → k ≤ s.last_serial →
    (∃ e ∈ s.events, e.serial = k) ∨ k + NotificationSlots ≤ s.serial

/-- What was delivered lies up to the last serial, oldest first. -/
def Delivered (s : SimEventLog) : Prop :=
  (s.events.Pairwise fun a b => a.serial < b.serial) ∧ ∀ e ∈ s.events, e.serial ≤ s.last_serial

theorem take_copied (h : s.copied = some log) (now_ms capacity : Nat) : s.take now_ms capacity =
      { s with
          snapshot := .idle
          last_serial := (NotificationReader.take s.last_serial log now_ms capacity).1
          events := s.events ++ (NotificationReader.take s.last_serial log now_ms capacity).2 } := by
  unfold take
  rw [h]

/-- Only a take that finds a copied log reads on. -/
theorem step_reader (s : SimEventLog) (op : Op) :
    ((step s op).events = s.events ∧ (step s op).last_serial = s.last_serial) ∨
      ∃ now_ms capacity log, op = .take now_ms capacity ∧ s.copied = some log := by
  cases op with
  | publish event now_ms =>
    refine .inl ?_
    show (s.reserve event now_ms).events = _ ∧ (s.reserve event now_ms).last_serial = _
    unfold reserve
    split <;> exact ⟨rfl, rfl⟩
  | store j =>
    refine .inl ?_
    show (s.store j).events = _ ∧ (s.store j).last_serial = _
    unfold store
    split <;> exact ⟨rfl, rfl⟩
  | begin_snapshot =>
    refine .inl ?_
    show s.begin_snapshot.events = _ ∧ s.begin_snapshot.last_serial = _
    unfold begin_snapshot
    split <;> exact ⟨rfl, rfl⟩
  | load =>
    refine .inl ?_
    show s.load.events = _ ∧ s.load.last_serial = _
    unfold load
    split
    · exact ⟨rfl, rfl⟩
    · split <;> exact ⟨rfl, rfl⟩
    · exact ⟨rfl, rfl⟩
    · exact ⟨rfl, rfl⟩
    · exact ⟨rfl, rfl⟩
  | take now_ms capacity =>
    cases hlog : s.copied with
    | none =>
      refine .inl ?_
      show (s.take now_ms capacity).events = _ ∧ (s.take now_ms capacity).last_serial = _
      unfold take
      rw [hlog]
      exact ⟨rfl, rfl⟩
    | some log => exact .inr ⟨now_ms, capacity, log, rfl, rfl⟩

theorem step_delivered (s : SimEventLog) (op : Op) (h : Delivered s) : Delivered (step s op) := by
  rcases step_reader s op with ⟨hevents, hlast⟩ | ⟨now_ms, capacity, log, rfl, hlog⟩
  · unfold Delivered
    rw [hevents, hlast]
    exact h
  show Delivered (s.take now_ms capacity)
  rw [take_copied hlog]
  have hyields := NotificationReader.take_yields s.last_serial log now_ms capacity
  refine ⟨pairwise_append.mpr ⟨h.1, hyields.ordered, fun a ha b hb => ?_⟩, fun e he => ?_⟩
  · exact lt_of_le_of_lt (h.2 a ha) (hyields.mem b hb).2.1
  · rcases mem_append.mp he with he | he
    · exact (h.2 e he).trans hyields.grows
    · exact (hyields.mem e he).2.2

/-- No serial is delivered twice, in any run. -/
theorem nothing_twice (ops : List Op) : NothingTwice (runs.run step {} ops) := by
  have h : Delivered (runs.run step {} ops) :=
    runs.invariant step_delivered ops ⟨List.Pairwise.nil, fun _ h => nomatch h⟩
  exact h.1.imp fun hlt => Nat.ne_of_lt hlt

/-- What an orderly log keeps in every state. -/
structure Kept (s : SimEventLog) : Prop where
  log : Log s
  copies : Copies s
  passed : Passed s
  kinds : KindsGiven s

theorem kept_initial : Kept {} :=
  ⟨log_initial, trivial, fun _ h0 h => absurd (Nat.le_zero.mp h) h0, fun _ h => nomatch h⟩

theorem KindsGiven.later (h : KindsGiven s) (hl : Later s s') (hevents : s'.events = s.events) :
    KindsGiven s' := by
  intro e he
  rw [hevents] at he
  obtain ⟨c, hc, hserial, hkind⟩ := h e he
  obtain ⟨d, hd, heq, hslot, -⟩ := hl.calls c hc
  exact ⟨d, hd, heq.trans hserial, (congrArg NotificationSlot.event hslot).trans hkind⟩

/-- The slots of a copied log are fresh when the polls are. -/
theorem Kept.fresh (h : Kept s) {capacity : Nat}
    (hlog : s.copied = some log) (hpolled : s.Polled (.take now_ms capacity)) :
    ∀ slot ∈ log, slot.serial ≠ 0 → NotificationReader.fresh now_ms slot = true := by
  intro slot hmem h0
  obtain ⟨c, hc, rfl⟩ := copies_copied h.copies hlog slot hmem h0
  obtain ⟨hle, hms⟩ := (hpolled log hlog).2 c.slot hmem h0
  exact decide_eq_true ⟨hle, hms, h.log.kinds c hc⟩

theorem step_kept (s : SimEventLog) (op : Op) (h : Kept s) (hop : s.Polled op ∧ s.Orderly op) : Kept (step s op) := by
  obtain ⟨hlog, hlater⟩ := step_log s op h.log hop.2
  refine ⟨hlog, step_copies s op h.log hop.2 h.copies, ?_, ?_⟩
  · rcases step_reader s op with ⟨hevents, hlast⟩ | ⟨now_ms, capacity, log, rfl, hcopied⟩
    · intro k h0 hk
      rw [hevents]
      rw [hlast] at hk
      exact (h.passed k h0 hk).imp id fun hle => hle.trans hlater.serial
    obtain ⟨hroom, -⟩ := hop.1 log hcopied
    have hgapless := hop.2 log hcopied
    have hall := NotificationReader.take_all s.last_serial (h.fresh hcopied hop.1)
      ((copied_some hcopied).2.le.trans hroom)
    have hyields := NotificationReader.take_yields s.last_serial log now_ms capacity
    show Passed (s.take now_ms capacity)
    rw [take_copied hcopied]
    intro k h0 hk
    dsimp only at hk ⊢
    rcases Nat.lt_or_ge s.last_serial k with hnew | hold
    · have hseen : (∃ e ∈ log, e.serial = k) ∨ k + NotificationSlots ≤ s.serial := by
        rcases hyields.seen with hsame | ⟨slot, hmem, hslot⟩
        · omega
        rcases Nat.lt_or_eq_of_le hk with hlt | heq
        · exact hgapless slot hmem k (hslot ▸ hlt) hnew
        · exact .inl ⟨slot, hmem, hslot.trans heq.symm⟩
      refine hseen.imp ?_ id
      rintro ⟨slot, hmem, rfl⟩
      obtain ⟨e, he, heq⟩ := hall slot hmem hnew
      exact ⟨e, mem_append_right _ he, heq⟩
    refine (h.passed k h0 hold).imp ?_ id
    rintro ⟨e, he, heq⟩
    exact ⟨e, mem_append_left _ he, heq⟩
  · rcases step_reader s op with ⟨hevents, -⟩ | ⟨now_ms, capacity, log, rfl, hcopied⟩
    · exact h.kinds.later hlater hevents
    have hyields := NotificationReader.take_yields s.last_serial log now_ms capacity
    show KindsGiven (s.take now_ms capacity)
    rw [take_copied hcopied]
    intro e he
    rcases mem_append.mp he with he | he
    · exact h.kinds e he
    obtain ⟨hmem, habove, -⟩ := hyields.mem e he
    obtain ⟨c, hc, rfl⟩ := copies_copied h.copies hcopied e hmem (by omega)
    exact ⟨c, hc, rfl, rfl⟩

end taxi_camera.sim_messages.SimEventLog
