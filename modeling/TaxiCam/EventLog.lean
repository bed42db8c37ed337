-- What the log holds while publish calls are under way, each slot with one
-- call at a time: a slot with a serial holds the event of that serial, and the
-- last call that returned is still there until a newer one starts.
import TaxiCam.MessageReader

namespace taxi_camera.sim_messages

/-- What a call has stored when it returns. -/
def Call.slot (c : Call) : NotificationSlot := ⟨c.serial, c.posted_ms, c.event.value⟩

/-- What a call under way has stored so far. -/
def Call.Filling (c : Call) (slot : NotificationSlot) : Prop :=
  match c.stage with
  | .blanked => slot.serial = 0
  | .evented => slot.serial = 0 ∧ slot.event = c.event.value
  | .timed => slot.serial = 0 ∧ slot.event = c.event.value ∧ slot.posted_ms = c.posted_ms
  | .reserved | .returned => True

theorem Stage.next_started (stage : Stage) : stage.next ≠ .reserved := by
  cases stage <;> decide

namespace SimEventLog

variable {s s' : SimEventLog}

/-! ## The log -/

/-- A publish call may reserve a serial: no call of its slot is under way. -/
def Free (s : SimEventLog) : Prop :=
  s.serial + 1 < 0x10000000000000000 ∧
    ∀ c ∈ s.calls, slot_of c.serial = slot_of (s.serial + 1) → c.stage = .returned

instance : Decidable s.Free := inferInstanceAs (Decidable (_ ∧ _))

structure Log (s : SimEventLog) : Prop where
  numbered : ∀ j c, s.calls[j]? = some c → c.serial = j + 1
  count : s.serial = s.calls.length
  kinds : ∀ c ∈ s.calls, c.event.value < SimEvent.count.value
  /-- Of the calls of a slot, only the newest is under way. -/
  ordered : ∀ c ∈ s.calls, ∀ d ∈ s.calls, slot_of c.serial = slot_of d.serial →
    c.serial < d.serial → c.stage = .returned
  filling : ∀ c ∈ s.calls, c.Filling (s.slots (slot_of c.serial))
  visible : ∀ i, (s.slots i).serial ≠ 0 →
    ∃ c ∈ s.calls, c.stage = .returned ∧ slot_of c.serial = i ∧ s.slots i = c.slot
  started : ∀ c ∈ s.calls, c.stage ≠ .reserved →
    (s.slots (slot_of c.serial)).serial = 0 ∨ c.serial ≤ (s.slots (slot_of c.serial)).serial
  newest : ∀ c ∈ s.calls, c.stage = .returned →
    (∀ d ∈ s.calls, slot_of d.serial = slot_of c.serial → c.serial < d.serial →
      d.stage = .reserved) → (s.slots (slot_of c.serial)).serial = c.serial

theorem log_initial : Log {} :=
  ⟨fun _ _ h => (nomatch h), rfl, fun _ h => (nomatch h), fun _ h => (nomatch h),
    fun _ h => (nomatch h), fun _ h => absurd rfl h, fun _ h => (nomatch h),
    fun _ h => (nomatch h)⟩

/-- The snapshot and the reader leave the log alone. -/
theorem Log.same (h : Log s) (hserial : s'.serial = s.serial) (hslots : s'.slots = s.slots)
    (hcalls : s'.calls = s.calls) : Log s' := by
  refine ⟨?_, ?_, ?_, ?_, ?_, ?_, ?_, ?_⟩ <;> simp only [hserial, hslots, hcalls]
  · exact h.numbered
  · exact h.count
  · exact h.kinds
  · exact h.ordered
  · exact h.filling
  · exact h.visible
  · exact h.started
  · exact h.newest

theorem Log.serial_le (h : Log s) {c : Call} (hc : c ∈ s.calls) : c.serial ≠ 0 ∧ c.serial ≤ s.serial := by
  obtain ⟨j, hj⟩ := List.getElem?_of_mem hc
  have hlt := (List.getElem?_eq_some_iff.mp hj).1
  have := h.numbered j c hj
  have := h.count
  omega

theorem Log.call_of_serial (h : Log s) {k : Nat} (h0 : k ≠ 0) (hk : k ≤ s.serial) : ∃ c ∈ s.calls, c.serial = k := by
  have hlt : k - 1 < s.calls.length := by
    have := h.count
    omega
  refine ⟨s.calls[k - 1], List.getElem_mem hlt, ?_⟩
  have := h.numbered (k - 1) _ (List.getElem?_eq_getElem hlt)
  omega

theorem Log.eq_of_serial (h : Log s) {c d : Call} (hc : c ∈ s.calls) (hd : d ∈ s.calls)
    (heq : c.serial = d.serial) : c = d := by
  obtain ⟨j, hj⟩ := List.getElem?_of_mem hc
  obtain ⟨k, hk⟩ := List.getElem?_of_mem hd
  have := h.numbered j c hj
  have := h.numbered k d hk
  obtain rfl : j = k := by omega
  exact Option.some.inj (hj.symm.trans hk)

/-! ## A reservation -/

variable {event : SimEvent}

theorem reserve_free (now_ms : Nat) (hevent : event.value < SimEvent.count.value)
    (hfree : s.Free) : s.reserve event now_ms =
      { s with serial := s.serial + 1
               calls := s.calls ++ [{ serial := s.serial + 1, event, now_ms }] } := by
  unfold reserve
  rw [if_neg (by omega)]
  rw [Nat.mod_eq_of_lt hfree.1]

theorem Log.reserve (h : Log s) (now_ms : Nat) (hevent : event.value < SimEvent.count.value) (hfree : s.Free) :
    Log (s.reserve event now_ms) := by
  rw [reserve_free now_ms hevent hfree]
  have hmem (d : Call) :
      d ∈ s.calls ++ [{ serial := s.serial + 1, event, now_ms : Call }] ↔
        d ∈ s.calls ∨ d = { serial := s.serial + 1, event, now_ms } := by simp
  have hold {d : Call} (hd : d ∈ s.calls) : d.serial ≤ s.serial := (h.serial_le hd).2
  refine ⟨fun j c hj => ?_, ?_, fun c hc => ?_, fun c hc d hd hslot hlt => ?_, fun c hc => ?_,
    fun i hi => ?_, fun c hc hstage => ?_, fun c hc hstage hnewer => ?_⟩ <;>
    dsimp only at *
  · rw [List.getElem?_append] at hj
    split at hj
    · exact h.numbered j c hj
    rename_i hge
    have hlt := (List.getElem?_eq_some_iff.mp hj).1
    rw [List.length_singleton] at hlt
    rw [List.mem_singleton.mp (List.mem_of_getElem? hj)]
    have := h.count
    show s.serial + 1 = j + 1
    omega
  · rw [List.length_append, List.length_singleton, h.count]
  · rcases (hmem c).mp hc with hc | rfl
    · exact h.kinds c hc
    · exact hevent
  · rcases (hmem c).mp hc with hc | rfl <;> rcases (hmem d).mp hd with hd | rfl
    · exact h.ordered c hc d hd hslot hlt
    · exact hfree.2 c hc hslot
    · have := hold hd
      dsimp only at hlt
      omega
    · exact absurd hlt (lt_irrefl _)
  · rcases (hmem c).mp hc with hc | rfl
    · exact h.filling c hc
    · trivial
  · obtain ⟨c, hc, hrest⟩ := h.visible i hi
    exact ⟨c, (hmem c).mpr (.inl hc), hrest⟩
  · rcases (hmem c).mp hc with hc | rfl
    · exact h.started c hc hstage
    · exact absurd rfl hstage
  · rcases (hmem c).mp hc with hc | rfl
    · exact h.newest c hc hstage fun d hd => hnewer d ((hmem d).mpr (.inl hd))
    · cases hstage

/-! ## A store -/

section
variable {j : Nat} {c : Call}

theorem store_call (h : s.calls[j]? = some c) : s.store j =
    { s with
        slots := Function.update s.slots (slot_of c.serial) (c.store (s.slots (slot_of c.serial)))
        calls := s.calls.set j { c with stage := c.stage.next } } := by
  unfold store
  rw [h]

theorem store_returned (h : s.calls[j]? = some c) (hc : c.stage = .returned) : s.store j = s := by
  have hcall : { c with stage := c.stage.next } = c := by
    cases c
    cases hc
    rfl
  have hslot (slot : NotificationSlot) : c.store slot = slot := by
    unfold Call.store
    rw [hc]
  rw [store_call h, hcall, hslot, Function.update_eq_self]
  obtain ⟨hlt, heq⟩ := List.getElem?_eq_some_iff.mp h
  rw [← heq, List.set_getElem_self]

/-- The calls after a store: the one that stored, and the others as they were. -/
theorem Log.mem_store (h : Log s) (hj : s.calls[j]? = some c) (c' d : Call) :
    d ∈ s.calls.set j c' ↔ d = c' ∨ d ∈ s.calls ∧ d.serial ≠ c.serial := by
  have hlt := (List.getElem?_eq_some_iff.mp hj).1
  have hc := h.numbered j c hj
  constructor
  · intro hd
    obtain ⟨k, hk⟩ := List.getElem?_of_mem hd
    rw [List.getElem?_set] at hk
    split at hk
    · exact .inl (Option.some.inj hk).symm
    rename_i hne
    have := h.numbered k d hk
    exact .inr ⟨List.mem_of_getElem? hk, by omega⟩
  · rintro (rfl | ⟨hd, hne⟩)
    · exact List.mem_set hlt d
    · obtain ⟨k, hk⟩ := List.getElem?_of_mem hd
      have := h.numbered k d hk
      refine List.mem_of_getElem? (i := k) ?_
      rw [List.getElem?_set_ne (by omega)]
      exact hk

/-- A call under way is the newest of its slot. -/
theorem Log.under_way (h : Log s) (hc : c ∈ s.calls) (hstage : c.stage ≠ .returned) {d : Call}
    (hd : d ∈ s.calls) (hslot : slot_of d.serial = slot_of c.serial) (hne : d.serial ≠ c.serial) :
    d.serial < c.serial ∧ d.stage = .returned := by
  rcases Nat.lt_or_gt_of_ne hne with hlt | hgt
  · exact ⟨hlt, h.ordered d hd c hc hslot hlt⟩
  · exact absurd (h.ordered c hc d hd hslot.symm hgt) hstage

variable {slot : NotificationSlot}

/-- While a call is under way its slot has no serial, or after its last store its own. -/
theorem stored_serial (hstage : c.stage ≠ .returned) (hfill : c.Filling slot) :
    (c.store slot).serial = 0 ∧ c.stage.next ≠ .returned ∨ c.store slot = c.slot ∧ c.stage.next = .returned := by
  unfold Call.Filling at hfill
  unfold Call.store
  cases hc : c.stage with
  | reserved => exact .inl ⟨rfl, by decide⟩
  | blanked =>
    rw [hc] at hfill
    exact .inl ⟨hfill, by decide⟩
  | evented =>
    rw [hc] at hfill
    exact .inl ⟨hfill.1, by decide⟩
  | timed =>
    rw [hc] at hfill
    refine .inr ⟨?_, rfl⟩
    unfold Call.slot
    rw [← hfill.2.1, ← hfill.2.2]
  | returned => exact absurd hc hstage

theorem stored_filling (hfill : c.Filling slot) : { c with stage := c.stage.next : Call }.Filling (c.store slot) := by
  unfold Call.Filling at hfill
  unfold Call.Filling Call.store
  cases hc : c.stage with
  | reserved => rfl
  | blanked =>
    rw [hc] at hfill
    exact ⟨hfill, rfl⟩
  | evented =>
    rw [hc] at hfill
    exact ⟨hfill.1, hfill.2, rfl⟩
  | timed | returned => trivial

theorem Log.store_under_way (h : Log s) (hj : s.calls[j]? = some c)
    (hstage : c.stage ≠ .returned) : Log (s.store j) := by
  have hc : c ∈ s.calls := List.mem_of_getElem? hj
  have hlt := (List.getElem?_eq_some_iff.mp hj).1
  have hmem := h.mem_store hj { c with stage := c.stage.next }
  have hstored := stored_serial hstage (h.filling c hc)
  have hother {d : Call} (hd : slot_of d.serial ≠ slot_of c.serial)
      (slots : Fin NotificationSlots → NotificationSlot) (slot : NotificationSlot) :
      Function.update slots (slot_of c.serial) slot (slot_of d.serial) = slots (slot_of d.serial) :=
    Function.update_of_ne hd ..
  rw [store_call hj]
  refine ⟨fun k d hk => ?_, ?_, fun d hd => ?_, fun d hd e he hslot hde => ?_, fun d hd => ?_,
    fun i hi => ?_, fun d hd hs => ?_, fun d hd hs hnewer => ?_⟩ <;> dsimp only at *
  · rw [List.getElem?_set] at hk
    split at hk
    · obtain rfl := Option.some.inj hk
      rename_i hjk
      exact hjk ▸ h.numbered j c hj
    · exact h.numbered k d hk
  · rw [List.length_set]
    exact h.count
  · rcases (hmem d).mp hd with rfl | ⟨hd, -⟩
    · exact h.kinds c hc
    · exact h.kinds d hd
  · rcases (hmem d).mp hd with rfl | ⟨hd, hdne⟩
    · rcases (hmem e).mp he with rfl | ⟨he, -⟩
      · exact absurd hde (lt_irrefl _)
      · exact absurd (h.ordered c hc e he hslot hde) hstage
    rcases (hmem e).mp he with rfl | ⟨he, -⟩
    · exact h.ordered d hd c hc hslot hde
    · exact h.ordered d hd e he hslot hde
  · rcases (hmem d).mp hd with rfl | ⟨hd, hdne⟩
    · rw [Function.update_self]
      exact stored_filling (h.filling c hc)
    by_cases hslot : slot_of d.serial = slot_of c.serial
    · have hreturned := (h.under_way hc hstage hd hslot hdne).2
      unfold Call.Filling
      rw [hreturned]
      trivial
    rw [hother hslot]
    exact h.filling d hd
  · by_cases hslot : i = slot_of c.serial
    · subst hslot
      rw [Function.update_self] at hi ⊢
      rcases hstored with ⟨h0, -⟩ | ⟨heq, hreturned⟩
      · exact absurd h0 hi
      · exact ⟨_, (hmem _).mpr (.inl rfl), hreturned, rfl, heq⟩
    rw [Function.update_of_ne hslot] at hi ⊢
    obtain ⟨d, hd, hs, rfl, heq⟩ := h.visible i hi
    refine ⟨d, (hmem d).mpr (.inr ⟨hd, fun hne => hslot ?_⟩), hs, rfl, heq⟩
    rw [hne]
  · by_cases hslot : slot_of d.serial = slot_of c.serial
    · rw [hslot, Function.update_self]
      rcases hstored with ⟨h0, -⟩ | ⟨heq, -⟩
      · exact .inl h0
      rw [heq]
      rcases (hmem d).mp hd with rfl | ⟨hd, hdne⟩
      · exact .inr le_rfl
      · exact .inr (h.under_way hc hstage hd hslot hdne).1.le
    rw [hother hslot]
    rcases (hmem d).mp hd with rfl | ⟨hd, -⟩
    · exact absurd rfl hslot
    · exact h.started d hd hs
  · by_cases hslot : slot_of d.serial = slot_of c.serial
    · rcases (hmem d).mp hd with rfl | ⟨hd, hdne⟩
      · rw [Function.update_self]
        rcases hstored with ⟨-, hnot⟩ | ⟨heq, -⟩
        · exact absurd hs hnot
        rw [heq]
        rfl
      have hlater := (h.under_way hc hstage hd hslot hdne).1
      have hreserved := hnewer _ ((hmem _).mpr (.inl rfl)) hslot.symm hlater
      exact absurd hreserved c.stage.next_started
    rw [hother hslot]
    rcases (hmem d).mp hd with rfl | ⟨hd, -⟩
    · exact absurd rfl hslot
    refine h.newest d hd hs fun e he heslot hde => ?_
    refine hnewer e ((hmem e).mpr (.inr ⟨he, fun hne => hslot ?_⟩)) heslot hde
    rw [← heslot, hne]

theorem Log.store (h : Log s) (j : Nat) : Log (s.store j) := by
  cases hj : s.calls[j]? with
  | none =>
    unfold SimEventLog.store
    rw [hj]
    exact h
  | some c =>
    by_cases hstage : c.stage = .returned
    · rw [store_returned hj hstage]
      exact h
    · exact h.store_under_way hj hstage

end

end SimEventLog

end taxi_camera.sim_messages
