-- A side has one unacknowledged press at most: the presses that were accepted,
-- and neither acknowledged by a lamp nor rejected, are the ones that the
-- command and the dispatcher hold.
import TaxiCam.TaxiToggles

namespace taxi_camera.native_camera

open histories runs

namespace TaxiButtonCommand

namespace World

/-! ## The ledger of unacknowledged presses -/

/-- An accepted press, with the sample it was decided on and the time that was recorded for it. -/
structure Unacknowledged where
  desired : Bool
  sample_ms : Nat
  sent_ms : Option Nat
deriving DecidableEq

/-- The sample is newer than the press, and shows what was desired. -/
def shows (side : Side) (sample_ms : Nat) (mask : Mask) (t : Unacknowledged) : Bool :=
  decide (t.sample_ms < sample_ms) && t.sent_ms.any (· < sample_ms) && has mask side == t.desired

def settle (side : Side) (open_presses : List Unacknowledged) : Event → List Unacknowledged
  | .accepted other desired sample_ms =>
    if other = side then open_presses ++ [⟨desired, sample_ms, none⟩] else open_presses
  | .recorded other sent_ms =>
    if other = side then
      open_presses.map fun t => if t.sent_ms = none then { t with sent_ms := some sent_ms } else t
    else open_presses
  | .seen sample_ms mask => open_presses.filter fun t => !shows side sample_ms mask t
  | .rejected other => if other = side then open_presses.dropLast else open_presses
  | _ => open_presses

/-- The presses of a side that were accepted and neither acknowledged nor rejected. -/
def unacknowledged (side : Side) (told : List Event) : List Unacknowledged :=
  told.foldl (settle side) []

/-! ## The invariant -/

section
variable (s : World) (side : Side)

/-- The press that the dispatcher is about concerns the side. -/
def about : Option TaxiButtonCommandDecision := match s.dispatch with
  | .idle => none
  | .admitted decision other | .transmitted decision other _ => if other = side then some decision else none

def flown (flight : Flight) : List Unacknowledged :=
  if flight.active then [⟨flight.desired, flight.sample_ms, some flight.sent_ms⟩] else []

def outstanding : List Unacknowledged := match s.dispatch with
  | .transmitted decision other true =>
    if other = side then [⟨has decision.desired_mask side, decision.button_sample_ms, none⟩]
    else flown (s.command.flights side)
  | _ => flown (s.command.flights side)

/-- What is told of the presses of a side is what the command and the dispatcher hold. -/
structure Recorded : Prop where
  ledger : unacknowledged side s.told = s.outstanding side
  free : ∀ decision, s.about side = some decision →
    (s.command.flights side).active = false ∧ has decision.send_mask side = true

end

/-! ## The ledger -/

section
variable {s s' : World} {side : Side} {told : List Event} {e : Event}

theorem unacknowledged_snoc : unacknowledged side (told ++ [e]) = settle side (unacknowledged side told) e := by
  simp [unacknowledged, List.foldl_append]

/-- What a rejected or a failed press leaves of the request. -/
theorem sent_lapses (s : TaxiButtonCommand) (d : TaxiButtonCommandDecision) (side : Side)
    (accepted : Bool) (now : Nat) :
    (s.sent d side accepted now).latest = s.latest ∧ (s.sent d side accepted now).status.serial = s.status.serial ∧
      ∀ other, has (s.sent d side accepted now).status.pending_mask other = true →
        has s.status.pending_mask other = true := by
  unfold sent
  split
  · exact ⟨rfl, rfl, fun _ hp => hp⟩
  split
  · exact ⟨rfl, rfl, fun _ hp => hp⟩
  split
  · exact ⟨fail_latest _, fail_serial _, (Lapses.fail s _).pending⟩
  · exact ⟨rfl, rfl, fun _ hp => hp⟩

theorem rejected_lapses (s : TaxiButtonCommand) (side : Side) :
    (s.rejected side).latest = s.latest ∧ (s.rejected side).status.serial = s.status.serial ∧
      ∀ other, has (s.rejected side).status.pending_mask other = true → has s.status.pending_mask other = true := by
  unfold rejected
  dsimp only
  split
  · split
    · refine ⟨fail_latest _, fail_serial _, fun other hp => ?_⟩
      simp at hp
    · exact ⟨rfl, rfl, fun _ hp => hp⟩
  · exact ⟨rfl, rfl, fun _ hp => hp⟩

theorem rejected_flight (s : TaxiButtonCommand) (side other : Side) :
    (s.rejected side).flights other =
      if other = side ∧ (s.flights side).active = true then {} else s.flights other := by
  unfold rejected
  cases hactive : (s.flights side).active with
  | false => simp
  | true =>
    by_cases hother : other = side
    · subst hother
      simp only [if_true, and_self]
      split <;> simp
    simp only [if_true, hother, false_and, if_false]
    split <;> simp [Function.update_of_ne hother]

variable {other : Side} {d : TaxiButtonCommandDecision}

theorem sent_flight_other (s : TaxiButtonCommand) (d : TaxiButtonCommandDecision) (accepted : Bool)
    (now : Nat) {side : Side} (h : side ≠ other) :
    (s.sent d other accepted now).flights side = s.flights side := by
  unfold sent
  split
  · rfl
  split
  · exact Function.update_of_ne h _ _
  split
  · rw [fail_flights]
  · rfl

theorem sent_flight_self (s : TaxiButtonCommand) {side : Side}
    (hsend : has d.send_mask side = true) (accepted : Bool) (now : Nat) :
    (s.sent d side accepted now).flights side =
      if accepted then ⟨true, has d.desired_mask side, d.button_sample_ms, now, d.serial⟩
      else s.flights side := by
  unfold sent
  simp only [hsend, Bool.not_true, Bool.false_eq_true, if_false]
  cases accepted with
  | true => simp
  | false =>
    simp only [Bool.false_eq_true, if_false]
    split
    · rw [fail_flights]
    · rfl

theorem current_spec {s : TaxiButtonCommand} {now : Nat} (h : s.current d side now = true) :
    has d.send_mask side = true ∧ (s.flights side).active = false ∧ d.serial = s.status.serial ∧
      has s.status.pending_mask side = true := by
  simp only [current, Bool.and_eq_true, Bool.not_eq_true', beq_iff_eq] at h
  exact ⟨h.1.1.1.1.1.1, h.1.1.1.1.1.2, h.1.2, h.2⟩

/-- A change that leaves the presses of the side. -/
theorem Recorded.same (h : s.Recorded side) (hdispatch : s'.dispatch = s.dispatch)
    (hflight : s'.command.flights side = s.command.flights side)
    (htold : unacknowledged side s'.told = unacknowledged side s.told) : s'.Recorded side where
  ledger := by
    rw [htold, h.ledger]
    simp only [outstanding, hdispatch, hflight]
  free d hd := by
    rw [hflight]
    refine h.free d ?_
    rw [← hd]
    simp only [about, hdispatch]

theorem Recorded.update (h : s.Recorded side) (request : TaxiButtonRequest) (permitted : Bool)
    (now epoch profile : Nat) (aircraft_buttons : Bool) :
    (s.update request permitted now epoch profile aircraft_buttons).Recorded side := by
  have hflights : (s.command.update request permitted now epoch profile aircraft_buttons).flights =
      s.command.flights := by
    obtain hlapses | htakes := update_cases s.command request permitted now epoch profile aircraft_buttons
    · exact hlapses.flights
    · exact htakes.flights
  unfold World.update
  split
  · exact h.same rfl (congrFun hflights side) unacknowledged_snoc
  · exact h.same rfl (congrFun hflights side) rfl

/-- The lamp acknowledges in the ledger what it acknowledges in the command. -/
theorem flown_seen (c : TaxiButtonCommandContext) (flight : Flight) :
    (flown flight).filter (fun t => !shows side c.button_sample_ms c.actual_mask t) =
      flown (if acknowledged c side flight then {} else flight) := by
  cases hactive : flight.active with
  | false =>
    have hack : acknowledged c side flight = false := by simp [acknowledged, hactive]
    simp [hack, flown, hactive]
  | true =>
    have hshows : shows side c.button_sample_ms c.actual_mask
        ⟨flight.desired, flight.sample_ms, some flight.sent_ms⟩ = acknowledged c side flight := by
      simp [shows, acknowledged, hactive]
    cases hack : acknowledged c side flight with
    | true => simp [flown, hactive, hshows, hack]
    | false => simp [flown, hactive, hshows, hack]

theorem outstanding_idle (h : s.dispatch = .idle) : s.outstanding side = flown (s.command.flights side) := by
  simp only [outstanding, h]

theorem Recorded.step_command (h : s.Recorded side) (hidle : s.dispatch = .idle)
    (c : TaxiButtonCommandContext) : (s.step_command c).Recorded side := by
  have hflight := (step_steps s.command (s.context c) side).flight
  have hledger := h.ledger
  rw [outstanding_idle hidle] at hledger
  unfold World.step_command
  cases hlooks : looks (s.context c) with
  | true =>
    rw [hlooks, Bool.true_and] at hflight
    refine ⟨?_, fun d hd => by simp [about, tell, hidle] at hd⟩
    show unacknowledged side (s.told ++ [_]) = _
    rw [unacknowledged_snoc, hledger]
    simp only [outstanding, tell, hidle, if_true]
    rw [hflight]
    exact flown_seen (s.context c) (s.command.flights side)
  | false =>
    rw [hlooks, Bool.false_and, if_neg Bool.false_ne_true] at hflight
    exact h.same rfl hflight rfl

theorem Recorded.admit_press (h : s.Recorded side) (hidle : s.dispatch = .idle) (i : Nat)
    (other : Side) (now : Nat) : (s.admit_press i other now).Recorded side := by
  unfold World.admit_press
  split
  · rename_i decision hdecision
    split
    · rename_i hcurrent
      obtain ⟨hsend, hfree, -, -⟩ := current_spec hcurrent
      refine ⟨?_, ?_⟩
      · show unacknowledged side s.told = flown (s.command.flights side)
        rw [h.ledger, outstanding_idle hidle]
      · intro d hd
        by_cases hother : other = side
        · subst hother
          simp only [about, if_true, Option.some.injEq] at hd
          subst hd
          exact ⟨hfree, hsend⟩
        · simp [about, hother] at hd
    · exact h
  · exact h

theorem flown_free {flight : Flight} (h : flight.active = false) : flown flight = [] := by
  simp [flown, h]

theorem Recorded.transmit (h : s.Recorded side) (hdispatch : s.dispatch = .admitted d other) (accepted : Bool) :
    (s.transmit d other accepted).Recorded side := by
  have hledger : unacknowledged side s.told = flown (s.command.flights side) := by
    rw [h.ledger]
    simp only [outstanding, hdispatch]
  have hfree : ∀ decision, (if other = side then some d else none) = some decision →
      (s.command.flights side).active = false ∧ has decision.send_mask side = true := by
    intro decision hd
    refine h.free decision ?_
    simp only [about, hdispatch]
    exact hd
  unfold World.transmit
  cases accepted with
  | false => exact ⟨hledger, hfree⟩
  | true =>
    refine ⟨?_, hfree⟩
    show unacknowledged side (s.told ++ [_]) = _
    rw [unacknowledged_snoc, hledger]
    by_cases hother : other = side
    · subst hother
      obtain ⟨hinactive, -⟩ := hfree d (if_pos rfl)
      simp [settle, outstanding, tell, flown_free hinactive]
    · simp [settle, outstanding, tell, hother]

theorem Recorded.record_press {accepted : Bool}
    (h : s.Recorded side) (hdispatch : s.dispatch = .transmitted d other accepted) (now : Nat) :
    (s.record_press d other accepted now).Recorded side := by
  have hledger : unacknowledged side s.told = s.outstanding side := h.ledger
  by_cases hother : other = side
  · subst hother
    obtain ⟨hinactive, hsend⟩ := h.free d (by simp [about, hdispatch])
    have hflight := sent_flight_self s.command hsend accepted now
    cases accepted with
    | true =>
      refine ⟨?_, nofun⟩
      show unacknowledged other (s.told ++ [_]) = flown ((s.command.sent d other true now).flights other)
      rw [unacknowledged_snoc, hledger, hflight]
      simp [settle, outstanding, hdispatch, flown]
    | false =>
      refine ⟨?_, nofun⟩
      show unacknowledged other s.told = flown ((s.command.sent d other false now).flights other)
      rw [hledger, hflight]
      simp [outstanding, hdispatch]
  have hflight := sent_flight_other s.command d accepted now (Ne.symm hother)
  have hsame : s.outstanding side = flown (s.command.flights side) := by
    simp only [outstanding, hdispatch]
    cases accepted <;> simp [hother]
  cases accepted with
  | true =>
    refine ⟨?_, nofun⟩
    show unacknowledged side (s.told ++ [_]) = flown ((s.command.sent d other true now).flights side)
    rw [unacknowledged_snoc, hledger, hflight, hsame]
    simp [settle, hother]
  | false =>
    refine ⟨?_, nofun⟩
    show unacknowledged side s.told = flown ((s.command.sent d other false now).flights side)
    rw [hledger, hflight, hsame]

theorem Recorded.reject_press (h : s.Recorded side) (hidle : s.dispatch = .idle) (other : Side) :
    (s.reject_press other).Recorded side := by
  have hledger : unacknowledged side s.told = flown (s.command.flights side) := by
    rw [h.ledger, outstanding_idle hidle]
  have hflight := rejected_flight s.command other side
  have hgoal : settle side (flown (s.command.flights side)) (.rejected other) =
      flown ((s.command.rejected other).flights side) := by
    rw [hflight]
    by_cases hother : side = other
    · subst hother
      cases hactive : (s.command.flights side).active <;> simp [settle, flown, hactive]
    · simp [settle, hother, Ne.symm hother]
  unfold World.reject_press
  split
  · refine ⟨?_, fun d hd => by simp [about, tell, hidle] at hd⟩
    show unacknowledged side (s.told ++ [_] ++ [_]) = _
    rw [unacknowledged_snoc, unacknowledged_snoc, hledger]
    simp only [outstanding, tell, hidle]
    exact hgoal
  refine ⟨?_, fun d hd => by simp [about, tell, hidle] at hd⟩
  show unacknowledged side (s.told ++ [_]) = _
  rw [unacknowledged_snoc, hledger]
  simp only [outstanding, tell, hidle]
  exact hgoal

theorem Recorded.deliver (h : s.Recorded side) (ms : Nat) : (s.deliver ms).Recorded side := by
  unfold World.deliver
  split
  · exact h
  split
  · exact h.same rfl rfl rfl
  · exact h

theorem Recorded.execute (h : s.Recorded side) (other : Side) (k : Nat) : (s.execute other k).Recorded side := by
  unfold World.execute
  split
  · exact h
  · exact h.same rfl rfl unacknowledged_snoc

end

end World

end TaxiButtonCommand

end taxi_camera.native_camera
