-- The user's requests for the TAXI buttons: one dispatcher turns them into
-- presses, and an accepted press waits for the lamp before anything else is
-- sent to its side. src/camera/taxi_button_command.hpp. Times are in
-- milliseconds.
import Mathlib.Data.BitVec
import Mathlib.Data.List.FinRange
import Mathlib.Logic.Function.Basic

namespace taxi_camera.native_camera

open List

/-! ## Sides -/

abbrev MaxDisplaySides : Nat := 3

/-- 0 captain, 1 first officer, 2 lower display. -/
abbrev Side := Fin MaxDisplaySides

abbrev Mask := BitVec 32

def AllDisplaySides : Mask := 7#32

def bit (side : Side) : Mask := BitVec.twoPow 32 side

def has (mask : Mask) (side : Side) : Bool := mask.getLsbD side

section
variable (mask : Mask) (side other : Side)

theorem side_lt : side.val < 32 := Nat.lt_of_lt_of_le side.isLt (Nat.le_add_right 3 29)

@[simp] theorem has_zero : has 0#32 side = false := by simp [has]

@[simp] theorem has_or_bit : has (mask ||| bit other) side = (has mask side || decide (side = other)) := by
  have hlt := side_lt other
  simp [has, bit, BitVec.getLsbD_twoPow, hlt, Fin.ext_iff, eq_comm]

@[simp] theorem has_and_not_bit : has (mask &&& ~~~bit other) side = (has mask side && !decide (side = other)) := by
  have hlt := side_lt side
  simp [has, bit, hlt, Fin.ext_iff]

@[simp] theorem has_xor_bit : has (mask ^^^ bit other) side = (has mask side != decide (side = other)) := by
  have hlt := side_lt other
  simp [has, bit, BitVec.getLsbD_twoPow, hlt, Fin.ext_iff, eq_comm]

end

/-! ## Requests and decisions -/

structure TaxiButtonRequest where
  serial : Nat := 0
  session_epoch : Nat := 0
  profile : Nat := 0
  selected_mask : Mask := 0#32
  desired_mask : Mask := 0#32
deriving DecidableEq

structure TaxiButtonRequestStatus where
  serial : Nat := 0
  pending_mask : Mask := 0#32
  failed : Bool := false
  error : String := ""

structure TaxiButtonCommandContext where
  now : Nat := 0
  session_epoch : Nat := 0
  button_sample_ms : Nat := 0
  profile : Nat := 0
  actual_mask : Mask := 0#32
  identity_valid : Bool := false
  buttons_valid : Bool := false
  aircraft_buttons : Bool := true

structure TaxiButtonCommandDecision where
  send_mask : Mask := 0#32
  desired_mask : Mask := 0#32
  serial : Nat := 0
  button_sample_ms : Nat := 0

/-- An accepted press that no lamp has acknowledged. -/
structure Flight where
  active : Bool := false
  desired : Bool := false
  sample_ms : Nat := 0
  sent_ms : Nat := 0
  serial : Nat := 0
deriving DecidableEq

structure TaxiButtonCommand where
  latest : TaxiButtonRequest := {}
  status : TaxiButtonRequestStatus := {}
  flights : Side → Flight := fun _ => {}
  permission_ms : Nat := 0
  started_ms : Nat := 0
  permission : Bool := false

namespace TaxiButtonCommand

def PermissionAgeMs : Nat := 500
def RequestLifetimeMs : Nat := 3000

variable (s : TaxiButtonCommand)

def reject (error : String) : TaxiButtonCommand :=
  { s with status := { s.status with pending_mask := 0#32, failed := true, error } }

def fail (error : String) : TaxiButtonCommand :=
  if s.status.pending_mask = 0#32 then s else s.reject error

/-! ## The requests -/

/-- A request that is refused is consumed all the same. -/
def consume (request : TaxiButtonRequest) (permitted : Bool) (now epoch profile : Nat)
    (aircraft_buttons : Bool) : TaxiButtonCommand :=
  let s := { s with
    latest := request
    status := { serial := request.serial, pending_mask := request.selected_mask }
    started_ms := now }
  if request.selected_mask &&& ~~~AllDisplaySides ≠ 0#32 ∨
      request.desired_mask &&& ~~~request.selected_mask ≠ 0#32 then s.reject "taxi_request_invalid"
  else if request.selected_mask = 0#32 then s
  else if !permitted then s.reject "taxi_request_not_permitted"
  else if !aircraft_buttons then s.reject "taxi_buttons_unavailable_use_manual_control"
  else if epoch = 0 ∨ request.session_epoch ≠ epoch ∨ request.profile ≠ profile then
    s.reject "taxi_request_session_changed"
  else s

def update (request : TaxiButtonRequest) (permitted : Bool) (now epoch profile : Nat)
    (aircraft_buttons : Bool) : TaxiButtonCommand :=
  let s := { s with permission := permitted, permission_ms := now }
  let s := if permitted then s else s.fail "taxi_request_not_permitted"
  if request.serial = 0 then s.fail "taxi_request_cancelled"
  else if request.serial ≤ s.latest.serial then
    if request.serial = s.latest.serial ∧ request ≠ s.latest then s.fail "taxi_request_changed" else s
  else s.consume request permitted now epoch profile aircraft_buttons

/-- Another session keeps the key of the request that was consumed. -/
def reset_session : TaxiButtonCommand :=
  { s.fail "taxi_request_session_changed" with permission := false, flights := fun _ => {} }

/-! ## The presses -/

/-- The sample of the buttons is fresh. -/
def buttons (c : TaxiButtonCommandContext) : Bool :=
  c.buttons_valid && c.button_sample_ms != 0 && decide (c.button_sample_ms ≤ c.now) &&
    decide (c.now - c.button_sample_ms ≤ PermissionAgeMs)

/-- What ends the request before the buttons are looked at. -/
def expire (c : TaxiButtonCommandContext) : TaxiButtonCommand :=
  let s := if !s.permission ∨ c.now < s.permission_ms ∨ c.now - s.permission_ms > PermissionAgeMs then
    s.fail "taxi_request_permission_expired" else s
  let s := if s.status.pending_mask ≠ 0#32 ∧ (s.latest.session_epoch ≠ c.session_epoch ∨
      s.latest.profile ≠ c.profile ∨ !c.aircraft_buttons) then
    s.fail "taxi_request_session_changed" else s
  if s.status.pending_mask ≠ 0#32 ∧ (c.now < s.started_ms ∨ c.now - s.started_ms ≥ RequestLifetimeMs) then
    s.fail "taxi_request_ack_timeout" else s

/-- The lamp acknowledges the press: it was looked at later, and it shows what was desired. -/
def acknowledged (c : TaxiButtonCommandContext) (side : Side) (flight : Flight) : Bool :=
  flight.active && decide (flight.sample_ms < c.button_sample_ms) &&
    decide (flight.sent_ms < c.button_sample_ms) && has c.actual_mask side == flight.desired

/-- One turn of the loop over the sides. -/
def step_side (c : TaxiButtonCommandContext)
    (turn : TaxiButtonCommand × TaxiButtonCommandDecision) (side : Side) :
    TaxiButtonCommand × TaxiButtonCommandDecision :=
  let s := if acknowledged c side (turn.1.flights side) then
    { turn.1 with flights := Function.update turn.1.flights side {} } else turn.1
  let result := turn.2
  if (s.flights side).active || !has s.status.pending_mask side then (s, result)
  else
    let desired := has s.latest.desired_mask side
    if has c.actual_mask side == desired then
      ({ s with status := { s.status with pending_mask := s.status.pending_mask &&& ~~~bit side } }, result)
    else
      (s, { result with
        send_mask := result.send_mask ||| bit side
        desired_mask := if desired then result.desired_mask ||| bit side else result.desired_mask })

def looks (c : TaxiButtonCommandContext) : Bool := c.identity_valid && buttons c && c.aircraft_buttons

def step (c : TaxiButtonCommandContext) : TaxiButtonCommand × TaxiButtonCommandDecision :=
  let result : TaxiButtonCommandDecision :=
    { serial := s.status.serial, button_sample_ms := c.button_sample_ms }
  let s := s.expire c
  if !looks c then (s, result)
  else (List.finRange MaxDisplaySides).foldl (step_side c) (s, result)

/-- The check that is made again before the call that sends a press. -/
def current (decision : TaxiButtonCommandDecision) (side : Side) (now : Nat) : Bool :=
  has decision.send_mask side && !(s.flights side).active && s.permission &&
    decide (s.permission_ms ≤ now) && decide (now - s.permission_ms ≤ PermissionAgeMs) &&
    decision.serial == s.status.serial && has s.status.pending_mask side

def sent (decision : TaxiButtonCommandDecision) (side : Side) (accepted : Bool) (now : Nat) :
    TaxiButtonCommand :=
  if !has decision.send_mask side then s
  else if accepted then
    let flight : Flight :=
      ⟨true, has decision.desired_mask side, decision.button_sample_ms, now, decision.serial⟩
    { s with flights := Function.update s.flights side flight }
  else if decision.serial = s.status.serial then s.fail "taxi_button_command_failed"
  else s

/-- A rejection proves that the press did not run. -/
def rejected (side : Side) : TaxiButtonCommand :=
  if (s.flights side).active then
    let serial := (s.flights side).serial
    let s := { s with flights := Function.update s.flights side {} }
    if serial = s.status.serial then s.fail "taxi_button_command_rejected" else s
  else s

/-! ## What the calls leave alone -/

section
variable {s} {side : Side}

theorem fail_cases (s : TaxiButtonCommand) (error : String) : s.fail error = s ∨ s.fail error = s.reject error := by
  unfold fail
  split
  · exact .inl rfl
  · exact .inr rfl

@[simp] theorem fail_flights (error : String) : (s.fail error).flights = s.flights := by
  obtain h | h := fail_cases s error <;> rw [h]; rfl

@[simp] theorem fail_latest (error : String) : (s.fail error).latest = s.latest := by
  obtain h | h := fail_cases s error <;> rw [h]; rfl

@[simp] theorem fail_serial (error : String) : (s.fail error).status.serial = s.status.serial := by
  obtain h | h := fail_cases s error <;> rw [h]; rfl

@[simp] theorem fail_pending (error : String) : (s.fail error).status.pending_mask = 0#32 := by
  unfold fail
  split
  · assumption
  · rfl

end

/-- A request came to an end at most: only its status and the permission may differ. -/
structure Lapses (s s' : TaxiButtonCommand) : Prop where
  flights : s'.flights = s.flights
  latest : s'.latest = s.latest
  serial : s'.status.serial = s.status.serial
  pending : ∀ side, has s'.status.pending_mask side = true → has s.status.pending_mask side = true

theorem Lapses.refl : s.Lapses s := ⟨rfl, rfl, rfl, fun _ h => h⟩

theorem Lapses.fail (error : String) : s.Lapses (s.fail error) :=
  ⟨fail_flights _, fail_latest _, fail_serial _, by simp⟩

variable {s}

theorem Lapses.trans {s' s'' : TaxiButtonCommand} (h : s.Lapses s') (h' : s'.Lapses s'') : s.Lapses s'' :=
  ⟨h'.flights.trans h.flights, h'.latest.trans h.latest, h'.serial.trans h.serial,
    fun side hp => h.pending side (h'.pending side hp)⟩

theorem Lapses.of_if {p : Prop} [Decidable p] (error : String) : s.Lapses (if p then s.fail error else s) := by
  split
  · exact .fail s error
  · exact .refl s

theorem expire_lapses (c : TaxiButtonCommandContext) : s.Lapses (s.expire c) :=
  ((Lapses.of_if _).trans (Lapses.of_if _)).trans (Lapses.of_if _)

/-! ## What an update does -/

/-- A newer request takes the place of the latest. -/
structure Takes (s : TaxiButtonCommand) (request : TaxiButtonRequest) (s' : TaxiButtonCommand) : Prop where
  newer : s.latest.serial < request.serial
  flights : s'.flights = s.flights
  latest : s'.latest = request
  serial : s'.status.serial = request.serial

theorem consume_takes (request : TaxiButtonRequest) (permitted : Bool) (now epoch profile : Nat)
    (aircraft_buttons : Bool) (hnewer : s.latest.serial < request.serial) :
    s.Takes request (s.consume request permitted now epoch profile aircraft_buttons) := by
  unfold consume
  repeat' split
  all_goals exact ⟨hnewer, rfl, rfl, rfl⟩

theorem update_cases (s : TaxiButtonCommand) (request : TaxiButtonRequest) (permitted : Bool)
    (now epoch profile : Nat) (aircraft_buttons : Bool) :
    s.Lapses (s.update request permitted now epoch profile aircraft_buttons) ∨
      s.Takes request (s.update request permitted now epoch profile aircraft_buttons) := by
  unfold update
  dsimp only
  generalize hs' : (if permitted = true then _ else _ : TaxiButtonCommand) = s'
  have hlapses : s.Lapses s' := by
    rw [← hs']
    split
    · exact ⟨rfl, rfl, rfl, fun _ h => h⟩
    · exact ⟨by simp, by simp, by simp, by simp⟩
  split
  · exact .inl (hlapses.trans (.fail s' _))
  split
  · left
    split
    · exact hlapses.trans (.fail s' _)
    · exact hlapses
  rename_i hnewer
  right
  have htakes := consume_takes request permitted now epoch profile aircraft_buttons (Nat.lt_of_not_le hnewer)
  exact ⟨hlapses.latest ▸ htakes.newer, htakes.flights.trans hlapses.flights, htakes.latest, htakes.serial⟩

/-! ## What a step does to a side -/

/-- What a turn of the loop reads and writes of one side. -/
structure At where
  flight : Flight
  pending : Bool
  send : Bool
  desired : Bool

def at_side (turn : TaxiButtonCommand × TaxiButtonCommandDecision) (side : Side) : At :=
  ⟨turn.1.flights side, has turn.1.status.pending_mask side, has turn.2.send_mask side,
    has turn.2.desired_mask side⟩

def press (c : TaxiButtonCommandContext) (side : Side) (desired : Bool) (v : At) : At :=
  let flight := if acknowledged c side v.flight then {} else v.flight
  if flight.active || !v.pending then { v with flight }
  else if has c.actual_mask side == desired then { v with flight, pending := false }
  else { v with flight, send := true, desired := v.desired || desired }

/-- A press is sent where no press is in flight and the button is not where it should be. -/
theorem press_spec (c : TaxiButtonCommandContext) (side : Side) (desired : Bool) (v : At)
    (hsend : v.send = false) (hdesired : v.desired = false) :
    (press c side desired v).flight = (if acknowledged c side v.flight then {} else v.flight) ∧
      ((press c side desired v).pending = true → v.pending = true ∧
        ((press c side desired v).flight.active = false → has c.actual_mask side ≠ desired)) ∧
      ((press c side desired v).send = true → (press c side desired v).flight.active = false ∧
        v.pending = true ∧ (press c side desired v).desired = desired ∧
        has c.actual_mask side = !desired) := by
  unfold press
  dsimp only
  generalize (if acknowledged c side v.flight = true then ({} : Flight) else v.flight) = flight
  split
  · rename_i hoff
    refine ⟨rfl, fun hp => ⟨hp, fun ha => ?_⟩, fun hs => by simp [hsend] at hs⟩
    have hactive : flight.active = false := ha
    have hpending : v.pending = true := hp
    simp [hactive, hpending] at hoff
  rename_i hon
  obtain ⟨hactive, hpending⟩ : flight.active = false ∧ v.pending = true := by simpa using hon
  split
  · exact ⟨rfl, nofun, fun hs => by simp [hsend] at hs⟩
  rename_i hother
  have hne : has c.actual_mask side ≠ desired := by simpa using hother
  refine ⟨rfl, fun _ => ⟨hpending, fun _ => hne⟩, fun _ => ⟨hactive, hpending, ?_, ?_⟩⟩
  · simp [hdesired]
  · revert hne
    cases has c.actual_mask side <;> cases desired <;> decide

section
variable (c : TaxiButtonCommandContext) (turn : TaxiButtonCommand × TaxiButtonCommandDecision)
  (side other : Side)

theorem at_step_side_self :
    at_side (step_side c turn side) side =
      press c side (has turn.1.latest.desired_mask side) (at_side turn side) := by
  unfold step_side press at_side
  cases hack : acknowledged c side (turn.1.flights side) with
  | true =>
    simp only [if_true, Function.update_self, Bool.false_or]
    cases hpending : has turn.1.status.pending_mask side with
    | false => simp [hpending]
    | true =>
      cases hsame : has c.actual_mask side == has turn.1.latest.desired_mask side with
      | true => simp
      | false => cases hdesired : has turn.1.latest.desired_mask side <;> simp [hpending]
  | false =>
    simp only [Bool.false_eq_true, if_false]
    cases hactive : (turn.1.flights side).active with
    | true => simp
    | false =>
      cases hpending : has turn.1.status.pending_mask side with
      | false => simp [hpending]
      | true =>
        cases hsame : has c.actual_mask side == has turn.1.latest.desired_mask side with
        | true => simp
        | false => cases hdesired : has turn.1.latest.desired_mask side <;> simp [hpending]

theorem at_step_side_other (hne : side ≠ other) : at_side (step_side c turn other) side = at_side turn side := by
  have hupdate : ∀ flight : Flight, Function.update turn.1.flights other flight side =
      turn.1.flights side := fun flight => Function.update_of_ne hne _ _
  unfold step_side at_side
  cases acknowledged c other (turn.1.flights other) <;>
    simp only [if_true, Bool.false_eq_true, if_false]
  all_goals
    split
    · simp [hupdate]
    split
    · simp [hne]
    · split <;> simp [hne]

theorem step_side_keeps :
    (step_side c turn other).1.latest = turn.1.latest ∧
      (step_side c turn other).1.status.serial = turn.1.status.serial ∧
      (step_side c turn other).2.serial = turn.2.serial ∧
      (step_side c turn other).2.button_sample_ms = turn.2.button_sample_ms := by
  unfold step_side
  cases acknowledged c other (turn.1.flights other) <;>
    simp only [if_true, Bool.false_eq_true, if_false]
  all_goals
    split
    · exact ⟨rfl, rfl, rfl, rfl⟩
    split
    · exact ⟨rfl, rfl, rfl, rfl⟩
    · exact ⟨rfl, rfl, rfl, rfl⟩

theorem fold_keeps (sides : List Side) :
    (sides.foldl (step_side c) turn).1.latest = turn.1.latest ∧
      (sides.foldl (step_side c) turn).1.status.serial = turn.1.status.serial ∧
      (sides.foldl (step_side c) turn).2.serial = turn.2.serial ∧
      (sides.foldl (step_side c) turn).2.button_sample_ms = turn.2.button_sample_ms := by
  induction sides generalizing turn with
  | nil => exact ⟨rfl, rfl, rfl, rfl⟩
  | cons other rest ih =>
    obtain ⟨hlatest, hserial, hdecision, hsample⟩ := step_side_keeps c turn other
    obtain ⟨hlatest', hserial', hdecision', hsample'⟩ := ih (step_side c turn other)
    exact ⟨hlatest'.trans hlatest, hserial'.trans hserial, hdecision'.trans hdecision, hsample'.trans hsample⟩

/-- The turns of the other sides leave a side alone. -/
theorem at_fold_other (sides : List Side) (h : side ∉ sides) :
    at_side (sides.foldl (step_side c) turn) side = at_side turn side := by
  induction sides generalizing turn with
  | nil => rfl
  | cons other rest ih =>
    obtain ⟨hne, hrest⟩ := ne_and_not_mem_of_not_mem_cons h
    exact (ih _ hrest).trans (at_step_side_other c turn side other hne)

theorem at_fold (sides : List Side) (hmem : side ∈ sides) (hnodup : sides.Nodup) :
    at_side (sides.foldl (step_side c) turn) side =
      press c side (has turn.1.latest.desired_mask side) (at_side turn side) := by
  induction sides generalizing turn with
  | nil => cases hmem
  | cons other rest ih =>
    obtain ⟨hnot, hrest⟩ := nodup_cons.mp hnodup
    rcases mem_cons.mp hmem with rfl | hlater
    · exact (at_fold_other c _ _ rest hnot).trans (at_step_side_self c turn side)
    have hne : side ≠ other := by
      rintro rfl
      exact hnot hlater
    rw [foldl_cons, ih _ hlater hrest, (step_side_keeps c turn other).1,
      at_step_side_other c turn side other hne]

end

/-- What a step does, side by side. -/
structure Steps (s : TaxiButtonCommand) (c : TaxiButtonCommandContext) (s' : TaxiButtonCommand)
    (decision : TaxiButtonCommandDecision) (side : Side) : Prop where
  flight : s'.flights side =
    if looks c && acknowledged c side (s.flights side) then {} else s.flights side
  pending : has s'.status.pending_mask side = true → has s.status.pending_mask side = true ∧
    (looks c = true → (s'.flights side).active = false →
      has c.actual_mask side ≠ has s.latest.desired_mask side)
  send : has decision.send_mask side = true → looks c = true ∧ (s'.flights side).active = false ∧
    has s.status.pending_mask side = true ∧
    has decision.desired_mask side = has s.latest.desired_mask side ∧
    has c.actual_mask side = !has s.latest.desired_mask side

theorem step_keeps (s : TaxiButtonCommand) (c : TaxiButtonCommandContext) :
    (s.step c).1.latest = s.latest ∧ (s.step c).1.status.serial = s.status.serial ∧
      (s.step c).2.serial = s.status.serial ∧ (s.step c).2.button_sample_ms = c.button_sample_ms := by
  have hexpired := s.expire_lapses c
  unfold step
  split
  · exact ⟨hexpired.latest, hexpired.serial, rfl, rfl⟩
  obtain ⟨hlatest, hserial, hdecision, hsample⟩ := fold_keeps c
    (s.expire c, { serial := s.status.serial, button_sample_ms := c.button_sample_ms })
    (finRange MaxDisplaySides)
  exact ⟨hlatest.trans hexpired.latest, hserial.trans hexpired.serial, hdecision, hsample⟩

theorem step_steps (s : TaxiButtonCommand) (c : TaxiButtonCommandContext) (side : Side) :
    s.Steps c (s.step c).1 (s.step c).2 side := by
  have hexpired := s.expire_lapses c
  cases hlooks : looks c with
  | false =>
    have hstep : s.step c = (s.expire c, { serial := s.status.serial, button_sample_ms := c.button_sample_ms }) := by
      simp [step, hlooks]
    rw [hstep]
    refine ⟨by simp [hlooks, hexpired.flights], fun hp => ⟨hexpired.pending side hp, ?_⟩, ?_⟩
    · rw [hlooks]; exact nofun
    · simp
  | true =>
    have hstep : s.step c = (finRange MaxDisplaySides).foldl (step_side c)
        (s.expire c, { serial := s.status.serial, button_sample_ms := c.button_sample_ms }) := by
      simp [step, hlooks]
    have hat := at_fold c (s.expire c, { serial := s.status.serial, button_sample_ms := c.button_sample_ms }) side
      (finRange MaxDisplaySides) (mem_finRange side) (nodup_finRange _)
    rw [← hstep] at hat
    obtain ⟨hflight, hpending, hsend⟩ := press_spec c side (has (s.expire c).latest.desired_mask side)
      (at_side (s.expire c, { serial := s.status.serial, button_sample_ms := c.button_sample_ms }) side)
      (has_zero side) (has_zero side)
    rw [← hat] at hflight hpending hsend
    rw [hexpired.latest] at hpending hsend
    refine ⟨?_, fun hp => ?_, fun hp => ?_⟩
    · rw [hlooks, Bool.true_and, ← hexpired.flights]
      exact hflight
    · obtain ⟨hbefore, hother⟩ := hpending hp
      exact ⟨hexpired.pending side hbefore, fun _ => hother⟩
    · obtain ⟨hactive, hbefore, hdesired, hactual⟩ := hsend hp
      exact ⟨hlooks, hactive, hexpired.pending side hbefore, hdesired, hactual⟩

end TaxiButtonCommand

end taxi_camera.native_camera
