-- The presses of the TAXI buttons, from the dispatcher to the aircraft and
-- back: an aircraft that executes an accepted press at any time, lamps that
-- are seen late, and requests that come and go meanwhile. The dispatcher's
-- loop of src/camera/body_pose_provider.cpp around `TaxiButtonCommand`.
import TaxiCam.Histories
import TaxiCam.Runs
import TaxiCam.TaxiButtons

namespace taxi_camera.native_camera

open histories runs

namespace TaxiButtonCommand

/-! ## The dispatcher and the aircraft -/

/-- An accepted press that the aircraft has not executed; `number` counts the presses of a side. -/
structure Toggle where
  number : Nat
  desired : Bool
  serial : Nat
deriving DecidableEq

/-- What the dispatcher is about between two steps: a press that `current` admitted, and then one
that was transmitted, with the answer. -/
inductive Dispatch
  | idle
  | admitted (decision : TaxiButtonCommandDecision) (side : Side)
  | transmitted (decision : TaxiButtonCommandDecision) (side : Side) (accepted : Bool)

/-- What is told of a run: requests that were consumed, presses that were accepted, the time that
was recorded for them, samples that a step looked at, rejections, and what moved the buttons.
`misreported` is a rejection of a press that had run. -/
inductive Event
  | requested (request : TaxiButtonRequest)
  | accepted (side : Side) (desired : Bool) (sample_ms : Nat)
  | recorded (side : Side) (sent_ms : Nat)
  | seen (sample_ms : Nat) (mask : Mask)
  | rejected (side : Side)
  | misreported (side : Side)
  | executed (side : Side) (desired : Bool) (serial : Nat) (before : Bool)
  | pressed (side : Side)
deriving DecidableEq

/-- `positions` is where the buttons stand, `observed` what the aircraft sent of them and `sample`
the last of it that arrived. Before the first, `sample_ms` is 0 and no step looks at it. -/
structure World where
  positions : Mask
  sample : Mask
  sample_ms : Nat := 0
  observed : List Mask := []
  command : TaxiButtonCommand := {}
  decisions : List TaxiButtonCommandDecision := []
  dispatch : Dispatch := .idle
  accepted : Side → Nat := fun _ => 0
  under_way : Side → List Toggle := fun _ => []
  told : List Event := []

namespace World

def start (positions : Mask) : World := { positions, sample := positions }

variable (s : World)

def tell (e : Event) : World := { s with told := s.told ++ [e] }

def update (request : TaxiButtonRequest) (permitted : Bool) (now epoch profile : Nat)
    (aircraft_buttons : Bool) : World :=
  let updated := { s with
    command := s.command.update request permitted now epoch profile aircraft_buttons }
  if s.command.latest.serial < request.serial then updated.tell (.requested request) else updated

def context (c : TaxiButtonCommandContext) : TaxiButtonCommandContext :=
  { c with button_sample_ms := s.sample_ms, actual_mask := s.sample }

def step_command (c : TaxiButtonCommandContext) : World :=
  let answer := s.command.step (s.context c)
  let stepped := { s with command := answer.1, decisions := s.decisions ++ [answer.2] }
  if looks (s.context c) then stepped.tell (.seen s.sample_ms s.sample) else stepped

/-- A decision that `current` admits, of any step that was made. -/
def admit_press (i : Nat) (side : Side) (now : Nat) : World :=
  match s.decisions[i]? with
  | some decision =>
    if s.command.current decision side now then { s with dispatch := .admitted decision side } else s
  | none => s

def transmit (decision : TaxiButtonCommandDecision) (side : Side) (accepted : Bool) : World :=
  let transmitted := { s with dispatch := .transmitted decision side accepted }
  if accepted then
    let toggle : Toggle := ⟨s.accepted side + 1, has decision.desired_mask side, decision.serial⟩
    { transmitted with
      accepted := Function.update s.accepted side (s.accepted side + 1)
      under_way := Function.update s.under_way side (s.under_way side ++ [toggle]) }.tell
      (.accepted side (has decision.desired_mask side) decision.button_sample_ms)
  else transmitted

def record_press (decision : TaxiButtonCommandDecision) (side : Side) (accepted : Bool) (now : Nat) :
    World :=
  let recorded := { s with command := s.command.sent decision side accepted now, dispatch := .idle }
  if accepted then recorded.tell (.recorded side now) else recorded

/-- The press that was accepted last has not run. -/
def last_under_way (side : Side) : Bool :=
  (s.under_way side).any fun toggle => toggle.number == s.accepted side

def reject_press (side : Side) : World :=
  let rejected := { s with
    command := s.command.rejected side
    under_way := Function.update s.under_way side
      ((s.under_way side).filter fun toggle => toggle.number != s.accepted side) }
  let told := if (s.command.flights side).active && !s.last_under_way side then
    rejected.tell (.misreported side) else rejected
  told.tell (.rejected side)

def deliver (ms : Nat) : World :=
  match s.observed with
  | [] => s
  | sample :: rest =>
    if s.sample_ms ≤ ms then { s with observed := rest, sample, sample_ms := ms } else s

def execute (side : Side) (k : Nat) : World :=
  match (s.under_way side)[k]? with
  | none => s
  | some toggle =>
    { s with
      positions := s.positions ^^^ bit side
      under_way := Function.update s.under_way side ((s.under_way side).eraseIdx k) }.tell
      (.executed side toggle.desired toggle.serial (has s.positions side))

inductive Operation
  | update (request : TaxiButtonRequest) (permitted : Bool) (now epoch profile : Nat)
      (aircraft_buttons : Bool)
  | step (c : TaxiButtonCommandContext)
  | current (i : Nat) (side : Side) (now : Nat)
  | transmit (accepted : Bool)
  | sent (now : Nat)
  | rejected (side : Side)
  | observe
  | deliver (ms : Nat)
  | execute (side : Side) (k : Nat)
  | press (side : Side)

/-- The dispatcher finishes one press before its next call. -/
def step : Operation → World
  | .update request permitted now epoch profile aircraft_buttons =>
    s.update request permitted now epoch profile aircraft_buttons
  | .step c => match s.dispatch with
    | .idle => s.step_command c
    | _ => s
  | .current i side now => match s.dispatch with
    | .idle => s.admit_press i side now
    | _ => s
  | .transmit accepted => match s.dispatch with
    | .admitted decision side => s.transmit decision side accepted
    | _ => s
  | .sent now => match s.dispatch with
    | .transmitted decision side accepted => s.record_press decision side accepted now
    | _ => s
  | .rejected side => match s.dispatch with
    | .idle => s.reject_press side
    | _ => s
  | .observe => { s with observed := s.observed ++ [s.positions] }
  | .deliver ms => s.deliver ms
  | .execute side k => s.execute side k
  | .press side => { s with positions := s.positions ^^^ bit side }.tell (.pressed side)

end World

end TaxiButtonCommand

end taxi_camera.native_camera
