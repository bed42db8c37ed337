-- The presentation watchdog: from samples of two counters of frames it trips
-- the graphics gate, recovers it, and holds it closed after repeated stalls.
-- `FreezeWatchdog` of src/bridge/freeze_watchdog.hpp.
import TaxiCam.Runs
import Mathlib.Data.List.Perm.Subperm

namespace taxi_camera

open runs

namespace FreezeWatchdog

/-! ## Samples and decisions -/

def StallMs : Nat := 3000
def RecoveryMs : Nat := 5000
def HoldTrips : Nat := 3
def HoldWindowMs : Nat := 300000

structure Sample where
  now_ms : Nat := 0
  frame_pulse : Nat := 0
  pulse_available : Bool := false
  sim_frames : Nat := 0
  sim_frames_expected : Bool := false
  armed : Bool := false
  worker_alive : Bool := false
  cameras_wanted : Bool := false
deriving DecidableEq

structure Decision where
  trip : Bool := false
  recover : Bool := false
  hold : Bool := false
  telemetry_stall_noted : Bool := false
  presentation_stall_noted : Bool := false
  cameras_wanted : Bool := false
  worker_alive : Bool := false
  reason : String := ""
  stalled_ms : Nat := 0
deriving DecidableEq

end FreezeWatchdog

open FreezeWatchdog

/-! ## The watchdog -/

/-- Zero in a time is unset. -/
structure FreezeWatchdog where
  last_pulse : Nat := 0
  pulse_since : Nat := 0
  last_sim : Nat := 0
  sim_since : Nat := 0
  recover_since : Nat := 0
  /-- Latest counted trip times. -/
  trip_ms : List Nat := List.replicate HoldTrips 0
  trips : Nat := 0
  counted : Nat := 0
  tripped : Bool := false
  held : Bool := false
  wanted_at_progress : Bool := false
  telemetry_noted : Bool := false
  presentation_noted : Bool := false
deriving DecidableEq

namespace FreezeWatchdog

/-- Unsigned subtraction in 64 bits. -/
def elapsed (now since : Nat) : Nat :=
  (now + 0x10000000000000000 - since) % 0x10000000000000000

section
variable (w : FreezeWatchdog) (s : Sample)

/-- Nothing to guard: the stall timers are forgotten. -/
def disarm : FreezeWatchdog :=
  { w with
    pulse_since := 0, sim_since := 0, recover_since := 0
    telemetry_noted := false, presentation_noted := false }

def pulse_advanced : Bool :=
  s.pulse_available && (decide (w.pulse_since = 0) || decide (s.frame_pulse ≠ w.last_pulse))

def sim_advanced : Bool := decide (w.sim_since = 0) || decide (s.sim_frames ≠ w.last_sim)

/-- The timers after the counters of an armed sample. -/
def track : FreezeWatchdog :=
  let pulse := w.pulse_advanced s || !s.pulse_available
  let sim := w.sim_advanced s
  { w with
    last_pulse := if pulse then s.frame_pulse else w.last_pulse
    pulse_since := if pulse then s.now_ms else w.pulse_since
    presentation_noted := if pulse then false else w.presentation_noted
    last_sim := if sim then s.sim_frames else w.last_sim
    sim_since := if sim then s.now_ms else w.sim_since
    telemetry_noted := if sim then false else w.telemetry_noted
    wanted_at_progress :=
      if w.pulse_advanced s || (!s.pulse_available && sim) then s.cameras_wanted
      else w.wanted_at_progress }

def pulse_stalled_ms : Nat :=
  if s.pulse_available = true ∧ s.now_ms ≥ w.pulse_since then s.now_ms - w.pulse_since else 0

def sim_stalled_ms : Nat := if s.now_ms ≥ w.sim_since then s.now_ms - w.sim_since else 0

def pulse_stalled : Bool := s.pulse_available && decide (w.pulse_stalled_ms s ≥ StallMs)

def sim_stalled : Bool := decide (w.sim_stalled_ms s ≥ StallMs)

def telemetry_stalled : Bool := s.sim_frames_expected && w.sim_stalled s

/-- The time of a counted trip is inside the hold window. -/
def recent (now_ms at_ms : Nat) : Bool :=
  decide (at_ms ≠ 0 ∧ now_ms ≥ at_ms ∧ now_ms - at_ms < HoldWindowMs)

def recent_trips (now_ms : Nat) : Nat := w.trip_ms.countP (recent now_ms)

/-- A tripped watchdog waits for frames to have resumed. -/
def resume (progressing : Bool) : FreezeWatchdog × Decision :=
  let decision : Decision := { worker_alive := s.worker_alive }
  if w.held = true ∨ progressing = false then ({ w with recover_since := 0 }, decision)
  else if w.recover_since = 0 then ({ w with recover_since := s.now_ms }, decision)
  else if elapsed s.now_ms w.recover_since ≥ RecoveryMs then
    if s.cameras_wanted = true ∧ w.recent_trips s.now_ms ≥ HoldTrips then
      ({ w with recover_since := 0, held := true },
        { decision with hold := true, reason := "repeated_stalls" })
    else
      ({ w with recover_since := 0, tripped := false },
        { decision with recover := true, reason := "presentation_resumed" })
  else (w, decision)

/-- A stall of the pulse and of the telemetry, or of the telemetry that stands in for the pulse. -/
def stalled : Bool :=
  (w.pulse_stalled s && (w.sim_stalled s || decide (s.sim_frames = 0))) ||
    (!s.pulse_available && w.telemetry_stalled s)

def trip : FreezeWatchdog × Decision :=
  ({ w with
      tripped := true
      trip_ms :=
        if w.wanted_at_progress then
          w.trip_ms.set (w.counted % HoldTrips) (if s.now_ms ≠ 0 then s.now_ms else 1)
        else w.trip_ms
      counted := if w.wanted_at_progress then (w.counted + 1) % 0x100000000 else w.counted
      trips := (w.trips + 1) % 0x100000000
      recover_since := 0 },
    { trip := true
      worker_alive := s.worker_alive
      cameras_wanted := w.wanted_at_progress
      reason :=
        if w.pulse_stalled s then
          if s.sim_frames ≠ 0 then "presentation_and_sim_frame_stalled"
          else "presentation_stalled_no_telemetry"
        else "sim_frame_stalled_before_first_submit"
      stalled_ms := if w.pulse_stalled s then w.pulse_stalled_ms s else w.sim_stalled_ms s })

/-- One counter that is quiet while the other goes on is noted once. -/
def note : FreezeWatchdog × Decision :=
  let presentation := w.pulse_stalled s && !w.presentation_noted
  let telemetry := w.telemetry_stalled s && !w.telemetry_noted
  ({ w with
      presentation_noted := w.presentation_noted || presentation
      telemetry_noted := w.telemetry_noted || telemetry },
    { worker_alive := s.worker_alive
      presentation_stall_noted := presentation
      telemetry_stall_noted := telemetry
      reason :=
        if telemetry then "sim_frame_stalled_presentation_alive"
        else if presentation then "presentation_stalled_sim_frame_alive"
        else ""
      stalled_ms :=
        if telemetry then w.sim_stalled_ms s
        else if presentation then w.pulse_stalled_ms s
        else 0 })

def observe : FreezeWatchdog × Decision :=
  if s.armed = false then (w.disarm, { worker_alive := s.worker_alive })
  else
    let tracked := w.track s
    let progressing := if s.pulse_available then w.pulse_advanced s else w.sim_advanced s
    if w.tripped then tracked.resume s progressing
    else if tracked.stalled s then tracked.trip s
    else tracked.note s

/-- The pilot turned the cameras off after a hold. -/
def release : FreezeWatchdog × Decision :=
  if w.held = false then (w, {})
  else
    ({ w with held := false, tripped := false, recover_since := 0 },
      { recover := true, reason := "released_after_hold" })

end

/-! ## Calls, and the log of them -/

inductive Call
  | observe (sample : Sample)
  | release
deriving DecidableEq

def call (w : FreezeWatchdog) : Call → FreezeWatchdog × Decision
  | .observe sample => w.observe sample
  | .release => w.release

end FreezeWatchdog

/-- A call and what it decided. -/
structure LogEntry where
  call : Call
  decision : Decision
deriving DecidableEq

/-- The watchdog, and its calls: the last one first. -/
structure LoggedWatchdog where
  watchdog : FreezeWatchdog := {}
  log : List LogEntry := []

namespace LoggedWatchdog

def step (l : LoggedWatchdog) (c : Call) : LoggedWatchdog where
  watchdog := (l.watchdog.call c).1
  log := ⟨c, (l.watchdog.call c).2⟩ :: l.log

end LoggedWatchdog

end taxi_camera
