-- The flight session of the telemetry worker: the simulator's lifecycle, the
-- identity of the aircraft, and what a reader of the readiness makes of them.
-- src/camera/aircraft_identity.hpp and the session parts of
-- src/camera/body_pose_provider.cpp. Times are in milliseconds; the checks of
-- the float values of a packet are inputs.
import Mathlib.Data.BitVec
import Mathlib.Order.Basic

namespace taxi_camera.flight_session

def UINT64_MAX : Nat := 0xffffffffffffffff

/-! ## The lifecycle -/

/-- What `AircraftSessionLifecycle::accept` reads of a packet: its size, six words of its header, and
whether its text ends inside its field. -/
structure SessionPacket where
  bytes : Nat
  declared : Nat
  receive : Nat
  word3 : Nat := 0
  word4 : Nat := 0
  word5 : Nat := 0
  terminated : Bool := true
deriving DecidableEq

/-- `AircraftSessionLifecycle`. -/
structure AircraftSessionLifecycle where
  epoch : Nat := 0
  known : Bool := false
  sim_running : Bool := false
  sim_paused : Bool := false
  pending : BitVec 3 := 0#3
  last_flow_event : Nat := 0
deriving DecidableEq

namespace AircraftSessionLifecycle

def SimEvent : Nat := 100
def AircraftEvent : Nat := 101
def FlightEvent : Nat := 102
def PauseEvent : Nat := 103

def FltLoad : Nat := 1
def FltLoaded : Nat := 2
def TeleportStart : Nat := 3
def TeleportDone : Nat := 4
def BackToMainMenu : Nat := 9
def FlightStart : Nat := 14
def FlightEnd : Nat := 15

def flow_receive_id (id : Nat) : Bool := id == 39 || id == 40

/-- Whether the packet is a flow event, before its event is looked at. -/
def flow_shaped (p : SessionPacket) : Bool :=
  flow_receive_id p.receive && p.bytes == 272 && p.terminated

def pause_shaped (p : SessionPacket) : Bool :=
  p.receive == 4 && p.bytes == 24 && p.word4 == PauseEvent

def sim_shaped (p : SessionPacket) : Bool :=
  p.receive == 4 && p.bytes == 24 && p.word4 == SimEvent && decide (p.word5 ≤ 1)

def load_shaped (p : SessionPacket) : Bool :=
  p.receive == 6 && p.bytes == 288 && (p.word4 == AircraftEvent || p.word4 == FlightEvent) && p.terminated

/-- The bit of a flow event that starts something. -/
def start_bit (event : Nat) : Option (BitVec 3) :=
  if event = FltLoad then some 1#3
  else if event = TeleportStart then some 2#3
  else if event = BackToMainMenu ∨ event = FlightEnd then some 4#3
  else none

/-- The bit of a flow event that completes something. -/
def done_bit (event : Nat) : Option (BitVec 3) :=
  if event = FltLoaded then some 1#3
  else if event = TeleportDone then some 2#3
  else if event = FlightStart then some 4#3
  else none

variable (s : AircraftSessionLifecycle)

def changed : AircraftSessionLifecycle :=
  if s.epoch = UINT64_MAX then s else { s with epoch := s.epoch + 1 }

def running : Bool := !s.known || s.sim_running

def loading : Bool := s.pending != 0#3

/-- A completion invalidates samples, but it makes no other session. -/
def accept_flow (event : Nat) : AircraftSessionLifecycle × Bool :=
  match start_bit event with
  | some bit =>
    let started := { s with last_flow_event := event, pending := s.pending ||| bit }
    (if s.loading then started else started.changed, s.pending != s.pending ||| bit)
  | none =>
    match done_bit event with
    | none => (s, false)
    | some bit =>
      ({ s with
          last_flow_event := event
          pending := s.pending &&& ~~~bit
          sim_paused := s.sim_paused && event != FlightStart }, s.pending != s.pending &&& ~~~bit)

/-- The first Sim event reports the current state. -/
def accept_sim (on : Bool) : AircraftSessionLifecycle × Bool :=
  let transition := s.known && s.sim_running != on
  let known := { s with known := true, sim_running := on }
  (if transition && !s.loading then known.changed else known, transition && !s.loading)

/-- The answer is whether the session changed. -/
def accept (p : SessionPacket) : AircraftSessionLifecycle × Bool :=
  if p.bytes < 24 ∨ 65536 < p.bytes ∨ p.declared ≠ p.bytes then (s, false)
  else if flow_shaped p then s.accept_flow p.word3
  else if pause_shaped p then ({ s with sim_paused := p.word5 != 0 }, false)
  else if sim_shaped p then s.accept_sim (p.word5 != 0)
  else if load_shaped p && !s.loading then (s.changed, true)
  else (s, false)

/-- The first Sim event, where it reports a stopped simulator. -/
def stops_first (p : SessionPacket) : Bool := !s.known && sim_shaped p && p.word5 == 0

end AircraftSessionLifecycle

/-! ## The identity -/

structure AircraftIdentitySample where
  type : String := ""
  path : String := ""
  sample_ms : Nat := 0
  detected_profile : Nat := 0
  fresh : Bool := false
deriving DecidableEq

/-- A response to an identity request: a type or a path. -/
structure IdentityPacket where
  bytes : Nat
  declared : Nat
  receive : Nat
  request : Nat := 0
  define : Nat := 0
  flags : Nat := 0
  count : Nat := 0
  text : String := ""
  terminated : Bool := true

/-- `AircraftIdentityCache`. -/
structure AircraftIdentityCache where
  value : AircraftIdentitySample := {}
  pending : AircraftIdentitySample := {}
  type_ms : Nat := 0
  path_ms : Nat := 0
  pending_type_ms : Nat := 0
  pending_path_ms : Nat := 0
  type_request : Nat := 5
  path_request : Nat := 6
deriving DecidableEq

namespace AircraftIdentityCache

variable (s : AircraftIdentityCache)

def begin_request (type_request path_request : Nat) : AircraftIdentityCache :=
  { s with type_request, path_request, pending := {}, pending_type_ms := 0, pending_path_ms := 0 }

/-- Both responses of the poll are there: they take the place of the value. -/
def settle : AircraftIdentityCache :=
  if s.pending_type_ms ≠ 0 ∧ s.pending_path_ms ≠ 0 then
    { s with
      value := s.pending
      type_ms := s.pending_type_ms
      path_ms := s.pending_path_ms
      pending_type_ms := 0
      pending_path_ms := 0 }
  else s

def accept (p : IdentityPacket) (now : Nat) : AircraftIdentityCache × Bool :=
  if p.bytes < 24 ∨ 65536 < p.bytes ∨ now = 0 then (s, false)
  else
    let type := p.bytes == 296 && p.declared == 296 && p.receive == 8 && p.request == s.type_request &&
      p.define == 5 && p.flags == 0 && p.count == 1
    let path := p.bytes == 284 && p.declared == 284 && p.receive == 15 && p.request == s.path_request
    if (!type && !path) || !p.terminated then (s, false)
    else if type then
      ({ s with pending := { s.pending with type := p.text }, pending_type_ms := now }.settle, true)
    else ({ s with pending := { s.pending with path := p.text }, pending_path_ms := now }.settle, true)

/-- `detect` is `profiles::detect_aircraft`. -/
def sample (detect : String → String → Nat) (now : Nat) : AircraftIdentitySample :=
  let sample_ms := min s.type_ms s.path_ms
  { s.value with
    sample_ms
    fresh := sample_ms != 0 && decide (sample_ms ≤ now) && decide (now - sample_ms ≤ 3000)
    detected_profile := if sample_ms = 0 then s.value.detected_profile
      else detect s.value.type s.value.path }

end AircraftIdentityCache

/-! ## The telemetry -/

/-- What the lock of the worker's state guards, as far as the readiness depends on it. -/
structure State where
  aircraft_session : AircraftSessionLifecycle := {}
  identity : AircraftIdentityCache := {}
  aircraft_ms : Nat := 0
  camera_ms : Nat := 0
  invalid_camera_first_ms : Nat := 0
  invalid_camera_samples : Nat := 0
  flow_subscribed : Bool := false
  flow_error : String := "flow_not_subscribed"
  error : String := "not_initialized"
deriving DecidableEq

def InvalidCameraWorldResetSamples : Nat := 3
def InvalidCameraWorldResetMs : Nat := 1000

/-- A body packet; `pose_valid` is about its values. -/
structure AircraftPacket where
  bytes : Nat
  shaped : Bool
  pose_valid : Bool
  sample_ms : Nat

/-- A camera packet; `valid` is about its values. -/
structure CameraPacket where
  bytes : Nat
  declared : Nat
  receive : Nat
  valid : Bool
  sample_ms : Nat

def fresh (sample now : Nat) : Bool := sample != 0 && decide (sample ≤ now) && decide (now - sample ≤ 500)

namespace State

variable (s : State)

/-- `reset_session_locked`. -/
def reset_session : State :=
  { s with
    identity := {}
    aircraft_ms := 0
    camera_ms := 0
    invalid_camera_first_ms := 0
    invalid_camera_samples := 0
    error := "aircraft_session_changed" }

def failure (text : String) : State := { s with error := text, aircraft_ms := 0, camera_ms := 0 }

def aircraft_shaped (p : AircraftPacket) : Bool :=
  decide (96 ≤ p.bytes) && decide (p.bytes ≤ 65536) && p.sample_ms != 0 && p.shaped

def accept_aircraft_packet (p : AircraftPacket) : State :=
  if !aircraft_shaped p then s
  else if p.pose_valid then { s with aircraft_ms := p.sample_ms, error := "" }
  else { s with aircraft_ms := 0, camera_ms := 0, error := "aircraft_values" }

def camera_shaped (p : CameraPacket) : Bool :=
  p.bytes == 96 && p.sample_ms != 0 && p.declared == p.bytes && (p.receive == 40 || p.receive == 41)

/-- The answer is whether an unbroken run of invalid samples asks for a reset. -/
def accept_camera_packet (p : CameraPacket) : State × Bool :=
  if !camera_shaped p then (s, false)
  else if p.valid then
    ({ s with camera_ms := p.sample_ms, invalid_camera_first_ms := 0, invalid_camera_samples := 0 }, false)
  else
    let first :=
      if s.invalid_camera_samples = 0 ∨ p.sample_ms < s.invalid_camera_first_ms then p.sample_ms
      else s.invalid_camera_first_ms
    let samples :=
      if s.invalid_camera_samples < InvalidCameraWorldResetSamples then s.invalid_camera_samples + 1
      else s.invalid_camera_samples
    ({ s with invalid_camera_first_ms := first, invalid_camera_samples := samples },
      decide (InvalidCameraWorldResetSamples ≤ samples) &&
        decide (InvalidCameraWorldResetMs ≤ p.sample_ms - first))

end State

/-! ## The readiness -/

/-- `invalid_world`: bit 0 is a notice, bit 1 that one was serviced. -/
structure InvalidWorld where
  notice : Bool := false
  serviced : Bool := false
deriving DecidableEq

structure AircraftSessionReadiness where
  epoch : Nat := 0
  loading : Bool := false
  ready : Bool := false
  flow_subscribed : Bool := false
  paused : Bool := false
  cached : Bool := false
  last_flow_event : Nat := 0
  error : String := "not_initialized"
  flight_loaded : Bool := false
deriving DecidableEq

/-- The error of a readiness. -/
def State.readiness_error (s : State) (loading telemetry : Bool) : String :=
  if s.aircraft_session.loading then "aircraft_session_loading"
  else if loading then "camera_world_revalidation"
  else if !s.aircraft_session.running then "simulator_stopped"
  else if !telemetry && s.invalid_camera_samples != 0 then "camera_world_values_pending"
  else if !telemetry then "aircraft_session_telemetry_pending"
  else s.flow_error

/-- Identity, body and camera are fresh, and the aircraft is supported. -/
def State.telemetry (s : State) (detect : String → String → Nat) (now : Nat) : Bool :=
  (s.identity.sample detect now).fresh && (s.identity.sample detect now).detected_profile != 0 &&
    fresh s.aircraft_ms now && fresh s.camera_ms now

/-- `readiness_locked` up to its exchange, with the notice that it loaded. -/
def State.readiness (s : State) (detect : String → String → Nat) (now : Nat) (pending : InvalidWorld) :
    AircraftSessionReadiness where
  epoch := s.aircraft_session.epoch
  loading := s.aircraft_session.loading || pending != {}
  ready := !s.aircraft_session.loading && s.aircraft_session.running && !pending.notice &&
    s.telemetry detect now
  flow_subscribed := s.flow_subscribed
  paused := s.aircraft_session.sim_paused
  last_flow_event := s.aircraft_session.last_flow_event
  error := s.readiness_error (s.aircraft_session.loading || pending != {}) (s.telemetry detect now)
  flight_loaded := !s.aircraft_session.loading && s.aircraft_session.running && !pending.notice &&
    (s.identity.sample detect now).fresh && fresh s.aircraft_ms now && fresh s.camera_ms now

/-- The exchange of a reader whose telemetry is ready after a serviced notice. -/
def State.revalidate (s : State) (out : AircraftSessionReadiness) (cleared : Bool) :
    AircraftSessionReadiness :=
  { out with ready := cleared, loading := !cleared, error := s.readiness_error (!cleared) true }

/-! ## Laws -/

namespace AircraftSessionLifecycle

variable {s : AircraftSessionLifecycle}

/-- The session is loading, or its simulator is stopped: nothing is ready. -/
def closed (s : AircraftSessionLifecycle) : Bool := s.loading || !s.running

theorem start_bit_ne_zero {event : Nat} {bit : BitVec 3} (h : start_bit event = some bit) : bit ≠ 0#3 := by
  unfold start_bit at h
  split at h
  · cases h
    decide
  split at h
  · cases h
    decide
  split at h
  · cases h
    decide
  · cases h

/-- What a packet makes of the session: samples are dropped with every other epoch; and where they are
dropped, or nothing is ready afterwards, the epoch is the next or the session was `quiet` before. -/
structure Turns (quiet : Prop) (s t : AircraftSessionLifecycle) (dropped : Bool) : Prop where
  epoch : t.epoch = s.epoch ∨ t.epoch = s.epoch + 1 ∧ dropped = true
  renewed : dropped = true ∨ t.closed = true → t.epoch = s.epoch + 1 ∨ quiet

variable {quiet : Prop}
variable {t : AircraftSessionLifecycle}

theorem Turns.none (hquiet : s.closed = true → quiet)
    (hepoch : t.epoch = s.epoch) (hclosed : t.closed = s.closed) : Turns quiet s t false where
  epoch := .inl hepoch
  renewed h := .inr (hquiet (hclosed ▸ h.resolve_left Bool.false_ne_true))

theorem Turns.next (h : t.epoch = s.epoch + 1) : Turns quiet s t true where
  epoch := .inr ⟨h, rfl⟩
  renewed _ := .inl h

theorem changed_epoch (h : s.epoch ≠ UINT64_MAX) : s.changed.epoch = s.epoch + 1 := by
  unfold changed
  rw [if_neg h]

/-- A flow that was not under way starts with another session. -/
theorem accept_flow_turns (h : s.epoch ≠ UINT64_MAX) (hquiet : s.closed = true → quiet) (event : Nat) :
    Turns quiet s (s.accept_flow event).1 (s.accept_flow event).2 := by
  unfold accept_flow
  cases hstart : start_bit event with
  | some bit =>
    dsimp only
    cases hloading : s.loading with
    | true =>
      exact ⟨.inl rfl, fun _ => .inr (hquiet (by simp [closed, hloading]))⟩
    | false =>
      have hbefore : s.pending = 0#3 := by simpa [loading] using hloading
      have hbit : bit ≠ 0#3 := start_bit_ne_zero hstart
      have hdropped : (s.pending != s.pending ||| bit) = true := by
        rw [hbefore]
        simpa using Ne.symm hbit
      rw [hdropped]
      exact Turns.next (changed_epoch (s := { s with last_flow_event := event, pending := s.pending ||| bit }) h)
  | none =>
    cases hdone : done_bit event with
    | none => exact Turns.none hquiet rfl rfl
    | some bit =>
      refine ⟨.inl rfl, fun hdropped => .inr (hquiet ?_)⟩
      cases hloading : s.loading with
      | true => simp [closed, hloading]
      | false =>
        -- Nothing was under way, so nothing is completed.
        have hnone : s.pending = 0#3 := by simpa [loading] using hloading
        rcases hdropped with hdropped | hclosed
        · simp [hnone] at hdropped
        · simpa [closed, loading, running, hnone] using hclosed

theorem accept_sim_turns (h : s.epoch ≠ UINT64_MAX) (hquiet : s.closed = true → quiet) (on : Bool)
    (hfirst : s.known = false → on = false → quiet) :
    Turns quiet s (s.accept_sim on).1 (s.accept_sim on).2 := by
  unfold accept_sim
  dsimp only
  cases hchanges : (s.known && s.sim_running != on && !s.loading) with
  | true =>
    exact Turns.next (changed_epoch (s := { s with known := true, sim_running := on }) h)
  | false =>
    rw [if_neg Bool.false_ne_true]
    refine ⟨.inl rfl, fun hclosed => .inr ?_⟩
    have hafter := hclosed.resolve_left Bool.false_ne_true
    cases hloading : s.loading with
    | true => exact hquiet (by simp [closed, hloading])
    | false =>
      have hsame : ({ s with known := true, sim_running := on } : AircraftSessionLifecycle).loading = s.loading := rfl
      have hoff : on = false := by
        simp only [closed, running, Bool.not_true, Bool.false_or, hsame, hloading] at hafter
        simpa using hafter
      cases hknown : s.known with
      | false => exact hfirst hknown hoff
      | true =>
        -- The simulator was reported stopped before.
        rw [hknown, hoff, hloading] at hchanges
        simp only [Bool.true_and, Bool.not_false, Bool.and_true, bne_eq_false_iff_eq] at hchanges
        exact hquiet (by simp [closed, running, hknown, hchanges])

theorem accept_turns (h : s.epoch ≠ UINT64_MAX) (hquiet : s.closed = true → quiet) {p : SessionPacket}
    (hfirst : s.stops_first p = true → quiet) :
    Turns quiet s (s.accept p).1 (s.accept p).2 := by
  unfold accept
  split
  · exact Turns.none hquiet rfl rfl
  split
  · exact accept_flow_turns h hquiet p.word3
  split
  · exact Turns.none hquiet rfl rfl
  split
  · rename_i hsim
    refine accept_sim_turns h hquiet _ fun hknown hoff => hfirst ?_
    have hzero : p.word5 = 0 := by simpa using hoff
    simp [stops_first, hknown, hsim, hzero]
  split
  · exact Turns.next (changed_epoch h)
  · exact Turns.none hquiet rfl rfl

end AircraftSessionLifecycle

end taxi_camera.flight_session
