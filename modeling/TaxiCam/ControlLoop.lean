-- The control loop of the bridge: what it reads of the companion, and the
-- transition to another aircraft, flight, layout or connection, with the camera
-- manager's token and the GPU session of the device. src/shared/companion_control.hpp
-- and run_impl of src/bridge/bridge_main.cpp; the other threads go on between
-- the calls of a pass.
import TaxiCam.SceneSessions

namespace taxi_camera.control_loop

open scene_runtime

/-! ## The companion -/

structure Settings where
  enabled : Bool := false
  profile : Nat := 0
  profile_request : Nat := 0
deriving DecidableEq

/-- `CompanionControl`. -/
structure CompanionControl where
  settings : Settings := {}
  heartbeat : Nat := 0
  owner_pid : Nat := 0

/-- What a `refresh` finds: the mailbox is busy or fails, or it has a message; `valid` is about its
magic, version, size and settings. -/
inductive Mail
  | busy
  | failed
  | message (valid : Bool) (owner_pid owner_heartbeat : Nat) (settings : Settings)

namespace CompanionControl

def MaximumHeartbeatAgeMs : Nat := 5000

/-- Contention is not OFF: a busy mailbox leaves what was read. -/
def refresh (c : CompanionControl) : Mail → CompanionControl
  | .busy => c
  | .failed => {}
  | .message valid owner_pid owner_heartbeat settings =>
    if valid && owner_pid != 0 then { settings, heartbeat := owner_heartbeat, owner_pid } else {}

def connected (c : CompanionControl) (now : Nat) : Bool :=
  c.heartbeat != 0 && decide (c.heartbeat ≤ now) &&
    decide (now - c.heartbeat ≤ MaximumHeartbeatAgeMs)

end CompanionControl

def UINT64_MAX : Nat := 0xffffffffffffffff

/-- `CompanionSetupSession`. -/
structure CompanionSetupSession where
  active : Bool := false
  owner : Nat := 0
  request : Nat := 0
  generation : Nat := 0

structure Change where
  started : Bool
  stopped : Bool
  generation : Nat

def CompanionSetupSession.observe (s : CompanionSetupSession) (connected enabled : Bool)
    (owner request : Nat) : CompanionSetupSession × Change :=
  let active := connected && enabled && owner != 0
  let started := active && (!s.active || owner != s.owner || request != s.request)
  let stopped := s.active && !active
  let generation :=
    if started && s.generation != UINT64_MAX then s.generation + 1 else s.generation
  ({ active, owner, request, generation }, { started, stopped, generation })

/-! ## The camera manager's transitions -/

/-- What `scene_snapshot` has of a transition. -/
structure Transition where
  token : Nat := 0
  id : Nat := 0
  ready : Bool := false
  pending : Bool := false
  failed : Bool := false
deriving DecidableEq

/-- `token` is the manager's, `published` what it last published. -/
structure Manager where
  token : Nat := 0
  published : Transition := {}

/-- How the pair stands when a transition is published. -/
structure Standing where
  ready : Bool := false
  pending : Bool := false
  failed : Bool := false

namespace Manager

/-- `request_scene_profile_transition` and `request_scene_session_reset`: both take a new token and
publish it with their profile. `known` is the answer of `profiles::find`. -/
def request (m : Manager) (profile : Nat) (known : Bool) (s : Standing) : Manager × Nat :=
  if !known || m.token == UINT64_MAX then (m, 0)
  else
    ({ token := m.token + 1
       published :=
        { token := m.token + 1, id := profile, ready := s.ready, pending := s.pending
          failed := s.failed } }, m.token + 1)

/-- A transition of the manager's own. -/
def advance (m : Manager) : Manager :=
  if m.token = UINT64_MAX then m else { m with token := m.token + 1 }

def publish (m : Manager) (id : Nat) (s : Standing) : Manager :=
  { m with
    published :=
      { token := m.token, id, ready := s.ready, pending := s.pending, failed := s.failed } }

end Manager

/-- The manager began a transition of its own after the bridge applied one. -/
def camera_manager_transition (applied_token : Nat) (scene : Transition) (session_unchanged : Bool) :
    Bool :=
  applied_token != 0 && session_unchanged && scene.token != applied_token

/-! ## The loop -/

/-- `get_aircraft_session_readiness`. -/
structure Readiness where
  epoch : Nat := 0
  ready : Bool := false
  loading : Bool := false

/-- What an application of a transition found: the manager's transition, the readiness of the
session, and the device. -/
structure Applied where
  profile : Nat
  session_epoch : Nat
  token : Nat
  transition : Transition
  session : Readiness
  device : Option Status

/-- What is told of the loop: the connection stopped, a transition is asked for, its GPU session is
reset, the manager gave a token for a profile, the transition is applied, a camera start is
requested. -/
inductive Event
  | stopped
  | began (profile : Nat)
  | reset (generation : Nat)
  | requested (token profile : Nat)
  | applied (a : Applied)
  | started

structure Loop where
  control : CompanionControl := {}
  connection_session : CompanionSetupSession := {}
  applied_profile : Nat := 0
  applied_profile_request : Nat := 0
  applied_session_epoch : Nat := 0
  applied_connection : Nat := 0
  pending_profile : Nat := 0
  pending_profile_request : Nat := 0
  pending_session_epoch : Nat := 0
  pending_connection : Nat := 0
  transition_token : Nat := 0
  changing_profile : Bool := false
  pending_full_reset : Bool := false
  pending_telemetry_selected : Bool := false
  pending_gpu_generation : Nat := 0
  manager : Manager := {}
  world : World := {}
  told : List Event := []

/-- What other threads do: a call of the runtime, or the manager goes on or publishes. Only the loop
resets a session, or resumes it. -/
inductive Outside
  | runtime (op : World.Op)
  | advance
  | publish (id : Nat) (s : Standing)

/-- The cameras of the pair, and whether the catalog has a profile, when `pair_can_be_kept` asks. -/
structure Pair where
  known : Bool := true
  owned : Nat := 0

/-- What the start of a camera finds: it is wanted, and its setup is current after the shaders were
prepared and the companion was read again. -/
structure Start where
  wanted : Bool := false
  natives : World.Natives := fun _ => {}
  mail : Mail := .busy
  current : Bool := true

/-- What a pass of the loop reads, and what other threads do in it. -/
structure Pass where
  mail : Mail := .busy
  now : Nat := 0
  session_epoch : Nat := 0
  session : Readiness := {}
  layout_changed : Bool := false
  choices_changed : Bool := false
  reshaped : Bool := false
  known : Bool := true
  standing : Standing := {}
  natives : World.Natives := fun _ => {}
  asked : Pair := {}
  found : Pair := {}
  selected : Bool := true
  transition_session : Readiness := {}
  start : Start := {}
  before : List Outside := []
  asking : List Outside := []
  resetting : List Outside := []
  awaiting : List Outside := []
  reading : List Outside := []
  applying : List Outside := []
  after : List Outside := []

/-- `profiles::CameraViews`. -/
def CameraViews : Nat := 4

namespace Loop

def outside (l : Loop) : Outside → Loop
  | .runtime op => if World.keeps_sessions op then { l with world := l.world.step op } else l
  | .advance => { l with manager := l.manager.advance }
  | .publish id s => { l with manager := l.manager.publish id s }

def meanwhile (l : Loop) (work : List Outside) : Loop := work.foldl outside l

def tell (l : Loop) (e : Event) : Loop := { l with told := l.told ++ [e] }

def pair_can_be_kept (l : Loop) (profile : Nat) (pair : Pair) : Bool :=
  profile == l.applied_profile || (pair.known && decide (CameraViews ≤ pair.owned))

def reset_feed (l : Loop) (key : Nat) (natives : World.Natives) : Loop :=
  { l with world := l.world.reset_feed natives key }

/-- `scene_runtime::reset_session`, whose answer is the pending generation. -/
def reset_gpu (l : Loop) (key : Nat) (natives : World.Natives) : Loop :=
  let answer := l.world.reset_session natives key
  ({ l with world := answer.1, pending_gpu_generation := answer.2 }).tell (.reset answer.2)

/-! ### The head of a pass -/

/-- The connection is over: the cameras are closed and the transition is dropped, but not the reset
that it asked for. -/
def stop (l : Loop) (key : Nat) (p : Pass) : Loop :=
  let settings := l.control.settings
  let profile := if l.applied_profile ≠ 0 then l.applied_profile else settings.profile
  let l :=
    if l.pending_full_reset then l
    else { l with manager := (l.manager.request profile p.known p.standing).1 }
  ({ l.reset_feed key p.natives with changing_profile := false, transition_token := 0 }).tell .stopped

/-- What the head of a pass answers: what changed of the connection, and whether the companion asks
for cameras. -/
structure Head where
  change : Change
  asks : Bool

/-- The companion's message is read, and the connection observed. -/
def observe (l : Loop) (key : Nat) (p : Pass) : Loop × Head :=
  let l := { l with control := l.control.refresh p.mail }
  let settings := l.control.settings
  let connected := l.control.connected p.now
  let answer :=
    l.connection_session.observe connected settings.enabled l.control.owner_pid
      settings.profile_request
  let l := { l with connection_session := answer.1 }
  (if answer.2.stopped then l.stop key p else l,
    { change := answer.2, asks := connected && settings.enabled })

/-- The camera manager retired the cameras that this loop requested. -/
def manager_transition (l : Loop) (p : Pass) : Bool :=
  if l.changing_profile || l.applied_profile == 0 then false
  else
    camera_manager_transition l.transition_token l.manager.published
      (p.session.ready && !p.session.loading && p.session_epoch == l.applied_session_epoch)

/-- Something changed, or a transition is under way. -/
def transitional (l : Loop) (c : Change) (p : Pass) : Bool :=
  let settings := l.control.settings
  l.changing_profile || c.started || c.generation != l.applied_connection ||
    settings.profile != l.applied_profile || settings.profile_request != l.applied_profile_request ||
    p.session_epoch != l.applied_session_epoch ||
    (p.layout_changed ||
      (p.choices_changed && (settings.profile != l.applied_profile || p.reshaped))) ||
    l.manager_transition p

/-- The transition is new, or supersedes the one that is pending. -/
def superseding (l : Loop) (c : Change) (p : Pass) : Bool :=
  let settings := l.control.settings
  !l.changing_profile || settings.profile != l.pending_profile ||
    settings.profile_request != l.pending_profile_request ||
    p.session_epoch != l.pending_session_epoch || c.generation != l.pending_connection ||
    p.layout_changed || l.manager_transition p

/-! ### A transition -/

/-- Forget discovery and the completed frames; the GPU session too, where the aircraft changes. -/
def full_reset (l : Loop) (p : Pass) : Bool :=
  let settings := l.control.settings
  l.pending_full_reset || (l.applied_profile != 0 &&
    (settings.profile != l.applied_profile || p.layout_changed ||
      p.session_epoch != l.applied_session_epoch))

def begin_transition (l : Loop) (key : Nat) (c : Change) (p : Pass) : Loop :=
  let settings := l.control.settings
  let full := l.full_reset p
  let l := ((l.reset_feed key p.natives).meanwhile p.resetting).tell (.began settings.profile)
  let l :=
    if full then
      if l.pair_can_be_kept settings.profile p.asked then { l with pending_gpu_generation := 0 }
      else l.reset_gpu key p.natives
    else l
  { l with
    pending_full_reset := full
    pending_profile := settings.profile
    pending_profile_request := settings.profile_request
    pending_session_epoch := p.session_epoch
    pending_connection := c.generation
    transition_token := 0
    pending_telemetry_selected := false
    changing_profile := true }

/-- Whether this pass keeps the pair. -/
def keep_pair (l : Loop) (p : Pass) : Bool :=
  l.pending_full_reset && l.pair_can_be_kept l.pending_profile p.found

/-- The GPU session is reset where it was not, and the manager is asked for a token. -/
def await_transition (l : Loop) (key : Nat) (p : Pass) : Loop :=
  let l :=
    if l.pending_full_reset && !l.keep_pair p && l.pending_gpu_generation == 0 then
      l.reset_gpu key p.natives
    else l
  let l := l.meanwhile p.awaiting
  if l.transition_token = 0 then
    let answer := l.manager.request l.pending_profile p.known p.standing
    if answer.2 = 0 then { l with manager := answer.1 }
    else
      ({ l with manager := answer.1, transition_token := answer.2 }).tell
        (.requested answer.2 l.pending_profile)
  else l

/-- The manager completed the transition of this token, for this profile. -/
def transition_ready (l : Loop) (t : Transition) : Bool :=
  l.transition_token != 0 && t.token == l.transition_token && t.id == l.pending_profile && t.ready &&
    !t.pending && !t.failed

/-- The GPU session where the transition and the session are ready: it is kept, or it resumes. -/
def resume_gpu (l : Loop) (key : Nat) (keep : Bool) : Loop × Bool :=
  if !l.pending_full_reset || keep then (l, true)
  else if l.pending_gpu_generation = 0 then (l, false)
  else
    let answer := l.world.resume_session key l.pending_gpu_generation
    ({ l with world := answer.1 }, answer.2)

def apply (l : Loop) (a : Applied) : Loop :=
  ({ l with
      applied_profile := l.pending_profile
      applied_profile_request := l.pending_profile_request
      applied_session_epoch := l.pending_session_epoch
      applied_connection := l.pending_connection
      changing_profile := false
      pending_full_reset := false
      pending_gpu_generation := 0 }).tell (.applied a)

/-- A look at the transition; true where it is applied. -/
def try_transition (l : Loop) (key : Nat) (p : Pass) : Loop × Bool :=
  let keep := l.keep_pair p
  let l := (l.await_transition key p).meanwhile p.reading
  let transition := l.manager.published
  let ready := l.transition_ready transition
  let l :=
    if ready && !l.pending_telemetry_selected then { l with pending_telemetry_selected := p.selected }
    else l
  let l := l.meanwhile p.applying
  let session := p.transition_session
  if !(ready && l.pending_telemetry_selected && session.ready &&
      session.epoch == l.pending_session_epoch) then (l, false)
  else
    match l.resume_gpu key keep with
    | (l, false) => (l, false)
    | (l, true) =>
      (l.apply
        { profile := l.pending_profile, session_epoch := l.pending_session_epoch
          token := l.transition_token, transition, session
          device := (l.world.devices key).map Device.status }, true)

/-! ### A pass -/

/-- A camera start, after the companion is read again. -/
def start_cameras (l : Loop) (key : Nat) (s : Start) : Loop :=
  if !s.wanted then l
  else
    let l := { l with control := l.control.refresh s.mail }
    if s.current then (l.reset_feed key s.natives).tell .started else l

/-- The pass up to its look at a transition; none where it has no transition. -/
def enter (l : Loop) (key : Nat) (p : Pass) : Loop × Bool :=
  let head := (l.meanwhile p.before).observe key p
  let l := head.1.meanwhile p.asking
  if head.2.asks && l.transitional head.2.change p then
    (if l.superseding head.2.change p then l.begin_transition key head.2.change p else l, true)
  else (l, false)

/-- A transition that waits ends the pass. -/
def pass (key : Nat) (l : Loop) (p : Pass) : Loop :=
  let entered := l.enter key p
  let tried := if entered.2 then entered.1.try_transition key p else (entered.1, true)
  (if tried.2 then tried.1.start_cameras key p.start else tried.1).meanwhile p.after

end Loop

end taxi_camera.control_loop
