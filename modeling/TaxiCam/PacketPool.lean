-- The capture packets of the manager: recordings take packets, submissions
-- carry them, retirement and the worker bring them back. The packet parts of
-- src/graphics/scene_capture_manager.cpp, each function under the mutex.
import TaxiCam.DeviceTimeline
import TaxiCam.SceneCapture
import TaxiCam.SceneHandoff

namespace taxi_camera.SceneCaptureManager

open scene

abbrev MaximumPackets : Nat := 16
def MaximumBytes : Nat := 256 * 1024 * 1024
def TailFeeds : Nat := 4

/-- The place of a packet. -/
abbrev Slot := Fin MaximumPackets

namespace PacketPool

/-! ## The state -/

structure FrameOrder where
  submission : Nat := 0
  position : Nat := 0
deriving DecidableEq

/-- `in_flight` is an integer here, so that a decrement of zero would show. `published` is the
source's `match`. -/
structure Packet where
  gpu : SceneCaptureD3D12 := {}
  description : SceneCaptureD3D12.Description := {}
  published : SceneCopyMatch := {}
  token : Nat := 0
  device_key : Nat := 0
  submitted : Nat := 0
  session_generation : Nat := 0
  order : FrameOrder := {}
  producer : Nat := 0
  in_flight : Int := 0
  assigned : Bool := false
  retired : Bool := false
  quarantined : Bool := false
  leased : Bool := false

/-- A list of the application, by its native pointer, or the private recording of a tail. -/
inductive Recording
  | listed (native : Nat)
  | private_recording
deriving DecidableEq

structure CommandList where
  native : Nat
  device_key : Nat
  object_generation : Nat := 0
  session_generation : Nat
  recording : Nat := 1
  packets : Slot → Bool := fun _ => false
  feeds : Nat → Bool := fun _ => false
  consumer : Bool := false
  source_touched : Bool := false
  awaiting_native_reset : Bool := false

structure Device where
  native : Nat
  timeline : Nat
  active : Bool := true
  failed : Bool := false
  last_signal : Nat := 0
  session_generation : Nat := 1
  session_active : Bool := true

/-- How far the thread of a receipt has come: its Wait is to be queued, the batch is forwarded, or
the tails are recorded and the Signal is to be queued. -/
inductive Stage
  | waiting | forwarding
  | signalling (refused : Bool)
deriving DecidableEq

structure Transaction where
  id : Nat
  device : Nat
  queue : Nat
  value : Nat
  packets : Slot → Bool
  private_work : Bool
  source_work : Bool := false
  session_generation : Nat
  packet_positions : Slot → Nat := fun _ => 0
  last_position : Nat := 0
  tails : List Nat := []
  stage : Stage := .waiting

/-- What is told of the packets: a capture or a rewrite recorded a copy into the snapshot of a slot;
the recording of a token was retired; a receipt contained a token, and was closed; the producer's
Signal was queued, and its fence was read; a token was returned; its consumption was fixed, and the
fence of it was read; the packet of a slot went back to the pool, or into quarantine. -/
inductive Event
  | captured (token : Nat) (slot : Slot)
  | rewritten (token : Nat) (slot : Slot)
  | retired (token : Nat)
  | contained (receipt token : Nat)
  | closed (receipt : Nat)
  | signalled (token value : Nat)
  | producer_read (token value completed : Nat)
  | returned (token : Nat) (slot : Slot)
  | consumed (slot : Slot) (fence value : Nat)
  | consumer_read (slot : Slot) (fence value completed : Nat)
  | recycled (slot : Slot)
  | quarantined (slot : Slot)
deriving DecidableEq

end PacketPool

open PacketPool

structure PacketPool where
  packets : Slot → Packet := fun _ => {}
  lists : Recording → Option CommandList := fun _ => none
  devices : Nat → Option PacketPool.Device := fun _ => none
  transaction : Option PacketPool.Transaction := none
  next_token : Nat := 0
  next_receipt : Nat := 0
  capture_enabled : Bool := true
  bytes : Nat := 0
  history : List Event := []

namespace PacketPool

def slots : List Slot := List.finRange MaximumPackets

def note (s : PacketPool) (e : Event) : PacketPool := { s with history := s.history ++ [e] }

def set_packet (s : PacketPool) (p : Slot) (packet : Packet) : PacketPool :=
  { s with packets := Function.update s.packets p packet }

def set_list (s : PacketPool) (r : Recording) (item : CommandList) : PacketPool :=
  { s with lists := Function.update s.lists r (some item) }

def set_device (s : PacketPool) (key : Nat) (owner : PacketPool.Device) : PacketPool :=
  { s with devices := Function.update s.devices key (some owner) }

/-! ## Quarantine -/

def quarantine (s : PacketPool) (p : Slot) : PacketPool :=
  if (s.packets p).quarantined then s
  else (s.set_packet p { s.packets p with quarantined := true }).note (.quarantined p)

/-- Quarantines the packets that meet a condition, one by one. -/
def quarantine_where (s : PacketPool) (condition : Packet → Slot → Bool) : PacketPool :=
  slots.foldl (fun s p => if condition (s.packets p) p then s.quarantine p else s) s

def fail_device (s : PacketPool) (key : Nat) : PacketPool :=
  match s.devices key with
  | none => s
  | some owner =>
    (s.set_device key { owner with failed := true }).quarantine_where fun packet _ =>
      packet.assigned && packet.device_key == key

def active (s : PacketPool) (key : Nat) : Bool :=
  match s.devices key with
  | some owner => owner.active
  | none => false

/-! ## What other threads left without the lock -/

/-- A marked word of a list, as the next publication or holder finds it. -/
structure Refusal where
  packets : Slot → Bool := fun _ => false
  consumer : Bool := false
  devices : List Nat := []
  fatal : Bool := false

def fail_devices (s : PacketPool) (keys : List Nat) : PacketPool :=
  keys.foldl (fun s key => if s.active key then s.fail_device key else s) s

def apply_recording_refusal (s : PacketPool) (effects : Refusal) : PacketPool :=
  let marked := s.quarantine_where fun packet p => effects.packets p && packet.assigned
  if effects.consumer && effects.fatal then marked.fail_devices effects.devices else marked

/-- The marks of the lists and the devices of `deferred_uncertain_`. -/
structure Notices where
  refusals : List Refusal := []
  uncertain : List Nat := []

def apply_notices (s : PacketPool) (notices : Notices) : PacketPool :=
  (notices.refusals.foldl apply_recording_refusal s).fail_devices notices.uncertain

/-- `publish_list` hands on the mark that it finds. -/
def publish_list (s : PacketPool) (found : Option Refusal) : PacketPool :=
  match found with
  | some effects => s.apply_recording_refusal effects
  | none => s

/-! ## Retirement -/

/-- What is left of `retire_list` after its `apply_deferred`. -/
def retire_packets (s : PacketPool) (native : Nat) : PacketPool :=
  match s.lists (.listed native) with
  | none => s
  | some item =>
    let cleared := s.set_list (.listed native)
      { item with
        packets := fun _ => false, feeds := fun _ => false, consumer := false
        source_touched := false
        recording := if item.recording < MaximumCounter then item.recording + 1 else item.recording }
    let retired := slots.foldl (fun s p =>
      if item.packets p then
        (s.set_packet p { s.packets p with retired := true }).note (.retired (s.packets p).token)
      else s) cleared
    if item.recording < MaximumCounter then retired else retired.fail_device item.device_key

/-- What `retire_native_list` does to its list after `retire_list`, and its publication. -/
def renew_list (s : PacketPool) (native : Nat) (destroy : Bool) (found : Option Refusal) :
    PacketPool :=
  match s.lists (.listed native) with
  | none => s
  | some item =>
    if destroy then
      let published := s.publish_list found
      { published with lists := Function.update published.lists (.listed native) none }
    else
      let session_generation :=
        match s.devices item.device_key with
        | some owner => owner.session_generation
        | none => item.session_generation
      (s.set_list (.listed native)
        { item with session_generation, awaiting_native_reset := false }).publish_list found

/-- A Reset or a destruction that waited in the ring. Other kinds of deferred work change no
packet. Nested in the drain, `apply_deferred` finds notices only. -/
structure Entry where
  destroy : Bool := false
  native : Nat
  generation : Nat
  notices : Notices := {}
  found : Option Refusal := none

/-- What `apply_deferred` finds. -/
structure Drained where
  work : List Entry := []
  notices : Notices := {}

def apply_entry (s : PacketPool) (entry : Entry) : PacketPool :=
  match s.lists (.listed entry.native) with
  | none => s
  | some item =>
    if item.object_generation ≠ entry.generation then s
    else
      ((s.apply_notices entry.notices).retire_packets entry.native).renew_list entry.native
        entry.destroy entry.found

def apply_deferred_work (s : PacketPool) (work : List Entry) : PacketPool := work.foldl apply_entry s

def apply_deferred (s : PacketPool) (drained : Drained) : PacketPool :=
  (s.apply_deferred_work drained.work).apply_notices drained.notices

def retire_native_list (s : PacketPool) (native : Nat) (destroy : Bool) (drained : Drained)
    (found : Option Refusal) : PacketPool :=
  ((s.apply_deferred drained).retire_packets native).renew_list native destroy found

/-! ## Collection -/

/-- What a pass over the packets finds. -/
structure Sight where
  drained : Drained := {}
  natives : Slot → SceneCaptureD3D12.Native := fun _ => {}

/-- `recycle` reads the fence of the consumer where the device is there. -/
def recycle_packet (s : PacketPool) (native : SceneCaptureD3D12.Native) (p : Slot) : PacketPool :=
  let packet := s.packets p
  let answer := packet.gpu.recycle native
  let read := Event.consumer_read p packet.gpu.consumer_fence packet.gpu.consumer_value native.completed
  if answer.2 then
    ((s.set_packet p { packet with gpu := answer.1, assigned := false, leased := false }).note
      read).note (.recycled p)
  else if native.device_ok then (s.set_packet p { packet with gpu := answer.1 }).note read
  else s

def retire_packet (s : PacketPool) (native : SceneCaptureD3D12.Native) (p : Slot) : PacketPool :=
  let packet := s.packets p
  if packet.submitted = 0 then
    let answer := packet.gpu.discard_unsubmitted_retired
    if answer.2 then
      (s.set_packet p { packet with gpu := answer.1, assigned := false }).note (.recycled p)
    else s.quarantine p
  else
    let answer := packet.gpu.retire_serialized_recording packet.producer native
    if answer.2 then
      (s.set_packet p { packet with gpu := answer.1 }).note
        (.signalled packet.token answer.1.producer_value)
    else (s.set_packet p { packet with gpu := answer.1 }).quarantine p

def collect_packet (natives : Slot → SceneCaptureD3D12.Native) (s : PacketPool) (p : Slot) :
    PacketPool :=
  let packet := s.packets p
  if !packet.assigned || packet.quarantined then s
  else if packet.gpu.state = .consuming then s.recycle_packet (natives p) p
  else if !packet.retired || packet.in_flight ≠ 0 || packet.gpu.state ≠ .recorded then s
  else s.retire_packet (natives p) p

def collect (s : PacketPool) (sight : Sight) : PacketPool :=
  slots.foldl (collect_packet sight.natives) (s.apply_deferred sight.drained)

end PacketPool

end taxi_camera.SceneCaptureManager
