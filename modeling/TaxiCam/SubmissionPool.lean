-- The pool of copy packets that the display overlay submits: each packet is
-- recorded, submitted under a fence value, and serviced, and raises the
-- watermarks of its copy when it is done or will not run. `Pool` of
-- src/graphics/pfd_submission_pool.cpp.
import TaxiCam.FrameOutput
import TaxiCam.Histories
import TaxiCam.SubmissionProof

namespace taxi_camera.pfd_submission

open standalone

/-! ## Resources and copies -/

inductive Dimension
  | buffer | texture2d | other
deriving DecidableEq

/-- The type of a heap; `other` stands for the rest and for a failed query. -/
inductive HeapType
  | default | readback | other
deriving DecidableEq

/-- `D3D12_RESOURCE_DESC`. -/
structure ResourceDesc where
  dimension : Dimension
  width : Nat
  height : Nat
  depth_or_array_size : Nat
  mip_levels : Nat
  format : Nat
  sample_count : Nat
  sample_quality : Nat
  allow_render_target : Bool
  allow_unordered_access : Bool
  allow_simultaneous_access : Bool

/-- What the native objects answer while a copy is validated. -/
structure Natives where
  same_native_device : Nat → Nat → Bool
  desc : Nat → ResourceDesc
  heap_type : Nat → HeapType

inductive DropSource
  | pool_full | invalid | save_stripped | escaped | stale | unknown_lists | device_failed
  | no_receipt | wait_failed | out_of_batch | not_recorded | cancelled | quarantined | close_failed
  | unsubmitted | device_lost
deriving DecidableEq

/-- Pointers are numbers, 0 is null. Watermarks are named by their addresses. -/
structure Copy where
  target : Nat := 0
  source : Nat := 0
  footprint : PlacedFootprint := {}
  state : ResourceStates := 0xffffffff#32
  x : Nat := 0
  y : Nat := 0
  width : Nat := 0
  height : Nat := 0
  readback : Bool := false
  completed : Option Nat := none
  completed_value : Nat := 0
  dropped : Option Nat := none
  drop_sources : Option Nat := none
  save : Nat := 0
  save_footprint : PlacedFootprint := {}
  shadow_source : Bool := false

/-- 1 for the R8G8B8A8 formats, 2 for the B8G8R8A8 ones. -/
def format_family (format : Nat) : Nat :=
  if [27, 28, 29].contains format then 1 else if [90, 87, 91].contains format then 2 else 0

def typed_format (format : Nat) : Bool := [28, 29, 87, 91].contains format

/-- `D3D12_TEXTURE_DATA_PITCH_ALIGNMENT` and `D3D12_TEXTURE_DATA_PLACEMENT_ALIGNMENT`. -/
def pitch_alignment : Nat := 256
def placement_alignment : Nat := 512

/-- The layout of a buffer side of a copy: typed, of the target's family and the copy's size,
aligned. -/
def layout_matches (copy : Copy) (target_format : Nat) (placed : PlacedFootprint) : Bool :=
  let footprint := placed.Footprint
  typed_format footprint.Format && format_family target_format == format_family footprint.Format &&
    footprint.Width == copy.width && footprint.Height == copy.height && footprint.Depth == 1 &&
    decide (footprint.RowPitch ≥ copy.width * 4) && footprint.RowPitch % pitch_alignment == 0 &&
    placed.Offset % placement_alignment == 0

/-- The layout of the copy is inside the buffer. -/
def fits (copy : Copy) (buffer_width : Nat) (placed : PlacedFootprint) : Bool :=
  let bytes := (copy.height - 1) * placed.Footprint.RowPitch + copy.width * 4
  decide (placed.Offset ≤ buffer_width) && decide (bytes ≤ buffer_width - placed.Offset)

/-- The state of the target can be restored after the copy. -/
def state_allowed (copy : Copy) : Bool :=
  copy.state == ResourceStates.RENDER_TARGET || copy.state == ResourceStates.UNORDERED_ACCESS ||
    copy_restorable copy.state

def target_allowed (copy : Copy) (target : ResourceDesc) : Bool :=
  target.dimension == .texture2d && decide (target.width ≤ 16384) &&
    decide (target.height ≤ 16384) && target.mip_levels != 0 && target.depth_or_array_size == 1 &&
    target.sample_count == 1 && target.sample_quality == 0 && target.allow_render_target &&
    (copy.state != ResourceStates.UNORDERED_ACCESS || target.allow_unordered_access) &&
    !target.allow_simultaneous_access && decide (copy.x ≤ target.width) &&
    decide (copy.width ≤ target.width - copy.x) && decide (copy.y ≤ target.height) &&
    decide (copy.height ≤ target.height - copy.y)

def save_allowed (natives : Natives) (device : Nat) (copy : Copy) : Bool :=
  copy.save != copy.target && copy.save != copy.source &&
    natives.same_native_device copy.save device &&
    (natives.desc copy.save).dimension == .buffer && natives.heap_type copy.save == .default &&
    layout_matches copy (natives.desc copy.target).format copy.save_footprint &&
    fits copy (natives.desc copy.save).width copy.save_footprint

def valid_copy (natives : Natives) (device : Nat) (copy : Copy) : Bool :=
  device != 0 && copy.target != 0 && copy.source != 0 && copy.target != copy.source &&
    copy.width != 0 && copy.height != 0 && decide (copy.width ≤ 16384) &&
    decide (copy.height ≤ 16384) && natives.same_native_device copy.target device &&
    natives.same_native_device copy.source device && state_allowed copy &&
    target_allowed copy (natives.desc copy.target) &&
    (natives.desc copy.source).dimension == .buffer &&
    layout_matches copy (natives.desc copy.target).format copy.footprint &&
    ((copy.completed.isNone && copy.dropped.isNone) || copy.completed_value != 0) &&
    (!copy.readback || (copy.save == 0 && !copy.shadow_source)) &&
    (!copy.readback || natives.heap_type copy.source == .readback) &&
    (!copy.shadow_source || natives.heap_type copy.source == .default) &&
    (copy.save == 0 || save_allowed natives device copy) &&
    fits copy (natives.desc copy.source).width copy.footprint

/-! ## Packets -/

inductive State
  | empty | ready | recorded | submitted | retired | quarantined
deriving DecidableEq

/-- A packet. `copy` is the number of the copy it holds: copies are numbered from 1 in the
order of their recordings. -/
structure Packet where
  allocator : Bool := false
  list : Bool := false
  target : Nat := 0
  source : Nat := 0
  save : Nat := 0
  completed : Option Nat := none
  dropped : Option Nat := none
  drop_sources : Option Nat := none
  completed_value : Nat := 0
  covering_value : Nat := 0
  state : State := .empty
  copy : Nat := 0
deriving DecidableEq

/-- What the calls did, by the numbers of the copies. `covered` is a call of `submit`. A report
names the watermark that it raises, and to what. -/
inductive Event
  | recorded (copy : Nat)
  | close_failed (copy : Nat)
  | covered (copy value : Nat)
  | cancelled (copy : Nat)
  | quarantined (copy : Nat)
  | lost
  | saw (value : Nat)
  | completed (copy watermark value : Nat)
  | dropped (copy : Nat) (source : DropSource) (watermark value : Nat)
  | released (copy : Nat)
deriving DecidableEq

/-- `Pool`, with the counters that its packets point to and its history. -/
structure Pool where
  device : Nat := 0
  packets : Fin 16 → Packet := fun _ => {}
  watermarks : Nat → Nat := fun _ => 0
  drops : Nat → DropSource → Nat := fun _ _ => 0
  recordings : Nat := 0
  log : List Event := []

def UINT64_MAX : Nat := 0xffffffffffffffff

namespace Pool

def note (s : Pool) (e : Event) : Pool := { s with log := s.log ++ [e] }

def set_packet (s : Pool) (i : Fin 16) (p : Packet) : Pool :=
  { s with packets := Function.update s.packets i p }

/-- `count_drop`. -/
def count_drop (drops : Nat → DropSource → Nat) (sources : Option Nat) (source : DropSource) :
    Nat → DropSource → Nat :=
  match sources with
  | some a => Function.update drops a (Function.update (drops a) source (drops a source + 1))
  | none => drops

/-- The compare-exchange loop: a watermark is raised, never lowered. -/
def raise (watermarks : Nat → Nat) (a value : Nat) : Nat → Nat :=
  Function.update watermarks a (max (watermarks a) value)

def release_resources (s : Pool) (i : Fin 16) : Pool :=
  let p := s.packets i
  (s.set_packet i
    { p with target := 0, source := 0, save := 0, completed := none, dropped := none
             drop_sources := none, completed_value := 0, covering_value := 0, copy := 0 }).note
    (.released p.copy)

def report_dropped (s : Pool) (i : Fin 16) (source : DropSource) : Pool :=
  let p := s.packets i
  match p.dropped with
  | none => s
  | some a =>
    { s.set_packet i { p with dropped := none, drop_sources := none } with
      watermarks := raise s.watermarks a p.completed_value
      drops := count_drop s.drops p.drop_sources source
      log := s.log ++ [Event.dropped p.copy source a p.completed_value] }

/-- A packet that a report may still be due for. -/
def live (s : Pool) (i : Fin 16) : Bool :=
  (s.packets i).state == .recorded || (s.packets i).state == .submitted

def set_state (s : Pool) (i : Fin 16) (state : State) : Pool :=
  s.set_packet i { s.packets i with state }

/-! ### Service -/

/-- What the device answers while a packet is serviced. -/
structure ServiceOutcome where
  allocator : Bool := true
  list : Bool := true
  reset : Bool := true

def lose (s : Pool) (i : Fin 16) : Pool :=
  let s := if s.live i then s.report_dropped i .device_lost else s
  s.set_state i .quarantined

/-- A packet whose covering value the fence has reached. -/
def complete (s : Pool) (i : Fin 16) : Pool :=
  let p := s.packets i
  let s :=
    match p.completed with
    | none => s
    | some a =>
      { s with watermarks := raise s.watermarks a p.completed_value
               log := s.log ++ [Event.completed p.copy a p.completed_value] }
  s.set_packet i { p with dropped := none, state := .retired }

def create (o : ServiceOutcome) (s : Pool) (i : Fin 16) : Pool :=
  let p := s.packets i
  if o.allocator = false then s.set_packet i { p with state := .quarantined }
  else if o.list = false then s.set_packet i { p with allocator := true, state := .quarantined }
  else s.set_packet i { p with allocator := true, list := true, state := .ready }

def service_packet (completed : Nat) (outcomes : Fin 16 → ServiceOutcome) (s : Pool)
    (i : Fin 16) : Pool :=
  let s :=
    if (s.packets i).state = .submitted ∧ (s.packets i).covering_value ≤ completed then s.complete i
    else s
  if (s.packets i).state = .retired then
    let s := s.release_resources i
    if (outcomes i).reset = false then s.set_state i .quarantined else s.set_state i .ready
  else if (s.packets i).state = .empty then s.create (outcomes i) i
  else s

def ready_count (s : Pool) : Nat :=
  ((List.finRange 16).filter fun i => (s.packets i).state == .ready).length

/-- A service takes the device and reads its fence. -/
def see (s : Pool) (device completed : Nat) : Pool :=
  { s with device, log := s.log ++ [.saw completed] }

def service (s : Pool) (device completed : Nat) (outcomes : Fin 16 → ServiceOutcome) :
    Pool × Bool :=
  if device = 0 ∨ (s.device ≠ 0 ∧ s.device ≠ device) then (s, false)
  else if completed = UINT64_MAX then
    ((List.finRange 16).foldl lose (s.note .lost), false)
  else
    let s := (List.finRange 16).foldl (service_packet completed outcomes) (s.see device completed)
    (s, s.ready_count != 0)

/-! ### Recording -/

structure Recording where
  slot : Nat := 16
  list : Bool := false
  reported : Bool := false
  invalid : Bool := false
deriving DecidableEq

/-- A ready packet takes the references and the watermarks of a copy. -/
def take (s : Pool) (i : Fin 16) (copy : Copy) : Pool :=
  let number := s.recordings + 1
  let s := s.set_packet i
    { s.packets i with target := copy.target, source := copy.source, save := copy.save
                       completed := copy.completed, dropped := copy.dropped
                       drop_sources := copy.drop_sources
                       completed_value := copy.completed_value
                       state := .recorded, copy := number }
  { s with recordings := number }.note (.recorded number)

def record (natives : Natives) (s : Pool) (copy : Copy) (closed : Bool) : Pool × Recording :=
  if valid_copy natives s.device copy = false then (s, { invalid := true })
  else
    match (List.finRange 16).find? fun i => (s.packets i).state == .ready with
    | none => (s, {})
    | some i =>
      let s := s.take i copy
      if closed = false then
        let s := (s.set_state i .quarantined).note (.close_failed (s.packets i).copy)
        (s.report_dropped i .close_failed, { reported := true })
      else (s, { slot := i, list := (s.packets i).list })

/-! ### Submitting, cancelling, quarantining -/

def submit_packet (s : Pool) (i : Fin 16) (covering_value : Nat) : Pool :=
  let p := s.packets i
  if p.state ≠ .recorded ∨ covering_value = 0 ∨ covering_value = UINT64_MAX then
    let live := s.live i
    let s := s.note (.covered p.copy covering_value)
    let s := if live then s.report_dropped i .unsubmitted else s
    s.set_state i .quarantined
  else (s.set_packet i { p with covering_value, state := .submitted }).note
    (.covered p.copy covering_value)

def cancel_packet (s : Pool) (i : Fin 16) : Pool :=
  let s := s.note (.cancelled (s.packets i).copy)
  let s := if s.live i then s.report_dropped i .cancelled else s
  if (s.packets i).state = .recorded then s.set_state i .retired
  else if (s.packets i).state = .submitted then s.set_state i .quarantined
  else s

def quarantine_packet (s : Pool) (i : Fin 16) : Pool :=
  let s := s.note (.quarantined (s.packets i).copy)
  let s := if s.live i then s.report_dropped i .quarantined else s
  s.set_state i .quarantined

/-- A call that names a slot does nothing beyond the capacity. -/
def at_slot (s : Pool) (slot : Nat) (call : Pool → Fin 16 → Pool) : Pool :=
  if h : slot < 16 then call s ⟨slot, h⟩ else s

def submit (s : Pool) (slot covering_value : Nat) : Pool :=
  s.at_slot slot fun s i => s.submit_packet i covering_value

def cancel (s : Pool) (slot : Nat) : Pool := s.at_slot slot cancel_packet

def quarantine (s : Pool) (slot : Nat) : Pool := s.at_slot slot quarantine_packet

/-! ### Runs -/

inductive Op
  | service (device completed : Nat) (outcomes : Fin 16 → ServiceOutcome)
  | record (natives : Natives) (copy : Copy) (closed : Bool)
  | submit (slot covering_value : Nat)
  | cancel (slot : Nat)
  | quarantine (slot : Nat)

def step (s : Pool) : Op → Pool
  | .service device completed outcomes => (s.service device completed outcomes).1
  | .record natives copy closed => (s.record natives copy closed).1
  | .submit slot covering_value => s.submit slot covering_value
  | .cancel slot => s.cancel slot
  | .quarantine slot => s.quarantine slot

/-- A new pool over some counters. -/
def start (watermarks : Nat → Nat) (drops : Nat → DropSource → Nat) : Pool :=
  { watermarks, drops }

/-- The destructor: packets that may still run keep what they hold. -/
def destroy (s : Pool) : Pool :=
  (List.finRange 16).foldl (fun s i =>
    if (s.packets i).state = .recorded ∨ (s.packets i).state = .submitted ∨
        (s.packets i).state = .quarantined then s
    else
      let s := s.release_resources i
      s.set_packet i { s.packets i with allocator := false, list := false }) s

end Pool

end taxi_camera.pfd_submission
