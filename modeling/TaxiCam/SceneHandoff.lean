-- The handoff of scene resources from the engine observer to the copy hooks:
-- a registry of devices and resources, capture tickets, and one publication
-- that names the resources of the camera feeds. `SceneHandoff` of
-- src/graphics/scene_handoff.cpp; each call runs under its mutex.
import TaxiCam.Runs
import Mathlib.Data.Fintype.Pi
import Mathlib.Data.List.AList
import Mathlib.Data.List.FinRange

namespace taxi_camera

namespace scene

/-! ## Identities -/

structure SceneManagerIdentity where
  identity : Nat := 0
  generation : Nat := 0
deriving DecidableEq

structure SceneResourceIdentity where
  device_epoch : Nat := 0
  resource_id : Nat := 0
  generation : Nat := 0
deriving DecidableEq

structure SceneCaptureTicket where
  scene_epoch : Nat := 0
  lifecycle_epoch : Nat := 0
  sequence : Nat := 0
deriving DecidableEq

structure SceneCopyMatch where
  matched : Bool := false
  feed : Nat := 0
  scene_epoch : Nat := 0
  capture_sequence : Nat := 0
  manager : SceneManagerIdentity := {}
  entry_id : Nat := 0
  resource : SceneResourceIdentity := {}
deriving DecidableEq

structure SceneCopyObservation where
  source : SceneCopyMatch := {}
  destination : SceneCopyMatch := {}
deriving DecidableEq

/-- The feeds: nose, tail or left wing, right wing, door camera. -/
abbrev Feed := Fin 4

/-! ## The handoff -/

structure Resource where
  id : Nat
  generation : Nat
deriving DecidableEq

/-- The resources of a device by their native handles. -/
abbrev Resources := AList fun _ : Nat => Resource

structure Device where
  key : Nat := 0
  epoch : Nat := 0
  resources : Resources := ∅

structure Publication where
  valid : Bool := false
  scene_epoch : Nat := 0
  sequence : Nat := 0
  device_key : Nat := 0
  manager : SceneManagerIdentity := {}
  entry_ids : Feed → Nat := fun _ => 0
  handles : Feed → Nat := fun _ => 0
  resources : Feed → SceneResourceIdentity := fun _ => {}

structure Diagnostics where
  publications : Nat := 0
  unrelated_events : Nat := 0
  target_invalidations : Nat := 0
  ticket_invalidations : Nat := 0
deriving DecidableEq

/-- The counters that `advance` increments. -/
inductive Counter
  | device_counter | resource_counter | lifecycle_epoch | scene_epoch | capture_sequence
deriving DecidableEq

def UINT64_MAX : Nat := 0xffffffffffffffff
def maximum_resources_per_device : Nat := 16384

/-- `SceneHandoff`. -/
structure SceneHandoff where
  devices : Fin 4 → Device := fun _ => {}
  counters : Counter → Nat := fun c => if c = .lifecycle_epoch then 1 else 0
  exhausted : Bool := false
  active : Bool := false
  owner_bound : Bool := false
  owner : SceneManagerIdentity := {}
  owned_ids : Feed → Nat := fun _ => 0
  publication : Publication := {}
  candidate_handles : Feed → Nat := fun _ => 0
  observed_handles : Feed → Nat := fun _ => 0
  diagnostics : Diagnostics := {}

namespace SceneHandoff

abbrev scene_epoch (s : SceneHandoff) : Nat := s.counters .scene_epoch
abbrev lifecycle_epoch (s : SceneHandoff) : Nat := s.counters .lifecycle_epoch
abbrev capture_sequence (s : SceneHandoff) : Nat := s.counters .capture_sequence

/-- No publication stands, and no handle is offered or observed. -/
def clear (s : SceneHandoff) : SceneHandoff :=
  { s with publication := {}, candidate_handles := fun _ => 0, observed_handles := fun _ => 0 }

/-- A counter has run out: nothing is current again. -/
def exhaust (s : SceneHandoff) : SceneHandoff := { s.clear with exhausted := true, active := false }

def count (s : SceneHandoff) (c : Counter) : SceneHandoff :=
  { s with counters := Function.update s.counters c (s.counters c + 1) }

def advance (s : SceneHandoff) (c : Counter) : SceneHandoff × Bool :=
  if s.exhausted || s.counters c == UINT64_MAX then (s.exhaust, false) else (s.count c, true)

/-- Where an observed handle is; `none` for the source's -1. -/
def observed_feed (s : SceneHandoff) (handle : Nat) : Option Feed :=
  if handle = 0 then none else (List.finRange 4).find? fun i => s.observed_handles i == handle

/-- What an event revokes. An event without a handle, or on an observed one, revokes the
publication; the others are unrelated to it. -/
def touch (s : SceneHandoff) (changed_handle : Nat) : SceneHandoff :=
  if changed_handle = 0 ∨ (s.observed_feed changed_handle).isSome then
    { s.clear with diagnostics :=
        { s.diagnostics with target_invalidations := s.diagnostics.target_invalidations + 1 } }
  else
    { s with diagnostics :=
        { s.diagnostics with unrelated_events := s.diagnostics.unrelated_events + 1 } }

def lifecycle_event (s : SceneHandoff) (changed_handle : Nat) : SceneHandoff × Bool :=
  (s.touch changed_handle).advance .lifecycle_epoch

/-- `device`: the first device with the key. -/
def device (s : SceneHandoff) (key : Nat) : Option (Fin 4) :=
  if key = 0 then none else (List.finRange 4).find? fun i => (s.devices i).key == key

def set_device (s : SceneHandoff) (i : Fin 4) (d : Device) : SceneHandoff :=
  { s with devices := Function.update s.devices i d }

def free_device (s : SceneHandoff) : Option (Fin 4) :=
  (List.finRange 4).find? fun i => (s.devices i).key == 0

/-! ### Registrations -/

def register_device (s : SceneHandoff) (key : Nat) : SceneHandoff × Nat :=
  let event := s.lifecycle_event 0
  let s := event.1
  if event.2 = false ∨ key = 0 then (s, 0)
  else
    match (s.device key).or s.free_device with
    | none => (s, 0)
    | some i =>
      let counted := s.advance .device_counter
      let s := counted.1
      if counted.2 = false then (s, 0)
      else
        let epoch := s.counters .device_counter
        (s.set_device i { key, epoch, resources := ∅ }, epoch)

def unregister_device (s : SceneHandoff) (key : Nat) : SceneHandoff :=
  let s := (s.lifecycle_event 0).1
  match s.device key with
  | none => s
  | some i => s.set_device i { key := 0, epoch := 0, resources := ∅ }

def erase_resource (s : SceneHandoff) (i : Fin 4) (handle : Nat) : SceneHandoff :=
  s.set_device i { s.devices i with resources := (s.devices i).resources.erase handle }

def insert_resource (s : SceneHandoff) (i : Fin 4) (handle : Nat) (r : Resource) : SceneHandoff :=
  s.set_device i { s.devices i with resources := (s.devices i).resources.insert handle r }

/-- `allocated` is false when `insert_or_assign` throws `bad_alloc`. -/
def register_resource (s : SceneHandoff) (key handle id : Nat) (allocated : Bool) :
    SceneHandoff × Bool :=
  let event := s.lifecycle_event handle
  let s := event.1
  if event.2 = false then (s, false)
  else
    match s.device key with
    | none => (s, false)
    | some i =>
      if handle = 0 then (s, false)
      else if id = 0 then (s.erase_resource i handle, false)
      else if ((s.devices i).resources.lookup handle).isNone ∧
          (s.devices i).resources.entries.length ≥ maximum_resources_per_device then (s, false)
      else
        let counted := s.advance .resource_counter
        let s := counted.1
        if counted.2 = false then (s, false)
        else if allocated = false then (s.erase_resource i handle, false)
        else
          (s.insert_resource i handle ⟨id, s.counters .resource_counter⟩, true)

def unregister_resource (s : SceneHandoff) (key handle : Nat) : SceneHandoff :=
  let s := (s.lifecycle_event handle).1
  match s.device key with
  | none => s
  | some i => s.erase_resource i handle

/-- `locked` is false when the bounded lock is not had in time. -/
def try_unregister_resource (s : SceneHandoff) (key handle : Nat) (locked : Bool) :
    SceneHandoff × Bool :=
  if locked = false then (s, false) else (s.unregister_resource key handle, true)

/-! ### Scenes and captures -/

def begin_scene (s : SceneHandoff) : SceneHandoff × Nat :=
  let s := { s.clear with owner_bound := false, owner := {}, owned_ids := fun _ => 0 }
  let counted := s.advance .scene_epoch
  let s := { counted.1 with active := counted.2 }
  (s, if s.active then s.scene_epoch else 0)

def stop_scene (s : SceneHandoff) : SceneHandoff :=
  ({ s.clear with active := false, owner_bound := false }.advance .scene_epoch).1

def begin_capture (s : SceneHandoff) : SceneHandoff × SceneCaptureTicket :=
  if s.active = false then (s, {})
  else
    let counted := s.advance .capture_sequence
    let s := counted.1
    if counted.2 = false then (s, {})
    else (s, ⟨s.scene_epoch, s.lifecycle_epoch, s.capture_sequence⟩)

/-! ### Publishing -/

/-- The ticket is the one that may still be published. -/
def names_latest (s : SceneHandoff) (ticket : SceneCaptureTicket) : Bool :=
  !(!s.active || s.exhausted || ticket.scene_epoch != s.scene_epoch ||
    ticket.lifecycle_epoch != s.lifecycle_epoch || ticket.sequence == 0 ||
    ticket.sequence != s.capture_sequence ||
    (s.publication.valid && s.publication.sequence == ticket.sequence))

/-- The two required feeds. -/
def pair_named (manager : SceneManagerIdentity) (ids handles : Feed → Nat) : Bool :=
  !(manager.identity == 0 || manager.generation == 0 || ids 0 == 0 || ids 1 == 0 ||
    ids 0 == ids 1 || handles 0 == 0 || handles 1 == 0 || handles 0 == handles 1)

/-- An optional feed: an id and a handle or neither, apart from every feed before it. -/
def optional_named (ids handles : Feed → Nat) (feed : Feed) : Bool :=
  (ids feed == 0) == (handles feed == 0) &&
    (ids feed == 0 || (List.finRange 4).all fun before =>
      !decide (before < feed) || (ids feed != ids before && handles feed != handles before))

def feeds_named (manager : SceneManagerIdentity) (ids handles : Feed → Nat) : Bool :=
  pair_named manager ids handles &&
    (List.finRange 4).all fun feed => decide (feed.val < 2) || optional_named ids handles feed

/-- Another manager or pair than the one that the scene is bound to. -/
def other_owner (s : SceneHandoff) (manager : SceneManagerIdentity) (ids : Feed → Nat) : Bool :=
  s.owner_bound && (s.owner != manager || s.owned_ids != ids)

/-- The devices that have the handle. -/
def holders (s : SceneHandoff) (handle : Nat) : List (Fin 4) :=
  (List.finRange 4).filter fun i =>
    (s.devices i).key != 0 && ((s.devices i).resources.lookup handle).isSome

/-- The device and the resources that a publication under way has found. -/
structure Pending where
  device_key : Nat := 0
  resources : Feed → SceneResourceIdentity := fun _ => {}

/-- The incarnation behind a handle of a device. -/
def identity_at (s : SceneHandoff) (i : Fin 4) (handle : Nat) : Option SceneResourceIdentity :=
  ((s.devices i).resources.lookup handle).map fun r => ⟨(s.devices i).epoch, r.id, r.generation⟩

def resolve_feed (s : SceneHandoff) (handles : Feed → Nat) (pending : Pending) (feed : Feed) :
    Option Pending :=
  if handles feed = 0 then some pending
  else
    match s.holders (handles feed) with
    | [i] =>
      match s.identity_at i (handles feed) with
      | none => none
      | some identity =>
        if pending.device_key ≠ 0 ∧ pending.device_key ≠ (s.devices i).key then none
        else some ⟨(s.devices i).key, Function.update pending.resources feed identity⟩
    -- No device has the handle, or the handle is ambiguous.
    | _ => none

def resolve (s : SceneHandoff) (handles : Feed → Nat) : Option Pending :=
  (List.finRange 4).foldlM (s.resolve_feed handles) {}

def refuse_latest (s : SceneHandoff) : SceneHandoff :=
  { s with publication := {}, candidate_handles := fun _ => 0 }

/-- A ticket of the active scene whose capture is the latest, but that an event overtook. -/
def overtaken (s : SceneHandoff) (ticket : SceneCaptureTicket) : Bool :=
  s.active && ticket.scene_epoch == s.scene_epoch && ticket.sequence == s.capture_sequence &&
    ticket.lifecycle_epoch != s.lifecycle_epoch

def count_ticket (s : SceneHandoff) (ticket : SceneCaptureTicket) : SceneHandoff :=
  if s.overtaken ticket then
    { s with diagnostics :=
        { s.diagnostics with ticket_invalidations := s.diagnostics.ticket_invalidations + 1 } }
  else s

def publish (s : SceneHandoff) (ticket : SceneCaptureTicket) (manager : SceneManagerIdentity)
    (ids handles : Feed → Nat) : SceneHandoff × Bool :=
  let s := s.count_ticket ticket
  if s.names_latest ticket = false then (s, false)
  else if feeds_named manager ids handles = false then (s.refuse_latest, false)
  else if s.other_owner manager ids then
    -- A new manager or pair needs a new scene.
    let s := { s with active := false, candidate_handles := fun _ => 0
                      observed_handles := fun _ => 0 }
    ((s.advance .scene_epoch).1.refuse_latest, false)
  else
    match s.resolve handles with
    | none => (s.refuse_latest, false)
    | some pending =>
      ({ s with
          owner_bound := true, owner := manager, owned_ids := ids
          publication :=
            { valid := true, scene_epoch := s.scene_epoch, sequence := ticket.sequence
              device_key := pending.device_key, manager, entry_ids := ids, handles
              resources := pending.resources }
          candidate_handles := handles, observed_handles := handles
          diagnostics :=
            { s.diagnostics with publications := s.diagnostics.publications + 1 } }, true)

/-! ### Questions -/

/-- `match`. -/
def match_resource (s : SceneHandoff) (key handle : Nat) : SceneCopyMatch :=
  if !s.active || s.exhausted || !s.publication.valid ||
      s.publication.scene_epoch != s.scene_epoch || s.publication.device_key != key ||
      handle == 0 then {}
  else
    match s.device key with
    | none => {}
    | some i =>
      match s.identity_at i handle with
      | none => {}
      | some identity =>
        match (List.finRange 4).find? fun feed =>
            s.publication.handles feed != 0 && s.publication.handles feed == handle &&
              s.publication.resources feed == identity with
        | none => {}
        | some feed =>
          { matched := true, feed := feed.val, scene_epoch := s.scene_epoch
            capture_sequence := s.publication.sequence, manager := s.publication.manager
            entry_id := s.publication.entry_ids feed, resource := identity }

/-- `candidates` are the candidate handles as they were read, one by one, before the lock. -/
def observe_copy (candidates : Feed → Nat) (s : SceneHandoff) (key source destination : Nat) :
    SceneCopyObservation :=
  let candidate := (List.finRange 4).any fun i =>
    candidates i != 0 && (candidates i == source || candidates i == destination)
  if candidate = false then {}
  else { source := s.match_resource key source, destination := s.match_resource key destination }

def is_current (s : SceneHandoff) (value : SceneCopyMatch) : Bool :=
  if h : value.feed < 4 then
    let handle := s.publication.handles ⟨value.feed, h⟩
    if !value.matched || !s.publication.valid || handle == 0 then false
    else
      let current := s.match_resource s.publication.device_key handle
      current.matched && value.scene_epoch == current.scene_epoch &&
        value.manager == current.manager && value.entry_id == current.entry_id &&
        value.resource == current.resource && value.capture_sequence != 0 &&
        decide (value.capture_sequence ≤ current.capture_sequence)
  else false

/-! ### Runs -/

inductive Op
  | register_device (key : Nat)
  | unregister_device (key : Nat)
  | register_resource (key handle id : Nat) (allocated : Bool)
  | unregister_resource (key handle : Nat)
  | try_unregister_resource (key handle : Nat) (locked : Bool)
  | begin_scene
  | stop_scene
  | begin_capture
  | publish (ticket : SceneCaptureTicket) (manager : SceneManagerIdentity) (ids handles : Feed → Nat)

def step (s : SceneHandoff) : Op → SceneHandoff
  | .register_device key => (s.register_device key).1
  | .unregister_device key => s.unregister_device key
  | .register_resource key handle id allocated => (s.register_resource key handle id allocated).1
  | .unregister_resource key handle => s.unregister_resource key handle
  | .try_unregister_resource key handle locked => (s.try_unregister_resource key handle locked).1
  | .begin_scene => s.begin_scene.1
  | .stop_scene => s.stop_scene
  | .begin_capture => s.begin_capture.1
  | .publish ticket manager ids handles => (s.publish ticket manager ids handles).1

end SceneHandoff

end scene

end taxi_camera
