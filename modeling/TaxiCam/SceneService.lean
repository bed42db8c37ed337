-- The calls of the scene runtime: the service of the completed camera images,
-- and the calls that reset a feed or a session, set a profile or a layout, or
-- take a device away. src/graphics/scene_runtime.cpp.
import TaxiCam.SceneRuntime

namespace taxi_camera.scene_runtime

open scene SceneCaptureManager PacketPool

/-! ## Private submissions -/

/-- The answer of `begin_private_submission`; a receipt of zero is none. -/
structure Submission where
  receipt : Nat := 1
  fence : Nat := 0
  value : Nat := 0
  deferred : Bool := false

/-- What one private recording finds: the fence of its output reached, its settings accepted, and
the answers up to `end_private_submission`. Others go on between the recording and its submission,
and after that. -/
structure Attempt where
  idle : Bool := true
  patches_pending : Bool := false
  accepted : Bool := true
  preparing : Preparing := .closed
  during : List Outside := []
  submission : Submission := {}
  discarding : Discarding := .discarded
  signalled : Bool := true
  ordered : Bool := true
  after : List Outside := []

namespace Device

def fail (item : Device) : Device := { item with status := { item.status with failed := true } }

/-- The calibration page; false leaves the device. -/
def calibrate (item : Device) (a : Attempt) : Device × Bool :=
  if item.queue_config.calibration_mask = 0 || item.calibration_output.failed || !a.idle then
    (item, true)
  else
    let prepared := item.calibration_output.prepare [] a.preparing
    if !prepared.2 then (fail { item with calibration_output := prepared.1 }, false)
    else if a.submission.receipt = 0 then
      let discarded := prepared.1.discard_prepared a.discarding
      if !a.submission.deferred || !discarded.2 then
        (fail { item with calibration_output := discarded.1 }, false)
      else ({ item with calibration_output := discarded.1 }, true)
    else
      let submitted := prepared.1.submit a.signalled
      if !submitted.2 || !a.ordered then
        (fail { item with calibration_output := submitted.1 }, false)
      else ({ item with calibration_output := submitted.1.established }, true)

/-- A page that is not recorded yet is recorded in the layout's colors. -/
def prepare_waiting (item : Device) (color : Color) (a : Attempt) : Device :=
  if item.waiting_output.prepared then item
  else
    let prepared :=
      if a.accepted then item.waiting_output.prepare [] a.preparing else (item.waiting_output, false)
    if prepared.2 then
      { item with waiting_output := prepared.1, waiting_prepared_color := color }
    else
      { item with waiting_output := prepared.1, waiting_available := false, waiting_ready := false }

def submit_waiting (item : Device) (a : Attempt) : Device × Bool :=
  if !item.waiting_output.prepared then (item, true)
  else if a.submission.receipt = 0 then
    if a.submission.deferred then (item, true)
    else
      (fail { item with waiting_output := (item.waiting_output.discard_prepared a.discarding).1 },
        false)
  else
    let submitted := item.waiting_output.submit a.signalled
    if !submitted.2 || !a.ordered then (fail { item with waiting_output := submitted.1 }, false)
    else
      ({ item with
          waiting_output := submitted.1.established, waiting_ready := true
          waiting_color := item.waiting_prepared_color }, true)

/-- The waiting page; a recording whose submission is deferred is kept. -/
def service_waiting (item : Device) (catalog : Catalog) (a : Attempt) : Device × Bool :=
  let color := World.waiting_text_color catalog item
  if World.waiting_page catalog item && item.status.initialized && !item.waiting_output.failed &&
      a.idle && (item.waiting_output.prepared || !item.waiting_ready ||
        item.waiting_color != color || a.patches_pending) then
    (item.prepare_waiting color a).submit_waiting a
  else (item, true)

end Device

namespace World

/-! ## The door page -/

/-- A frame that waited in its slot may belong to a scene that is over. -/
def drop_stale (natives : Natives) (key : Nat) (w : World) (feed : Feed) : World :=
  match w.devices key with
  | none => w
  | some item =>
    match item.pending feed with
    | none => w
    | some frame =>
      if w.handoff.is_current frame.published then w else w.clear_slot natives key feed

/-- The door page is submitted, with the frame that it composes; false fails the device. -/
def submit_door (w : World) (natives : Natives) (key : Nat) (item : Device) (a : Attempt)
    (now : Nat) : World × Bool :=
  if a.submission.receipt = 0 then
    if a.submission.deferred then
      let discarded := item.door_output.discard_prepared a.discarding
      (w.put key { item with door_output := discarded.1 }, discarded.2)
    else (w, false)
  else
    let submitted := item.door_output.submit a.signalled
    if !submitted.2 || !a.ordered then
      (w.put key { item with door_output := submitted.1 }, false)
    else
      let ordered := (w.put key { item with door_output := submitted.1.established }).tell
        (.ordered submitted.1.reads a.submission.fence a.submission.value)
      match item.pending DoorFeed with
      | none => (ordered, true)
      | some frame =>
        let item :=
          { item with
            door_output := submitted.1.established, door_committed := frame.published
            door_ready := true, door_ms := now }
        ((finish_consumption natives a.submission.fence a.submission.value ordered frame.token).put
          key (set_slot item DoorFeed none), true)

def compose_door (w : World) (natives : Natives) (key : Nat) (a : Attempt) (now : Nat) :
    World × Bool :=
  match w.devices key with
  | none => (w, true)
  | some item =>
    let frame := item.pending DoorFeed
    if frame.isNone && !(item.door_ready && a.patches_pending) then (w, true)
    else
      let prepared :=
        if frame.isSome && !a.accepted then (item.door_output, false)
        else item.door_output.prepare (frame.toList.map Frame.token) a.preparing
      if !prepared.2 then
        -- The page is optional: its image goes back, and the taxi cameras carry on.
        (clear_slot natives key
          (w.put key
            { item with door_output := prepared.1, door_available := false, door_ready := false })
          DoorFeed, true)
      else
        let item := { item with door_output := prepared.1 }
        ((w.put key item).meanwhile a.during).submit_door natives key item a now

def service_door (w : World) (natives : Natives) (key : Nat) (a : Attempt) (now : Nat) :
    World × Bool :=
  match w.devices key with
  | none => (w, true)
  | some item =>
    if !item.door_available || !item.door_enabled then (w.clear_slot natives key DoorFeed, true)
    else if item.door_output.failed || !a.idle then (w, true)
    else (w.drop_stale natives key DoorFeed).compose_door natives key a now

/-! ## The taxi composition -/

/-- The frames of a composition, where each of its slots has one. -/
def chosen (item : Device) : Option (List Frame) :=
  match item.pending 0, item.pending 1 with
  | some first, some second =>
    if item.composition.split_bottom = 0 then some [first, second]
    else
      match item.pending 2 with
      | some third => some [first, second, third]
      | none => none
  | _, _ => none

/-- The frames are of one scene and of one manager. -/
def same_scene : List Frame → Bool
  | [] => true
  | first :: rest =>
    rest.all fun frame =>
      frame.published.scene_epoch == first.published.scene_epoch &&
        frame.published.manager == first.published.manager

/-- The feeds that a layout composes. -/
def composed_feeds (item : Device) : List Feed :=
  if item.composition.split_bottom = 0 then [0, 1] else [0, 1, 2]

/-- The taxi picture is there: the slots are free, and the device remembers what is shown. -/
def commit (item : Device) (frames : List Frame) (now : Nat) : Device :=
  { item with
    output := item.output.established
    committed := fun feed => ((frames[feed.val]?).map Frame.published).getD {}
    pending := fun feed => if feed ∈ composed_feeds item then none else item.pending feed
    status := { item.status with output := true }
    output_ms := now }

def submit_output (w : World) (natives : Natives) (key : Nat) (item : Device)
    (composition : Composed) (a : Attempt) (p : Publishing) (now : Nat) : World :=
  if a.submission.receipt = 0 then
    let discarded := item.output.discard_prepared a.discarding
    let item := { item with output := discarded.1 }
    if a.submission.deferred && discarded.2 then w.put key item
    else if discarded.2 then (w.put key item.fail).discard natives key
    else w.put key item.fail
  else
    let submitted := item.output.submit a.signalled
    let item := { item with output := submitted.1 }
    -- The list is executed, whatever the Signal and the order after it answer.
    let w := w.tell (.composed key composition)
    if !submitted.2 || !a.ordered then w.put key item.fail
    else
      let ordered := (w.put key { item with output := submitted.1.established }).tell
        (.ordered submitted.1.reads a.submission.fence a.submission.value)
      let consumed := (composition.frames.map Frame.token).foldl
        (finish_consumption natives a.submission.fence a.submission.value) ordered
      ((consumed.put key (commit item composition.frames now)).meanwhile
        a.after).publish_queue_patches p key

def compose (w : World) (natives : Natives) (key : Nat) (seen : Feed → SceneHandoff) (a : Attempt)
    (p : Publishing) (now : Nat) : World :=
  match w.devices key with
  | none => w
  | some item =>
    match chosen item with
    | none => w
    | some frames =>
      if !same_scene frames then w.discard natives key
      else if !a.accepted then w.put key item.fail
      else
        let prepared := item.output.prepare (frames.map Frame.token) a.preparing
        let item := { item with output := prepared.1 }
        if !prepared.2 then
          -- A failed recording may already read the snapshots: they are kept.
          w.put key item.fail
        else
          ((w.put key item).meanwhile a.during).submit_output natives key item
            { frames, generation := item.status.session_generation, seen } a p now

/-- A look at one slot, which remembers the handoff that it found. -/
def look (natives : Natives) (key : Nat) (looks : Feed → List Outside)
    (found : World × (Feed → SceneHandoff)) (feed : Feed) : World × (Feed → SceneHandoff) :=
  let w := found.1.meanwhile (looks feed)
  (w.drop_stale natives key feed, Function.update found.2 feed w.handoff)

/-! ## The service -/

/-- What the service of a device finds. -/
structure Turn where
  natives : Natives := fun _ => {}
  starts : List Outside := []
  catalog : Catalog := fun _ => none
  patched : Bool := true
  calibration : Attempt := {}
  waiting : Attempt := {}
  door : Attempt := {}
  output : Attempt := {}
  publishing : Publishing := {}
  republishing : Publishing := {}
  concluding : Publishing := {}
  looks : Feed → List Outside := fun _ => []
  now : Nat := 0

/-- The taxi cameras. -/
def service_output (w : World) (key : Nat) (t : Turn) : World :=
  match w.devices key with
  | none => w
  | some item =>
    if !item.status.initialized || item.status.failed || item.output.failed || !t.output.idle then w
    else
      let found := feeds.foldl (look t.natives key t.looks) (w, fun _ => {})
      found.1.compose t.natives key found.2 t.output t.concluding t.now

def service_images (w : World) (key : Nat) (t : Turn) : World :=
  match w.devices key with
  | none => w
  | some item =>
    let door :=
      if item.status.initialized then w.service_door t.natives key t.door t.now else (w, true)
    if !door.2 then
      match door.1.devices key with
      | none => door.1
      | some item => door.1.put key item.fail
    else
      ((door.1.meanwhile t.door.after).publish_queue_patches t.republishing key).service_output key t

/-- The pages that read no camera image. -/
def service_pages (w : World) (item : Device) (t : Turn) : Device × Bool :=
  let item :=
    if item.status.output && !w.current_output item then
      { item with status := { item.status with output := false } }
    else item
  if !t.patched then (item.fail, false)
  else
    match item.calibrate t.calibration with
    | (item, false) => (item, false)
    | (item, true) => item.service_waiting t.catalog t.waiting

def service_device (w : World) (key : Nat) (t : Turn) : World :=
  let w := w.meanwhile t.starts
  match w.devices key with
  | none => w
  | some item =>
    let item := { item with queue_snapshot := {} }
    if !item.status.session_active || item.status.failed then w.put key item
    else
      match w.service_pages item t with
      | (item, false) => w.put key item
      | (item, true) =>
        ((w.put key item).publish_queue_patches t.publishing key).service_images key t

/-- `newer_than` of a frame's order. -/
def newer_than (order previous : FrameOrder) : Bool :=
  order.submission != 0 && order.position != 0 &&
    (decide (previous.submission < order.submission) ||
      (order.submission == previous.submission && decide (previous.position < order.position)))

/-- A frame of the poll goes to the slot of its feed, or back. -/
def arrive (natives : Natives) (w : World) (frame : Frame) : World :=
  match w.devices frame.device_key with
  | none => w.discard_frame natives frame.token
  | some item =>
    if h : frame.published.feed < 4 then
      let feed : Feed := ⟨frame.published.feed, h⟩
      if !item.status.session_active ||
          frame.session_generation != item.status.session_generation ||
          !item.status.initialized || item.status.failed ||
          !w.handoff.is_current frame.published then w.discard_frame natives frame.token
      else if !newer_than frame.order (item.newest feed) then w.discard_frame natives frame.token
      else
        let item := { item with newest := Function.update item.newest feed frame.order }
        (clear_slot natives frame.device_key (w.put frame.device_key item) feed).put
          frame.device_key (set_slot item feed (some frame))
    else w.discard_frame natives frame.token

/-- What a service finds: the poll, what others do before each of its frames, and the devices. -/
structure Service where
  natives : Natives := fun _ => {}
  polling : Polling := {}
  arrivals : Nat → List Outside := fun _ => []
  turns : Nat → Turn := fun _ => {}

def poll (w : World) (found : Polling) : World × List Frame :=
  let answer := w.pool.poll_completed_frames MaximumPackets found
  ({ w with pool := answer.1, told := w.told ++ answer.2.map Event.polled }, answer.2)

def arrivals (s : Service) (w : World) (turn : Frame × Nat) : World :=
  arrive s.natives (w.meanwhile (s.arrivals turn.2)) turn.1

def service (w : World) (s : Service) : World :=
  let polled := w.poll s.polling
  w.keys.foldl (fun w key => w.service_device key (s.turns key))
    (polled.2.zipIdx.foldl (arrivals s) polled.1)

/-! ## The other calls -/

/-- `room` says that a place of the array is free. -/
def init_device (w : World) (key native timeline : Nat) (room : Bool) : World :=
  if key = 0 ∨ native = 0 ∨ (w.devices key).isSome ∨ room = false then w
  else
    let pool := w.pool.register_device key native timeline
    if (w.pool.devices key).isSome || (pool.devices key).isNone then { w with pool }
    else { w with pool, devices := Function.update w.devices key (some {}), keys := w.keys ++ [key] }

def destroy_device (w : World) (natives : Natives) (key : Nat) : World :=
  let w := w.discard natives key
  let w :=
    match w.devices key with
    | none => w
    | some item =>
      w.put key
        { item with
          status :=
            { item.status with failed := true, session_active := false, output := false }
          queue_snapshot := {} }
  { w with pool := w.pool.destroy_device key }

/-- A queue whose observation failed, where `init_queue` gets the mutex. -/
def refuse_queue (w : World) (key : Nat) : World :=
  match w.devices key with
  | none => w
  | some item => w.put key item.fail

/-- The answers for the objects of a device, in the order of `prepare`. -/
structure Preparation where
  output : Bool := true
  profile : Bool := true
  waiting : Bool := true
  door : Bool := true
  stamps : Bool := true

def prepare (w : World) (key : Nat) (p : Preparation) : World :=
  match w.devices key with
  | none => w
  | some item =>
    if item.status.failed || item.status.initialized then w
    else if !p.output then
      w.put key { item.fail with output := { item.output with failed := true } }
    else if !p.profile then w
    else
      let item := { item with waiting_available := p.waiting, door_available := p.door }
      if !p.stamps then w.put key item.fail
      else w.put key { item with status := { item.status with initialized := true } }

/-- A recording that is kept for another try is of the previous profile; a page whose output does
not take the profile is not offered. -/
def reprofile (output : Output) (available ready : Bool) (discarding : Discarding) :
    Output × Bool × Bool :=
  let discarded :=
    if output.prepared then output.discard_prepared discarding else (output, true)
  let offered := discarded.2 && available
  let kept := discarded.2 && ready
  if offered && !discarded.1.settled then (discarded.1, false, false)
  else (discarded.1, offered, kept)

/-- `catalog` has the profile. -/
def set_patch_profile (w : World) (key profile : Nat) (catalog : Catalog)
    (waiting door : Discarding) : World :=
  match catalog profile, w.devices key with
  | some layout, some item =>
    if item.status.initialized && !item.output.settled then w
    else
      let waiting :=
        reprofile item.waiting_output item.waiting_available item.waiting_ready waiting
      let door := reprofile item.door_output item.door_available item.door_ready door
      let changed := item.patch_profile != profile || item.patch_layout != some layout.layout
      let item :=
        { item with
          waiting_output := waiting.1, waiting_available := waiting.2.1, waiting_ready := waiting.2.2
          door_output := door.1, door_available := door.2.1, door_ready := door.2.2
          status := { item.status with output := item.status.output && !changed }
          queue_snapshot := {}, queue_config := {}
          patch_profile := profile, patch_layout := some layout.layout }
      if changed then (w.tell (.changed key)).put key item else w.put key item
  | _, _ => w

def configure_queue_patches (w : World) (key : Nat) (config : QueuePatchConfig) (catalog : Catalog) :
    World :=
  match w.devices key with
  | none => w
  | some item =>
    if item.status.failed || (!item.status.session_active && config.generation != 0) ||
        !valid_queue_config catalog item config then w
    else if item.queue_config != config then
      w.put key { item with queue_config := config, queue_snapshot := {} }
    else w

/-- `accepted` is the answer of the door page's output. -/
def set_composition (w : World) (key : Nat) (layout : Composition) (accepted : Bool) : World :=
  match w.devices key with
  | none => w
  | some item =>
    let item := { item with composition := layout }
    if item.door_available && !accepted then
      w.put key { item with door_available := false, door_ready := false }
    else w.put key item

def set_door (w : World) (key : Nat) (enabled live : Bool) : World :=
  match w.devices key with
  | none => w
  | some item =>
    let item := { item with door_enabled := enabled, door_live := live }
    if enabled then w.put key item
    else w.put key { item with door_ready := false, door_committed := {} }

/-- What both resets drop of the pictures. -/
def drop_pictures (item : Device) : Device :=
  { item with
    status := { item.status with output := false }
    queue_snapshot := {}
    committed := fun _ => {}
    door_ready := false
    door_committed := {} }

def reset_feed (w : World) (natives : Natives) (key : Nat) : World :=
  match w.devices key with
  | none => w
  | some item =>
    if item.status.failed then w
    else
      let w := (w.discard natives key).tell (.changed key)
      match w.devices key with
      | none => w
      | some item => w.put key (drop_pictures item)

/-- The answer of the manager's `reset_session`. -/
def reset_generation (pool : PacketPool) (key : Nat) : Nat :=
  match pool.devices key with
  | none => 0
  | some owner =>
    if !owner.active || decide (MaximumCounter ≤ owner.session_generation) then 0
    else owner.session_generation + 1

/-- The answer of the manager's `resume_session`. -/
def resumable (pool : PacketPool) (key generation : Nat) : Bool :=
  match pool.devices key with
  | none => false
  | some owner =>
    owner.active && !owner.failed && generation != 0 && owner.session_generation == generation

def reset_session (w : World) (natives : Natives) (key : Nat) : World × Nat :=
  match w.devices key with
  | none => (w, 0)
  | some item =>
    let item := { drop_pictures item with queue_config := {} }
    let item := { item with status := { item.status with session_active := false } }
    let generation := reset_generation w.pool key
    let w := ({ w with pool := w.pool.reset_session key }).tell (.changed key)
    if generation = 0 then (w.put key item, 0)
    else
      let item := { item with status := { item.status with session_generation := generation } }
      let w := w.put key item
      -- Failed recordings keep the snapshots that they may read.
      (if item.status.failed then w else w.discard natives key, generation)

def resume_session (w : World) (key generation : Nat) : World × Bool :=
  match w.devices key with
  | none => (w, false)
  | some item =>
    if item.status.failed || generation == 0 || item.status.session_generation != generation then
      (w, false)
    else if !resumable w.pool key generation then (w, false)
    else
      (({ w with pool := w.pool.resume_session key generation }).put key
        { item with status := { item.status with session_active := true } }, true)

/-! ## Runs -/

inductive Op
  | outside (work : List Outside)
  | init_device (key native timeline : Nat) (room : Bool)
  | destroy_device (natives : Natives) (key : Nat)
  | refuse_queue (key : Nat)
  | prepare (key : Nat) (p : Preparation)
  | set_patch_profile (key profile : Nat) (catalog : Catalog) (waiting door : Discarding)
  | configure_queue_patches (key : Nat) (config : QueuePatchConfig) (catalog : Catalog)
  | set_composition (key : Nat) (layout : Composition) (accepted : Bool)
  | set_door (key : Nat) (enabled live : Bool)
  | set_waiting_stale_ms (ms : Nat)
  | reset_feed (natives : Natives) (key : Nat)
  | reset_session (natives : Natives) (key : Nat)
  | resume_session (key generation : Nat)
  | service (s : Service)

def step (w : World) : Op → World
  | .outside work => w.meanwhile work
  | .init_device key native timeline room => w.init_device key native timeline room
  | .destroy_device natives key => w.destroy_device natives key
  | .refuse_queue key => w.refuse_queue key
  | .prepare key p => w.prepare key p
  | .set_patch_profile key profile catalog waiting door =>
    w.set_patch_profile key profile catalog waiting door
  | .configure_queue_patches key config catalog => w.configure_queue_patches key config catalog
  | .set_composition key layout accepted => w.set_composition key layout accepted
  | .set_door key enabled live => w.set_door key enabled live
  | .set_waiting_stale_ms ms => { w with waiting_stale_ms := ms }
  | .reset_feed natives key => w.reset_feed natives key
  | .reset_session natives key => (w.reset_session natives key).1
  | .resume_session key generation => (w.resume_session key generation).1
  | .service s => w.service s

end World

end taxi_camera.scene_runtime
