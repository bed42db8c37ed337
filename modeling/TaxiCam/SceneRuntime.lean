-- The private composition of completed camera images, and the pages that the
-- displays get: src/graphics/scene_runtime.cpp. Each call runs under the
-- runtime's mutex; the manager of the capture packets and the handoff of the
-- scenes have their own, so other threads go on between the calls to them.
import TaxiCam.PacketLifecycle

namespace taxi_camera.scene_runtime

open scene SceneCaptureManager PacketPool

/-! ## Outputs, of src/graphics/scene_frame_output.cpp -/

/-- What the runtime uses of a `SceneFrameOutput`. `reads` are the tokens of the snapshots that its
recording reads, until that is discarded or its ordered submission stands. -/
structure Output where
  prepared : Bool := false
  failed : Bool := false
  submitted : Nat := 0
  reads : List Nat := []

/-- How a `prepare` ends: it refuses before it resets its list, the device or the reset fails, it
fails with the list open, or it closes the list. -/
inductive Preparing
  | refused | lost | torn | closed
deriving DecidableEq

/-- How a `discard_prepared` ends: the output is not idle, the list does not reset, or it does. -/
inductive Discarding
  | refused | failed | discarded
deriving DecidableEq

namespace Output

def prepare (o : Output) (tokens : List Nat) (ends : Preparing) : Output × Bool :=
  if o.prepared || o.failed then (o, false)
  else
    match ends with
    | .refused => (o, false)
    | .lost => ({ o with failed := true }, false)
    | .torn => ({ o with failed := true, reads := tokens }, false)
    | .closed => ({ o with prepared := true, reads := tokens }, true)

/-- `signalled` is the answer for the Signal of the fence, after the list is executed. -/
def submit (o : Output) (signalled : Bool) : Output × Bool :=
  if !o.prepared || o.failed || decide (scene.UINT64_MAX - 1 ≤ o.submitted) then (o, false)
  else
    ({ o with prepared := false, submitted := o.submitted + 1, failed := !signalled }, signalled)

def discard_prepared (o : Output) (ends : Discarding) : Output × Bool :=
  if !o.prepared || o.failed then (o, false)
  else
    match ends with
    | .refused => (o, false)
    | .failed => ({ o with failed := true }, false)
    | .discarded => ({ o with prepared := false, reads := [] }, true)

/-- The ordered submission of the recording stands. -/
def established (o : Output) : Output := { o with reads := [] }

/-- Also the answer of `set_patch_profile` for a known profile. -/
def settled (o : Output) : Bool := !o.prepared && !o.failed

end Output

/-! ## Devices -/

/-- What the runtime reads of a profile: which object it is, its sides, and what
`matches_display` says of a format. -/
structure Profile where
  layout : Nat
  sides : Nat := 2
  fit_texture : Bool := false
  waiting_white_text : Bool := false
  matches_display : Nat → Bool := fun _ => true

/-- `profiles::find`, as a call finds it. -/
abbrev Catalog := Nat → Option Profile

def MaxDisplaySides : Nat := 3
def MaxPanelEdge : Nat := 16384
def Formats : List Nat := [28, 29, 87, 91]
def DoorFeed : Feed := 3

/-- The bits of three floats. -/
abbrev Color := Nat × Nat × Nat

def white : Color := (0x3f800000, 0x3f800000, 0x3f800000)
/-- Three times minus one. -/
def no_color : Color := (0xbf800000, 0xbf800000, 0xbf800000)

structure Composition where
  split_bottom : Nat := 0
  speed_color : Color := white
deriving DecidableEq

/-- Bit `side` of a mask is about that side. -/
structure QueuePatchConfig where
  generation : Nat := 0
  profile : Nat := 0
  camera_mask : Nat := 0
  calibration_mask : Nat := 0
  formats : List Nat := [0, 0, 0]
  sizes : List (Nat × Nat) := [(0, 0), (0, 0), (0, 0)]
  waiting_mask : Nat := 0
  door_mask : Nat := 0
deriving DecidableEq

inductive Page
  | none | camera | waiting | door
deriving DecidableEq

/-- Whose patch a side is given. -/
inductive Source
  | calibration
  | page (shown : Page)
deriving DecidableEq

structure QueuePatchSnapshot where
  generation : Nat := 0
  profile : Nat := 0
  sides : Nat → Option Source := fun _ => none

structure Status where
  initialized : Bool := false
  failed : Bool := false
  session_active : Bool := true
  session_generation : Nat := 1
  output : Bool := false
deriving DecidableEq

/-- A slot of `pending` is `none` where its token is zero in the source. -/
structure Device where
  status : Status := {}
  output : Output := {}
  calibration_output : Output := {}
  waiting_output : Output := {}
  waiting_available : Bool := false
  waiting_ready : Bool := false
  waiting_color : Color := no_color
  waiting_prepared_color : Color := no_color
  output_ms : Nat := 0
  door_output : Output := {}
  door_available : Bool := false
  door_enabled : Bool := false
  door_live : Bool := false
  door_ready : Bool := false
  door_committed : SceneCopyMatch := {}
  door_ms : Nat := 0
  queue_config : QueuePatchConfig := {}
  queue_snapshot : QueuePatchSnapshot := {}
  pending : Feed → Option Frame := fun _ => none
  committed : Feed → SceneCopyMatch := fun _ => {}
  newest : Feed → FrameOrder := fun _ => {}
  composition : Composition := {}
  patch_profile : Nat := 1
  patch_layout : Option Nat := none

/-! ## The state -/

/-- What other threads do between the calls of a turn: a call of the manager, or of the handoff. -/
inductive Outside
  | manager (call : Call)
  | handoff (op : SceneHandoff.Op)

/-- A taxi composition: its frames by their feeds, the session's generation, and the handoff as the
look at each slot found it. -/
structure Composed where
  frames : List Frame
  generation : Nat
  seen : Feed → SceneHandoff

/-- What is told of the tokens, of the private recordings whose ordered submission stands, of the
compositions that were executed, of the calls after which the picture of a device is not shown, and
of the publications that show it, with the handoff that they find. `read` says of a token that is
given back that a recording reads its snapshot. -/
inductive Event
  | polled (frame : Frame)
  | discarded (token : Nat) (read : Bool)
  | consumed (token fence value : Nat) (read : Bool)
  | ordered (tokens : List Nat) (fence value : Nat)
  | composed (key : Nat) (composition : Composed)
  | changed (key : Nat)
  | shown (key : Nat) (handoff : SceneHandoff)

structure World where
  pool : PacketPool := {}
  handoff : SceneHandoff := {}
  devices : Nat → Option Device := fun _ => none
  keys : List Nat := []
  waiting_stale_ms : Nat := 0
  told : List Event := []

namespace World

def put (w : World) (key : Nat) (item : Device) : World :=
  { w with devices := Function.update w.devices key (some item) }

@[simp] theorem put_self (w : World) (key : Nat) (item : Device) :
    (w.put key item).devices key = some item := Function.update_self ..

theorem put_other (w : World) (item : Device) {key other : Nat} (h : other ≠ key) :
    (w.put key item).devices other = w.devices other := Function.update_of_ne h ..

@[simp] theorem put_put (w : World) (key : Nat) (item later : Device) :
    (w.put key item).put key later = w.put key later := by
  simp [put]

def tell (w : World) (e : Event) : World := { w with told := w.told ++ [e] }

/-- The calls that only the runtime makes. -/
def own_call : Call → Bool
  | .register_device .. | .destroy_device .. | .reset_session .. | .resume_session ..
  | .poll_completed_frames .. | .finish_consumption .. | .discard_frame .. => true
  | _ => false

def outside (w : World) : Outside → World
  | .manager call => if own_call call then w else { w with pool := w.pool.step call }
  | .handoff op => { w with handoff := w.handoff.step op }

/-- What the other threads did meanwhile. -/
def meanwhile (w : World) (work : List Outside) : World := work.foldl outside w

/-! ### Tokens -/

/-- The tokens that the recordings of a device read. -/
def reads (item : Device) : List Nat :=
  item.output.reads ++ item.door_output.reads ++ item.waiting_output.reads ++
    item.calibration_output.reads

def is_read (w : World) (token : Nat) : Bool :=
  w.keys.any fun key => (w.devices key).any fun item => (reads item).contains token

/-- What the packet of a token answers. -/
abbrev Natives := Nat → SceneCaptureD3D12.Native

def discard_frame (w : World) (natives : Natives) (token : Nat) : World :=
  ({ w with pool := (w.pool.discard_frame token (natives token)).1 }).tell
    (.discarded token (w.is_read token))

def finish_consumption (natives : Natives) (fence value : Nat) (w : World) (token : Nat) : World :=
  ({ w with pool := (w.pool.finish_consumption token fence value (natives token)).1 }).tell
    (.consumed token fence value (w.is_read token))

def set_slot (item : Device) (feed : Feed) (frame : Option Frame) : Device :=
  { item with pending := Function.update item.pending feed frame }

/-- A slot gives its frame back. -/
def clear_slot (natives : Natives) (key : Nat) (w : World) (feed : Feed) : World :=
  match w.devices key with
  | none => w
  | some item =>
    match item.pending feed with
    | none => w
    | some frame =>
      (w.discard_frame natives frame.token).put key (set_slot item feed none)

def feeds : List Feed := List.finRange 4

def discard (w : World) (natives : Natives) (key : Nat) : World :=
  feeds.foldl (clear_slot natives key) w

/-! ### Pages -/

def current_output (w : World) (item : Device) : Bool :=
  if !item.status.session_active || !item.status.output ||
      !w.handoff.is_current (item.committed 0) || !w.handoff.is_current (item.committed 1) then false
  else if item.composition.split_bottom != 0 && !w.handoff.is_current (item.committed 2) then false
  else true

def waiting_page (catalog : Catalog) (item : Device) : Bool :=
  item.waiting_available && (catalog item.patch_profile).isSome

def waiting_text_color (catalog : Catalog) (item : Device) : Color :=
  match catalog item.patch_profile with
  | some profile => if profile.waiting_white_text then white else item.composition.speed_color
  | none => item.composition.speed_color

def show_waiting (w : World) (catalog : Catalog) (now : Nat) (item : Device) (minimum_time : Bool) :
    Bool :=
  if !waiting_page catalog item then false
  else if minimum_time || !w.current_output item then true
  else if w.waiting_stale_ms = 0 then false
  else
    item.output_ms == 0 || decide (now < item.output_ms) ||
      decide (w.waiting_stale_ms < now - item.output_ms)

def door_current (w : World) (now : Nat) (item : Device) : Bool :=
  if !item.door_available || !item.door_enabled || !item.door_ready || !item.status.session_active then
    false
  else if !item.door_live then true
  else
    w.handoff.is_current item.door_committed &&
      (w.waiting_stale_ms == 0 ||
        (decide (item.door_ms ≤ now) && decide (now - item.door_ms ≤ w.waiting_stale_ms)))

/-- `standalone::door_side_page`. -/
def door_side_page (available page_current waiting waiting_ready : Bool) : Page :=
  if !available then .none
  else if page_current && !waiting then .door
  else if waiting_ready then .waiting
  else if page_current then .door
  else .none

def side_page (w : World) (catalog : Catalog) (now : Nat) (item : Device) (waiting door : Bool) :
    Page :=
  if door then
    door_side_page item.door_available (w.door_current now item) waiting
      (waiting_page catalog item && item.waiting_ready)
  else if w.show_waiting catalog now item waiting then
    if item.waiting_ready then .waiting else .none
  else if w.current_output item then .camera
  else .none

def side_mask (profile : Profile) : Nat := 2 ^ profile.sides - 1

/-- No bit is set outside the other mask. -/
def within (mask other : Nat) : Bool := Nat.land mask other == mask

def valid_side (profile : Profile) (config : QueuePatchConfig) (side : Nat) : Bool :=
  if !(config.camera_mask.testBit side || config.calibration_mask.testBit side) then true
  else
    let format := config.formats.getD side 0
    let size := config.sizes.getD side (0, 0)
    if !Formats.contains format || !profile.matches_display format then false
    else
      !(profile.fit_texture && (size.1 == 0 || size.2 == 0 || decide (MaxPanelEdge < size.1) ||
        decide (MaxPanelEdge < size.2)))

def valid_queue_config (catalog : Catalog) (item : Device) (config : QueuePatchConfig) : Bool :=
  if config.generation = 0 then config == {}
  else
    match catalog config.profile with
    | none => false
    | some profile =>
      if config.profile != item.patch_profile ||
          !within (Nat.lor config.camera_mask config.calibration_mask) (side_mask profile) ||
          !within config.waiting_mask config.camera_mask ||
          !within config.door_mask config.camera_mask then false
      else (List.range profile.sides).all (valid_side profile config)

/-- What `publish_queue_patches` gives a side. `written` says that the source has the side's patch. -/
def side_source (w : World) (catalog : Catalog) (now : Nat) (item : Device)
    (written : Source → Nat → Bool) (side : Nat) : Option Source :=
  let config := item.queue_config
  let offer := fun source => if written source side then some source else none
  if config.calibration_mask.testBit side then offer .calibration
  else if !config.camera_mask.testBit side then none
  else
    match w.side_page catalog now item (config.waiting_mask.testBit side)
        (config.door_mask.testBit side) with
    | .none => none
    | shown => offer (.page shown)

/-- What a publication finds: the profiles, the time, and the patches that are written. -/
structure Publishing where
  catalog : Catalog := fun _ => none
  now : Nat := 0
  written : Source → Nat → Bool := fun _ _ => true

def published_patches (w : World) (p : Publishing) (item : Device) : QueuePatchSnapshot :=
  let config := item.queue_config
  match p.catalog config.profile with
  | none => {}
  | some profile =>
    if !item.status.session_active || item.status.failed || config.generation == 0 ||
        config.profile != item.patch_profile then {}
    else
      { generation := config.generation, profile := config.profile
        sides := fun side =>
          if side < profile.sides then w.side_source p.catalog p.now item p.written side else none }

/-- A side is given the taxi picture. -/
def shows_camera (snapshot : QueuePatchSnapshot) : Bool :=
  (List.range MaxDisplaySides).any fun side => snapshot.sides side == some (.page .camera)

def publish_queue_patches (w : World) (p : Publishing) (key : Nat) : World :=
  match w.devices key with
  | none => w
  | some item =>
    let snapshot := w.published_patches p item
    let published := w.put key { item with queue_snapshot := snapshot }
    if shows_camera snapshot then published.tell (.shown key w.handoff) else published

/-- `try_snapshot_queue_patches`, where it gets the mutex. -/
def snapshot_queue_patches (w : World) (key generation : Nat) : Option QueuePatchSnapshot :=
  match w.devices key with
  | none => none
  | some item =>
    if !item.status.session_active || item.status.failed || generation == 0 ||
        item.queue_snapshot.generation != generation ||
        item.queue_snapshot.profile != item.patch_profile ||
        (List.range MaxDisplaySides).all (fun side => (item.queue_snapshot.sides side).isNone) then none
    else some item.queue_snapshot

end World

end taxi_camera.scene_runtime
