-- The private output of composed frames: eight slots of typed patches, each
-- with a staging texture and a stable buffer that application recordings copy
-- from. `SceneFrameOutput` of src/graphics/scene_frame_output.cpp, with the
-- device's answers as inputs of each call.
import TaxiCam.Runs
import TaxiCam.StampNative
import Mathlib.Data.List.FinRange

namespace taxi_camera

/-! ## The shapes of displays, of src/profiles/catalog.hpp -/

namespace profiles

def MaxDisplaySides : Nat := 3

structure DisplayRect where
  left : UInt32 := 0
  top : UInt32 := 0
  right : UInt32 := 0
  bottom : UInt32 := 0
deriving DecidableEq

structure DisplayInsets where
  left : UInt32 := 0
  top : UInt32 := 0
  right : UInt32 := 0
  bottom : UInt32 := 0
deriving DecidableEq

inductive DisplayLayout
  | pair | shared_texture | fitted
deriving DecidableEq

/-- The shape of an aircraft's displays: what `matches_display`, `side_content_rect` and the
calibration read of an `AircraftProfile`. -/
structure AircraftProfile where
  width : Nat
  height : Nat
  mips : Nat
  display_regions : Fin MaxDisplaySides → DisplayRect := fun _ => {}
  formats : List Nat := [28]
  camera_padding : DisplayInsets := { left := 16, top := 12, right := 16, bottom := 0 }
  display_layout : DisplayLayout := .pair
  sides : Nat := 2
  panel_mips : Nat := 0
  fit_texture : Bool := false
  areas : Fin MaxDisplaySides → DisplayRect := fun _ => {}
  fit_aspect : Fin MaxDisplaySides → Float32 := fun _ => 0#32

def display_rect (p : AircraftProfile) (side : Fin MaxDisplaySides) : DisplayRect :=
  p.display_regions (if side.val < p.sides then side else ⟨0, by decide⟩)

/-- The camera inset of a display area; empty when the padding leaves none. -/
def inset_rect (outer : DisplayRect) (padding : DisplayInsets) : DisplayRect :=
  if outer.right ≤ outer.left ∨ outer.bottom ≤ outer.top then {}
  else
    let width := outer.right - outer.left
    let height := outer.bottom - outer.top
    if padding.left ≥ width ∨ padding.right ≥ width - padding.left ∨ padding.top ≥ height ∨
        padding.bottom ≥ height - padding.top then {}
    else
      { left := outer.left + padding.left
        top := outer.top + padding.top
        right := outer.right - padding.right
        bottom := outer.bottom - padding.bottom }

/-- A side's display area on the texture routed to it. -/
def side_rect (p : AircraftProfile) (side : Fin MaxDisplaySides) (width height : UInt32) :
    DisplayRect :=
  if p.fit_texture = false then display_rect p side
  else
    let a := p.areas side
    let kept : DisplayRect :=
      { left := if a.left < width then a.left else width
        top := if a.top < height then a.top else height
        right := if a.right < width then a.right else width
        bottom := if a.bottom < height then a.bottom else height }
    if kept.right > kept.left ∧ kept.bottom > kept.top then kept
    else { right := width, bottom := height }

/-- The camera area of a side. `fit` is `fit_rect`, which computes in floating point. -/
def side_content_rect (fit : DisplayRect → Float32 → DisplayRect) (p : AircraftProfile)
    (side : Fin MaxDisplaySides) (width height : UInt32) (door : Bool) : DisplayRect :=
  fit (inset_rect (side_rect p side width height) p.camera_padding)
    (if door then 0#32 else p.fit_aspect side)

def MaxPanelEdge : Nat := 16384

def panel_texture_shape (width height mips format : Nat) : Bool :=
  width != 0 && height != 0 && decide (width ≤ MaxPanelEdge) && decide (height ≤ MaxPanelEdge) &&
    decide (mips ≥ 2) && decide (mips ≤ 12) && (format == 28 || format == 29)

def matches_display (p : AircraftProfile) (width height mips format : Nat) : Bool :=
  if p.fit_texture then panel_texture_shape width height mips format
  else if width ≠ p.width ∨ height ≠ p.height ∨ mips = 0 ∨ mips > 12 ∨
      (p.mips ≠ 0 ∧ p.mips ≠ mips ∧ p.panel_mips ≠ mips) ∨ format = 0 then false
  else
    -- An aircraft without a list of formats admits every format of its size.
    let listed := p.formats.filter (· != 0)
    listed.contains format || listed.isEmpty

/-- The profiles that `profiles::find` knows at the time of a call. -/
abbrev Catalog := Nat → Option AircraftProfile

end profiles

open profiles

/-- `static_cast<LONG>`. -/
def long_of (n : UInt32) : Int := n.toInt32.toInt

/-! ## The device -/

/-- `D3D12_SUBRESOURCE_FOOTPRINT`. -/
structure SubresourceFootprint where
  Format : Nat := 0
  Width : Nat := 0
  Height : Nat := 0
  Depth : Nat := 0
  RowPitch : Nat := 0
deriving DecidableEq

/-- `D3D12_PLACED_SUBRESOURCE_FOOTPRINT`. -/
structure PlacedFootprint where
  Offset : Nat := 0
  Footprint : SubresourceFootprint := {}
deriving DecidableEq

/-- What is computed outside of the calls below. -/
structure Platform where
  fit_rect : DisplayRect → Float32 → DisplayRect
  /-- `GetCopyableFootprints` of a texture by its format, width and height: the layout of a
  copy of it, and its bytes. -/
  get_copyable_footprints : Nat → Nat → Nat → PlacedFootprint × Nat

/-- The layout of a copy names the format and the size of the texture. -/
def Platform.names_shape (d : Platform) : Prop :=
  ∀ format width height,
    (d.get_copyable_footprints format width height).1.Footprint.Format = format ∧
      (d.get_copyable_footprints format width height).1.Footprint.Width = width ∧
      (d.get_copyable_footprints format width height).1.Footprint.Height = height

/-- A committed resource, as it was created. -/
inductive Resource
  | buffer (bytes : Nat)
  | texture (format width height : Nat)
deriving DecidableEq

/-- A `CopyTextureRegion` from the texture of a slot to the buffer of its view. Resources are
numbered in the order of their creation. -/
structure Copy where
  slot : Fin 8
  source : Option Nat
  target : Option Nat
  footprint : PlacedFootprint
deriving DecidableEq

/-- What happened to the slots and to their recordings. -/
inductive Event
  | recorded (copy : Copy)
  | submitted (copies : List Copy)
  | reused (slot : Fin 8)
  | retired (buffer : Nat)
deriving DecidableEq

/-! ## The output -/

structure Patch where
  buffer : Option Nat := none
  footprint : PlacedFootprint := {}
deriving DecidableEq

structure PatchStorage where
  view : Patch := {}
  texture : Option Nat := none
  content : Rect := ⟨0, 0, 0, 0⟩
  format : Nat := 0
  texture_format : Nat := 0
  width : Nat := 0
  height : Nat := 0
  texture_width : Nat := 0
  texture_height : Nat := 0
  buffer_bytes : Nat := 0
  requested_ms : Nat := 0
  drawer : Nat := 0
  written : Bool := false
  recorded : Bool := false
deriving DecidableEq

def PatchStaleMs : Nat := 2000
def RetiredBuffers : Nat := 16
def UINT64_MAX : Nat := 0xffffffffffffffff
def BufferBytes : Nat := 768 * 4 * 763

/-- `SceneFrameOutput`. `retired_buffers` is the filled part of `retired_buffers_`, so its
length is `retired_count_`. The last four fields are the device's side: the resources it
created and released, the copies in the command list, and the history. -/
structure SceneFrameOutput where
  patches : Fin 8 → PatchStorage := fun _ => {}
  retired_buffers : List Nat := []
  device : Nat := 0
  fence : Bool := false
  buffer : Option Nat := none
  patch_profile : Nat := 1
  patch_requests : Nat := 0
  patch_reuses : Nat := 0
  patch_draws : Nat := 0
  submitted : Nat := 0
  prepared : Bool := false
  calibration_only : Bool := false
  failed : Bool := false
  error : String := ""
  created : List Resource := []
  released : List Nat := []
  list : List Copy := []
  log : List Event := []

/-- `PatchFormats`: R8G8B8A8 and B8G8R8A8, UNORM and sRGB. -/
def PatchFormats : List Nat := [28, 29, 87, 91]

/-- The slot holds exactly this shape. -/
def PatchStorage.has_shape (p : PatchStorage) (format width height : Nat) (content : Rect) :
    Bool :=
  p.width == width && p.height == height && p.format == format && p.content == content

/-- The slot's texture has this format and size. -/
def PatchStorage.texture_is (p : PatchStorage) (format width height : Nat) : Bool :=
  p.texture_width == width && p.texture_height == height && p.texture_format == format

namespace SceneFrameOutput

def fail (s : SceneFrameOutput) (error : String) : SceneFrameOutput :=
  { s with error, failed := true }

def idle (s : SceneFrameOutput) (completed : Nat) : Bool :=
  !s.failed && s.fence && completed != UINT64_MAX && decide (completed ≥ s.submitted)

def set_patch (s : SceneFrameOutput) (i : Fin 8) (p : PatchStorage) : SceneFrameOutput :=
  { s with patches := Function.update s.patches i p }

def set_patch_profile (catalog : Catalog) (s : SceneFrameOutput) (profile : Nat) :
    SceneFrameOutput × Bool :=
  if (catalog profile).isNone || s.prepared || s.failed then (s, false)
  else ({ s with patch_profile := profile }, true)

/-! ### Requests -/

/-- The content of a side's patch, in the patch's own pixels. -/
def local_content (inner outer : DisplayRect) : Rect :=
  ⟨long_of (inner.left - outer.left), long_of (inner.top - outer.top),
    long_of (inner.right - outer.left), long_of (inner.bottom - outer.top)⟩

/-- The patch is the one of this side, for the taxi picture or for the door camera. -/
def side_admits (d : Platform) (profile : AircraftProfile) (width height : Nat) (content : Rect)
    (side : Fin MaxDisplaySides) (door : Bool) : Bool :=
  if profile.fit_texture then
    let inner := d.fit_rect (inset_rect
      { right := UInt32.ofNat width, bottom := UInt32.ofNat height } profile.camera_padding)
      (if door then 0#32 else profile.fit_aspect side)
    content == local_content inner {}
  else
    let outer := display_rect profile side
    let inner := side_content_rect d.fit_rect profile side (UInt32.ofNat width)
      (UInt32.ofNat height) door
    width == (outer.right - outer.left).toNat && height == (outer.bottom - outer.top).toNat &&
      content == local_content inner outer

def valid_patch_request (d : Platform) (catalog : Catalog) (s : SceneFrameOutput)
    (format width height : Nat) (content : Rect) : Bool :=
  match catalog s.patch_profile with
  | none => false
  | some profile =>
    if s.failed || !matches_display profile profile.width profile.height
        (if profile.mips ≠ 0 then profile.mips else 1) format then false
    else if width = 0 ∨ width > 16384 ∨ height = 0 ∨ height > 16384 then false
    else (List.finRange MaxDisplaySides).any fun side =>
      decide (side.val < profile.sides) &&
        [false, true].any (side_admits d profile width height content side)

/-- `D3D12_TEXTURE_DATA_PITCH_ALIGNMENT`. -/
def pitch_alignment : Nat := 256

/-- The bytes of a buffer for a shape, as `request_patch` computes them. -/
def needed (width height : Nat) : Nat :=
  pitch_alignment * ((width * 4 + pitch_alignment - 1) / pitch_alignment) * (height - 1) + width * 4

/-- The stalest slots that may be taken: one whose buffer fits (or that has none), and one
whose buffer is too small. -/
structure Choice where
  fits : Option (Fin 8) := none
  grows : Option (Fin 8) := none

/-- The slot is requested longer ago than the best one so far. -/
def staler (s : SceneFrameOutput) (i : Fin 8) (best : Option (Fin 8)) : Bool :=
  match best with
  | none => true
  | some j => decide ((s.patches i).requested_ms < (s.patches j).requested_ms)

def consider (s : SceneFrameOutput) (bytes now : Nat) (c : Choice) (i : Fin 8) : Choice :=
  let p := s.patches i
  if now < p.requested_ms ∨ now - p.requested_ms < PatchStaleMs then c
  else if p.buffer_bytes ≥ bytes ∨ p.view.buffer = none then
    if s.staler i c.fits then { c with fits := some i } else c
  else if s.staler i c.grows then { c with grows := some i } else c

def choose (s : SceneFrameOutput) (bytes now : Nat) : Choice :=
  (List.finRange 8).foldl (s.consider bytes now) {}

/-- What a request finds: nothing, the slot that has its shape, an empty slot, or a stale one
to take over, whose buffer may have to grow. -/
inductive Demand
  | refused
  | known (i : Fin 8)
  | empty (i : Fin 8)
  | stale (i : Fin 8) (grows : Bool)

def stale_slot (s : SceneFrameOutput) (bytes now : Nat) : Demand :=
  let c := s.choose bytes now
  match c.fits, c.grows with
  | some i, _ => .stale i false
  | none, some i => if s.retired_buffers.length < RetiredBuffers then .stale i true else .refused
  | none, none => .refused

def demand (d : Platform) (catalog : Catalog) (s : SceneFrameOutput) (format width height : Nat)
    (content : Rect) (now : Nat) : Demand :=
  if s.valid_patch_request d catalog format width height content = false then .refused
  else if PatchFormats.idxOf format = PatchFormats.length then .refused
  else
    match (List.finRange 8).find? fun i => (s.patches i).has_shape format width height content with
    | some i => .known i
    | none =>
      match (List.finRange 8).find? fun i => (s.patches i).width == 0 with
      | some i => .empty i
      | none => s.stale_slot (needed width height) now

/-- Moves a slot's buffer to the retired ones: a recording may still read it. -/
def retire (s : SceneFrameOutput) (i : Fin 8) (b : Nat) : SceneFrameOutput :=
  let p := s.patches i
  { s with retired_buffers := s.retired_buffers ++ [b]
           patches := Function.update s.patches i { p with view := { p.view with buffer := none } }
           log := s.log ++ [.retired b] }

/-- Makes a stale slot free for a new shape. -/
def take_over (s : SceneFrameOutput) (i : Fin 8) (grows : Bool) : SceneFrameOutput :=
  let s :=
    match grows, (s.patches i).view.buffer with
    | true, some b =>
      let s := s.retire i b
      s.set_patch i { s.patches i with buffer_bytes := 0 }
    | _, _ => s
  let s := s.set_patch i { s.patches i with written := false, recorded := false }
  { s with patch_reuses := (s.patch_reuses + 1) % 0x100000000, log := s.log ++ [.reused i] }

/-- Gives a slot to a shape. -/
def assign (s : SceneFrameOutput) (i : Fin 8) (format width height : Nat) (content : Rect)
    (now : Nat) : SceneFrameOutput :=
  let s := s.set_patch i
    { s.patches i with format, width, height, content
                       drawer := PatchFormats.idxOf format, requested_ms := now }
  { s with patch_requests := (s.patch_requests + 1) % 0x100000000 }

def request_patch (d : Platform) (catalog : Catalog) (s : SceneFrameOutput)
    (format width height : Nat) (content : Rect) (now : Nat) : SceneFrameOutput × Bool :=
  match s.demand d catalog format width height content now with
  | .refused => (s, false)
  | .known i => (s.set_patch i { s.patches i with requested_ms := now }, true)
  | .empty i => (s.assign i format width height content now, true)
  | .stale i grows => ((s.take_over i grows).assign i format width height content now, true)

def patch (d : Platform) (catalog : Catalog) (s : SceneFrameOutput) (format width height : Nat)
    (content : Rect) : Patch :=
  if s.valid_patch_request d catalog format width height content && s.submitted != 0 then
    match (List.finRange 8).find? fun i =>
        let p := s.patches i
        p.written && p.view.footprint.Footprint.Format == format &&
          p.view.footprint.Footprint.Width == width &&
          p.view.footprint.Footprint.Height == height && p.content == content with
    | some i => (s.patches i).view
    | none => {}
  else {}

/-! ### Recording the patches -/

/-- What the device and the drawer of a patch answer while its slot is prepared. -/
structure SlotOutcome where
  texture : Bool := true
  buffer : Bool := true
  drawn : Bool := true

/-- Releases the texture of another shape than the slot's. -/
def drop_texture (s : SceneFrameOutput) (i : Fin 8) : SceneFrameOutput :=
  let p := s.patches i
  match p.texture with
  | some t =>
    if p.texture_is p.format p.width p.height then s
    else { s.set_patch i { p with texture := none } with released := s.released ++ [t] }
  | none => s

/-- The new texture of a slot, of the slot's shape. -/
def new_texture (s : SceneFrameOutput) (i : Fin 8) : SceneFrameOutput :=
  let p := s.patches i
  let s := s.set_patch i
    { p with texture := some s.created.length, texture_width := p.width
             texture_height := p.height, texture_format := p.format }
  { s with created := s.created ++ [.texture p.format p.width p.height] }

/-- The new buffer of a slot. -/
def new_buffer (s : SceneFrameOutput) (i : Fin 8) (bytes : Nat) : SceneFrameOutput :=
  let p := s.patches i
  let s := s.set_patch i
    { p with view := { p.view with buffer := some s.created.length }, buffer_bytes := bytes }
  { s with created := s.created ++ [.buffer bytes] }

/-- Retires a buffer that is too small for the slot's new texture. -/
def retire_small (s : SceneFrameOutput) (i : Fin 8) (bytes : Nat) :
    Except SceneFrameOutput SceneFrameOutput :=
  match (s.patches i).view.buffer with
  | some b =>
    if (s.patches i).buffer_bytes < bytes then
      if s.retired_buffers.length = RetiredBuffers then
        .error (s.fail "A private PFD patch buffer could not be retained for a new shape.")
      else .ok (s.retire i b)
    else .ok s
  | none => .ok s

/-- A buffer for a slot that has none. -/
def provide_buffer (o : SlotOutcome) (s : SceneFrameOutput) (i : Fin 8) (bytes : Nat) :
    Except SceneFrameOutput SceneFrameOutput :=
  match (s.patches i).view.buffer with
  | some _ => .ok s
  | none =>
    if o.buffer = false then .error (s.fail "Creating a stable private PFD patch buffer failed.")
    else .ok (s.new_buffer i bytes)

/-- A texture for a slot that has none, with a buffer for its copies. -/
def provide_texture (d : Platform) (o : SlotOutcome) (s : SceneFrameOutput) (i : Fin 8) :
    Except SceneFrameOutput SceneFrameOutput :=
  let p := s.patches i
  match p.texture with
  | some _ => .ok s
  | none =>
    if o.texture = false then .error (s.fail "Creating a private PFD patch texture failed.")
    else
      let layout := d.get_copyable_footprints p.format p.width p.height
      match (s.new_texture i).retire_small i layout.2 with
      | .error e => .error e
      | .ok s =>
        match s.provide_buffer o i layout.2 with
        | .error e => .error e
        | .ok s =>
          let p := s.patches i
          .ok (s.set_patch i { p with view := { p.view with footprint := layout.1 } })

/-- `upper_height` of src/graphics/calibration.hpp. -/
def upper_height (height : Nat) : Nat := height * 763 / 1024

/-- The bounds that `record_calibration` and `record_calibration_area` ask for, at the
origin. -/
def record_calibration (width height : Nat) : Bool :=
  !(decide (width < 32) || decide (width > 16384) || decide (height < 32) ||
    decide (height > 16384))

/-- The calibration patch of a slot is recorded. -/
def calibration_drawn (catalog : Catalog) (s : SceneFrameOutput) (p : PatchStorage) : Bool :=
  match catalog s.patch_profile with
  | none => false
  | some profile =>
    -- Gauges and set-up panels are whole rectangles; columns share one upper height.
    let gauge := profile.display_layout == .shared_texture || profile.fit_texture
    (gauge || upper_height profile.height == p.height) &&
      (if gauge then record_calibration p.width p.height
        else record_calibration p.width profile.height)

def draw (catalog : Catalog) (o : SlotOutcome) (s : SceneFrameOutput) (i : Fin 8) :
    Except SceneFrameOutput SceneFrameOutput :=
  if s.calibration_only then
    if s.calibration_drawn catalog (s.patches i) then .ok s
    else .error (s.fail "Recording the private calibration patch failed.")
  else if o.drawn then .ok s
  else .error (s.fail "Recording the private PFD patch failed.")

/-- `CopyTextureRegion` from the slot's texture to its buffer. -/
def record_copy (s : SceneFrameOutput) (i : Fin 8) : SceneFrameOutput :=
  let p := s.patches i
  let copy : Copy :=
    { slot := i, source := p.texture, target := p.view.buffer, footprint := p.view.footprint }
  let s := s.set_patch i { p with recorded := true }
  { s with list := s.list ++ [copy], log := s.log ++ [.recorded copy]
           patch_draws := s.patch_draws + 1 }

/-- The body of the loop of `prepare_patches`. -/
def prepare_patch (d : Platform) (catalog : Catalog) (slots : Fin 8 → SlotOutcome)
    (s : SceneFrameOutput) (i : Fin 8) : Except SceneFrameOutput SceneFrameOutput :=
  if (s.patches i).width = 0 then .ok s
  else
    match (s.drop_texture i).provide_texture d (slots i) i with
    | .error e => .error e
    | .ok s =>
      match s.draw catalog (slots i) i with
      | .error e => .error e
      | .ok s => .ok (s.record_copy i)

def prepare_patches (d : Platform) (catalog : Catalog) (slots : Fin 8 → SlotOutcome)
    (s : SceneFrameOutput) : Except SceneFrameOutput SceneFrameOutput :=
  (List.finRange 8).foldlM (prepare_patch d catalog slots) s

/-! ### Preparing, submitting, discarding -/

/-- What the device and the compositor answer to one prepare. `inputs` is the error of a
refused `set_inputs`. -/
structure PrepareOutcome where
  completed : Nat
  removed : Bool := false
  inputs : Option String := none
  reset : Bool := true
  recorded : Bool := true
  closed : Bool := true
  slots : Fin 8 → SlotOutcome := fun _ => {}

/-- The errors of one kind of prepare. `patches` replaces the error of `prepare_patches`. -/
structure PrepareErrors where
  removed : String
  reset : String
  recorded : String := ""
  patches : Option String := none
  closed : String

/-- What the prepares do once the output is idle. -/
def prepare_list (d : Platform) (catalog : Catalog) (errors : PrepareErrors)
    (s : SceneFrameOutput) (o : PrepareOutcome) : SceneFrameOutput × Bool :=
  if o.removed then (s.fail errors.removed, false)
  else
    match o.inputs with
    | some error => ({ s with error }, false)
    | none =>
      if o.reset = false then (s.fail errors.reset, false)
      else if o.recorded = false then ({ s with list := [] }.fail errors.recorded, false)
      else
        match { s with list := [] }.prepare_patches d catalog o.slots with
        | .error e => ((match errors.patches with | some error => e.fail error | none => e), false)
        | .ok s =>
          if o.closed = false then (s.fail errors.closed, false)
          else ({ s with prepared := true }, true)

def prepare (d : Platform) (catalog : Catalog) (s : SceneFrameOutput) (o : PrepareOutcome) :
    SceneFrameOutput × Bool :=
  if s.calibration_only || !s.idle o.completed || s.prepared then (s, false)
  else prepare_list d catalog
    { removed := "The PFD composition device was removed."
      reset := "Resetting the completed private composition list failed."
      recorded := "Recording the camera composition failed."
      closed := "Closing the private composition list failed." } s o

def prepare_waiting (d : Platform) (catalog : Catalog) (s : SceneFrameOutput)
    (o : PrepareOutcome) : SceneFrameOutput × Bool :=
  if s.calibration_only || !s.idle o.completed || s.prepared then (s, false)
  else prepare_list d catalog
    { removed := "The waiting page device was removed."
      reset := "Resetting the private waiting page list failed."
      recorded := "Recording the waiting page failed."
      patches := some "Closing the private waiting page list failed."
      closed := "Closing the private waiting page list failed." } s { o with inputs := none }

def prepare_patches_only (d : Platform) (catalog : Catalog) (s : SceneFrameOutput)
    (o : PrepareOutcome) : SceneFrameOutput × Bool :=
  if s.calibration_only || s.submitted == 0 || !s.idle o.completed || s.prepared then (s, false)
  else prepare_list d catalog
    { removed := "The retained page device was removed."
      reset := "Resetting the private patch list failed."
      patches := some "Closing the private patch list failed."
      closed := "Closing the private patch list failed." } s
    { o with inputs := none, recorded := true }

def prepare_calibration (d : Platform) (catalog : Catalog) (s : SceneFrameOutput)
    (o : PrepareOutcome) : SceneFrameOutput × Bool :=
  if !s.calibration_only || s.patch_requests == 0 || !s.idle o.completed || s.prepared then
    (s, false)
  else prepare_list d catalog
    { removed := "The calibration device was removed."
      reset := "Resetting the private calibration list failed."
      patches := some "Closing the private calibration list failed."
      closed := "Closing the private calibration list failed." } s
    { o with inputs := none, recorded := true }

/-- The patches of a recording that the queue has taken. -/
def written_patches (s : SceneFrameOutput) : SceneFrameOutput :=
  { s with patches := fun i =>
      let p := s.patches i
      if p.recorded then { p with written := true, recorded := false } else p }

def submit (s : SceneFrameOutput) (signalled : Bool) : SceneFrameOutput × Bool :=
  if !s.prepared || s.failed || decide (s.submitted ≥ UINT64_MAX - 1) then (s, false)
  else
    let s := { s with prepared := false, submitted := s.submitted + 1
                      log := s.log ++ [Event.submitted s.list] }
    if signalled = false then
      (s.fail "Signaling the private composition completion fence failed.", false)
    else (s.written_patches, true)

def discard_prepared (s : SceneFrameOutput) (completed : Nat) (reset : Bool) :
    SceneFrameOutput × Bool :=
  if !s.prepared || !s.idle completed then (s, false)
  else if reset = false then
    (s.fail "Discarding the never-submitted private composition list failed.", false)
  else
    ({ s with patches := fun i => { s.patches i with recorded := false }
              list := [], prepared := false }, true)

/-! ### Initialization -/

structure InitializeOutcome where
  queue : Bool := true
  heap : Bool := true
  buffer : Bool := true
  compositor : Bool := true
  drawers : Bool := true

def initialize_output (s : SceneFrameOutput) (device : Nat) (calibration_only : Bool)
    (o : InitializeOutcome) : SceneFrameOutput × Bool :=
  if s.failed then (s, false)
  else if s.device ≠ 0 then (s, s.device == device && s.calibration_only == calibration_only)
  else if device = 0 then
    (s.fail "A live native D3D12 device is required for the PFD output.", false)
  else
    let s := { s with device, calibration_only }
    if o.queue = false then (s.fail "Creating the private PFD composition queue failed.", false)
    else
      let s := { s with fence := true }
      if o.heap = false then
        (s.fail "Creating the private patch descriptor heap failed.", false)
      else if calibration_only then (s, true)
      else if o.buffer = false then
        (s.fail "Creating the stable PFD GPU buffer failed.", false)
      else
        let s := { s with buffer := some s.created.length
                          created := s.created ++ [.buffer BufferBytes] }
        if o.compositor = false then
          (s.fail "Initializing the two-camera compositor failed.", false)
        else if o.drawers = false then
          (s.fail "Creating a private typed PFD patch pipeline failed.", false)
        else (s, true)

/-! ### Runs -/

/-- A call, with what its environment answers. -/
inductive Op
  | initialize_output (device : Nat) (calibration_only : Bool) (o : InitializeOutcome)
  | set_patch_profile (catalog : Catalog) (profile : Nat)
  | request_patch (catalog : Catalog) (format width height : Nat) (content : Rect) (now : Nat)
  | prepare (catalog : Catalog) (o : PrepareOutcome)
  | prepare_waiting (catalog : Catalog) (o : PrepareOutcome)
  | prepare_patches_only (catalog : Catalog) (o : PrepareOutcome)
  | prepare_calibration (catalog : Catalog) (o : PrepareOutcome)
  | submit (signalled : Bool)
  | discard_prepared (completed : Nat) (reset : Bool)

def step (d : Platform) (s : SceneFrameOutput) : Op → SceneFrameOutput
  | .initialize_output device calibration_only o =>
    (s.initialize_output device calibration_only o).1
  | .set_patch_profile catalog profile => (set_patch_profile catalog s profile).1
  | .request_patch catalog format width height content now =>
    (s.request_patch d catalog format width height content now).1
  | .prepare catalog o => (s.prepare d catalog o).1
  | .prepare_waiting catalog o => (s.prepare_waiting d catalog o).1
  | .prepare_patches_only catalog o => (s.prepare_patches_only d catalog o).1
  | .prepare_calibration catalog o => (s.prepare_calibration d catalog o).1
  | .submit signalled => (s.submit signalled).1
  | .discard_prepared completed reset => (s.discard_prepared completed reset).1

end SceneFrameOutput

end taxi_camera
