-- The graphics state that the bridge tracks for one recording, and the calls
-- that restore it. `PfdGraphicsState` of src/graphics/pfd_stamp_state.hpp and
-- .cpp.
import TaxiCam.StampNative

namespace taxi_camera

open Function (update)

inductive PfdStateGroup | all | pipeline | root_bindings | raster
deriving DecidableEq

def includes_pfd_state_group (group member : PfdStateGroup) : Bool :=
  group == .all || group == member

structure PfdRootParameter where
  kind : PfdRootKind := .constants
  count : Nat := 0
deriving DecidableEq

/-- `parameters` is the array of the source: only indices below 64 are read or written. -/
structure PfdRootLayout where
  valid : Bool := false
  count : Nat := 0
  parameters : Nat → PfdRootParameter := fun _ => {}

structure PfdRootValue where
  known : BitVec 64 := 0#64
  address : Nat := 0
deriving DecidableEq

def mask (count : Nat) : BitVec 64 :=
  if count = 64 then BitVec.allOnes 64 else (1#64 <<< count) - 1#64

/-- `PfdGraphicsState`. Arrays with a count of their own (sample positions, the keys of the
observed words, heaps, viewports, scissors) are lists of that length. -/
structure PfdGraphicsState where
  invalid_reason : Option String := none
  observed : Bool := false
  generation : Nat := 0
  layout_generation : Nat := 0
  pipeline : Nat := 0
  dynamic_native : Nat := 0
  depth_bias_known : Bool := false
  strip_cut_known : Bool := false
  depth_bias : Float32 × Float32 × Float32 := (0#32, 0#32, 0#32)
  strip_cut : Nat := 0
  sample_native : Nat := 0
  sample_count : Nat := 0
  sample_pixels : Nat := 0
  sample_positions : List SamplePosition := []
  root : Nat := 0
  layout : PfdRootLayout := {}
  values : Nat → PfdRootValue := fun _ => {}
  native_root_observed : Bool := false
  undefined_tables : Nat → Bool := fun _ => false
  constants : Nat → Nat := fun _ => 0
  constant_offsets : Nat → Nat := fun _ => 0
  observed_arguments : Bool := false
  observed_word_keys : List Nat := []
  heaps_known : Bool := false
  heaps : List Nat := []
  topology : Nat := TOPOLOGY_UNDEFINED
  viewports : List Viewport := []
  scissors : List Rect := []

namespace PfdGraphicsState

def reset (_ : PfdGraphicsState) (generation : Nat) (native_observations : Bool) :
    PfdGraphicsState :=
  { generation := generation, observed := native_observations }

/-- The first reason stays. -/
def invalidate (t : PfdGraphicsState) (reason : String := "graphics_state_invalidated") :
    PfdGraphicsState :=
  { t with invalid_reason := t.invalid_reason.or (some reason) }

def bind_pipeline (t : PfdGraphicsState) (pipeline : Nat) : PfdGraphicsState :=
  { t with pipeline := pipeline, depth_bias_known := false, strip_cut_known := false
           dynamic_native := 0 }

/-! ## Overrides and sample positions -/

/-- The tests of a pointer for dynamic state: it is one, and the one of the calls before. -/
def dynamic_mismatch (t : PfdGraphicsState) (native : Nat) : Bool :=
  native == 0 || (t.dynamic_native != 0 && t.dynamic_native != native)

def set_depth_bias (t : PfdGraphicsState) (native : Nat) (bias clamp slope : Float32) :
    PfdGraphicsState :=
  if t.dynamic_mismatch native || !is_finite bias || !is_finite clamp || !is_finite slope then
    t.invalidate "dynamic_depth_bias_invalid"
  else
    { t with dynamic_native := native, depth_bias := (bias, clamp, slope)
             depth_bias_known := true }

/-- `value` is one of DISABLED (0), 0xFFFF (1) and 0xFFFFFFFF (2). -/
def set_strip_cut (t : PfdGraphicsState) (native value : Nat) : PfdGraphicsState :=
  if t.dynamic_mismatch native || decide (value > 2) then t.invalidate "dynamic_strip_cut_invalid"
  else { t with dynamic_native := native, strip_cut := value, strip_cut_known := true }

def valid_samples (samples pixels : Nat) : Bool :=
  (samples == 1 || samples == 2 || samples == 4 || samples == 8 || samples == 16) &&
    (pixels == 1 || pixels == 4) && decide (samples ≤ 16 / pixels)

def valid_position (p : SamplePosition) : Bool :=
  decide (-8 ≤ p.x) && decide (p.x ≤ 7) && decide (-8 ≤ p.y) && decide (p.y ≤ 7)

def set_sample_positions (t : PfdGraphicsState) (native samples pixels : Nat)
    (positions : Option (List SamplePosition)) : PfdGraphicsState :=
  if native == 0 || (t.sample_native != 0 && t.sample_native != native) then
    t.invalidate "sample_position_interface_mismatch"
  else
    match positions with
    | none =>
      if samples = 0 ∧ pixels = 0 then
        { t with sample_native := 0, sample_count := 0, sample_pixels := 0
                 sample_positions := [] }
      else t.invalidate "sample_position_arguments_invalid"
    | some positions =>
      if !valid_samples samples pixels then t.invalidate "sample_position_arguments_invalid"
      else if !(positions.take (samples * pixels)).all valid_position then
        t.invalidate "sample_position_coordinates_invalid"
      else
        { t with sample_native := native, sample_count := samples, sample_pixels := pixels
                 sample_positions := positions.take (samples * pixels) }

def has_sample_positions (t : PfdGraphicsState) : Bool := t.sample_count != 0

/-! ## The root signature and its arguments -/

/-- The loop of `bind_root`, from parameter `n` on: the offsets of the constants, and which
tables a native change of signature leaves undefined. A layout that does not fit is not valid. -/
def layout_parameters (t : PfdGraphicsState) (n offset cost : Nat) : Nat → PfdGraphicsState
  | 0 => t
  | left + 1 =>
    let param := t.layout.parameters n
    let refuse := fun t : PfdGraphicsState => { t with layout := { t.layout with valid := false } }
    let t :=
      if param.kind = .table then
        { t with undefined_tables :=
                   update t.undefined_tables n t.native_root_observed }
      else t
    if param.kind = .constants then
      if param.count = 0 ∨ param.count > 64 - offset then refuse t
      else
        let t := { t with constant_offsets := update t.constant_offsets n offset }
        if cost + param.count > 64 then refuse t
        else t.layout_parameters (n + 1) (offset + param.count) (cost + param.count) left
    else if param.count ≠ 1 then refuse t
    else
      let cost := cost + if param.kind = .table then 1 else 2
      if cost > 64 then refuse t else t.layout_parameters (n + 1) offset cost left

def bind_root (t : PfdGraphicsState) (root generation : Nat) (layout : PfdRootLayout)
    (exact_native_change : Bool := false) : PfdGraphicsState :=
  if t.root == root && t.layout_generation == generation && t.layout.valid && layout.valid then t
  else
    let t := { t with
      observed_arguments := false
      root := root
      layout_generation := generation
      layout := layout
      values := fun _ => {}
      native_root_observed := exact_native_change && t.observed
      undefined_tables := fun _ => false
      constants := fun _ => 0
      constant_offsets := fun _ => 0 }
    if !layout.valid || decide (layout.count > 64) then
      { t with layout := { layout with valid := false } }
    else t.layout_parameters 0 0 0 layout.count

def bind_observed_root (t : PfdGraphicsState) (root generation : Nat) : PfdGraphicsState :=
  if t.observed_arguments && t.root == root && t.layout_generation == generation then t
  else
    let t := t.bind_root root generation {} true
    { t with
      observed_arguments := true
      observed_word_keys := []
      layout := { t.layout with valid := t.observed && root != 0 && generation != 0 } }

/-- The layout that `parameter` tests: an observed argument that is the first of its parameter
gives it a kind. -/
def parameter_layout (t : PfdGraphicsState) (index : Nat) (kind : PfdRootKind) : PfdRootLayout :=
  if t.observed_arguments && t.layout.valid && decide (index < 64) &&
      (t.layout.parameters index).count == 0 then
    { valid := t.layout.valid
      count := max t.layout.count (index + 1)
      parameters := update t.layout.parameters index ⟨kind, 1⟩ }
  else t.layout

/-- `parameter`: the state after it, and whether it returned true. -/
def parameter (t : PfdGraphicsState) (index : Nat) (kind : PfdRootKind) : PfdGraphicsState × Bool :=
  let layout := t.parameter_layout index kind
  let t := { t with layout := layout }
  if !layout.valid || decide (index ≥ layout.count) || (layout.parameters index).kind != kind then
    (t.invalidate "root_parameter_kind_or_index", false)
  else (t, true)

/-- The loop over the observed words, from the word of `key` on. -/
def observe_words (t : PfdGraphicsState) (key : Nat) : List Nat → PfdGraphicsState
  | [] => t
  | word :: rest =>
    let slot := t.observed_word_keys.idxOf key
    if slot = 64 then t.invalidate "observed_root_constant_capacity"
    else
      let t := { t with
        observed_word_keys :=
          if slot = t.observed_word_keys.length then t.observed_word_keys ++ [key]
          else t.observed_word_keys
        constants := update t.constants slot word }
      t.observe_words (key + 1) rest

/-- The words from `slot` on. -/
def copy_words (constants : Nat → Nat) (slot : Nat) : List Nat → Nat → Nat
  | [] => constants
  | word :: rest => copy_words (update constants slot word) (slot + 1) rest

def set_constants (t : PfdGraphicsState) (index first : Nat) (words : List Nat) :
    PfdGraphicsState :=
  let (t, found) := t.parameter index .constants
  if !found then t
  else if t.observed_arguments then
    if words.length = 0 ∨ first ≥ 64 ∨ words.length > 64 - first then
      t.invalidate "observed_root_constant_bounds"
    else t.observe_words (index * 64 + first) words
  else if words.length = 0 ∨ first > (t.layout.parameters index).count ∨
      words.length > (t.layout.parameters index).count - first then
    t.invalidate "root_constant_bounds"
  else
    let value := t.values index
    { t with
      constants := copy_words t.constants (t.constant_offsets index + first) words
      values := update t.values index
        { value with known := value.known ||| (mask words.length <<< first) } }

def set_table (t : PfdGraphicsState) (index address : Nat) : PfdGraphicsState :=
  let (t, found) := t.parameter index .table
  if !found then t
  else
    { t with values := update t.values index ⟨1#64, address⟩
             undefined_tables := update t.undefined_tables index false }

def set_descriptor (t : PfdGraphicsState) (index : Nat) (kind : PfdRootKind) (address : Nat) :
    PfdGraphicsState :=
  if kind = .table ∨ kind = .constants then t.invalidate "root_descriptor_kind"
  else
    let (t, found) := t.parameter index kind
    if !found then t
    else { t with values := update t.values index ⟨1#64, address⟩ }

/-! ## Descriptor heaps and the raster state -/

/-- A parameter of the layout that is a table. -/
def table_at (t : PfdGraphicsState) (n : Nat) : Bool :=
  decide (n < t.layout.count) && (t.layout.parameters n).kind == .table

def descriptor_heaps_changed (t : PfdGraphicsState) : PfdGraphicsState :=
  { t with
    values := fun n => if t.table_at n then { t.values n with known := 0#64 } else t.values n
    undefined_tables := fun n => if t.table_at n then false else t.undefined_tables n }

/-- At most two heaps, not null and not the same. -/
def valid_heaps : List Nat → Bool
  | [] => true
  | [a] => a != 0
  | [a, b] => a != 0 && b != 0 && a != b
  | _ => false

/-- The comparison of two sets with at most two heaps. -/
def equal_heaps : List Nat → List Nat → Bool
  | [], [] => true
  | [a], [b] => a == b
  | [a, b], [c, d] => (a == c && b == d) || (a == d && b == c)
  | _, _ => false

def descriptor_heaps (t : PfdGraphicsState) (heaps : List Nat) : PfdGraphicsState :=
  if !valid_heaps heaps then
    ({ t with heaps_known := false }.descriptor_heaps_changed).invalidate
      "descriptor_heap_arguments_invalid"
  else
    let same := t.heaps_known && equal_heaps t.heaps heaps
    let changed := t.descriptor_heaps_changed
    let t :=
      if same then t
      else if t.native_root_observed then
        { changed with
          undefined_tables := fun n => if t.table_at n then true else changed.undefined_tables n }
      else changed
    { t with heaps_known := true, heaps := heaps }

def set_topology (t : PfdGraphicsState) (value : Nat) : PfdGraphicsState :=
  { t with topology := value }

def finite_viewport (v : Viewport) : Bool :=
  is_finite v.top_left_x && is_finite v.top_left_y && is_finite v.width && is_finite v.height &&
    is_finite v.min_depth && is_finite v.max_depth

/-- `viewports`, with the `first` of 0 that every wrapper passes. -/
def set_viewports (t : PfdGraphicsState) (data : List Viewport) : PfdGraphicsState :=
  if data.length = 0 ∨ data.length > 16 then t.invalidate "viewport_array_bounds"
  else if !data.all finite_viewport then t.invalidate "viewport_nonfinite"
  else { t with viewports := data }

def set_scissors (t : PfdGraphicsState) (data : List Rect) : PfdGraphicsState :=
  if data.length = 0 ∨ data.length > 16 then t.invalidate "scissor_array_bounds"
  else { t with scissors := data }

/-! ## What is complete, and what restores it -/

/-- The loop of `incomplete_reason`, on parameter `n`. -/
def missing_argument (t : PfdGraphicsState) (n : Nat) : Option String :=
  let param := t.layout.parameters n
  if (t.values n).known = mask param.count then none
  else if param.kind = .table ∧ t.undefined_tables n = true then none
  else
    match param.kind with
    | .constants => some "root_constants_incomplete"
    | .table => some "root_table_missing_or_invalidated"
    | .cbv => some "root_cbv_missing"
    | .srv => some "root_srv_missing"
    | .uav => some "root_uav_missing"

def incomplete_reason (t : PfdGraphicsState) : Option String :=
  if t.invalid_reason.isSome then t.invalid_reason
  else if !t.observed then some "native_observations_missing"
  else if t.generation = 0 then some "recording_generation_missing"
  else if t.pipeline = 0 then some "pipeline_missing"
  else if t.root = 0 ∨ t.layout_generation = 0 ∨ t.layout.valid = false then
    some "root_layout_missing"
  else if t.topology = TOPOLOGY_UNDEFINED then some "topology_missing"
  else if t.viewports.length = 0 then some "viewport_missing"
  else if t.scissors.length = 0 then some "scissor_missing"
  else if t.observed_arguments then none
  else (List.range t.layout.count).findSome? t.missing_argument

def complete (t : PfdGraphicsState) : Bool := t.incomplete_reason.isNone

def can_restore (t : PfdGraphicsState) (native : Nat) : Bool :=
  t.complete && (!(t.depth_bias_known || t.strip_cut_known) || t.dynamic_native == native) &&
    (!t.has_sample_positions || t.sample_native == native)

def restore_sample_positions (t : PfdGraphicsState) (list : Nat) : List Call :=
  if !t.has_sample_positions || t.sample_native != list then []
  else [.SetSamplePositions t.sample_count t.sample_pixels (some t.sample_positions)]

def restore_pipeline (t : PfdGraphicsState) : List Call :=
  .SetPipelineState t.pipeline ::
    (if t.depth_bias_known then
      [.RSSetDepthBias t.depth_bias.1 t.depth_bias.2.1 t.depth_bias.2.2] else []) ++
    if t.strip_cut_known then [.IASetIndexBufferStripCutValue t.strip_cut] else []

/-- The words that were set one by one. -/
def restore_words (t : PfdGraphicsState) : List Call :=
  t.observed_word_keys.zipIdx.map fun (key, n) =>
    .SetGraphicsRoot32BitConstant (key / 64) (t.constants n) (key % 64)

/-- The loop of `restore` over the parameters. -/
def restore_parameter (t : PfdGraphicsState) (n : Nat) : List Call :=
  let param := t.layout.parameters n
  let value := t.values n
  if t.observed_arguments ∧ (param.count = 0 ∨ param.kind = .constants ∨ value.known = 0#64) then []
  else
    match param.kind with
    | .constants =>
      [.SetGraphicsRoot32BitConstants n
        ((List.range param.count).map fun i => t.constants (t.constant_offsets n + i)) 0]
    | .table =>
      if value.known ≠ 0#64 then [.SetGraphicsRootDescriptorTable n value.address] else []
    | kind => [.SetGraphicsRootView kind n value.address]

/-- A pointer names the object that is registered under `layout_generation`. -/
def restore_root (t : PfdGraphicsState) : List Call :=
  .SetGraphicsRootSignature (.application t.root t.layout_generation) ::
    (if t.observed_arguments then t.restore_words else []) ++
    (List.range t.layout.count).flatMap t.restore_parameter

def restore_raster (t : PfdGraphicsState) (list : Nat) : List Call :=
  t.restore_sample_positions list ++
    [.IASetPrimitiveTopology t.topology, .RSSetViewports t.viewports, .RSSetScissorRects t.scissors]

def restore (t : PfdGraphicsState) (list : Nat) (group : PfdStateGroup := .all) : List Call :=
  let pipeline := includes_pfd_state_group group .pipeline
  let raster := includes_pfd_state_group group .raster
  if (pipeline && (t.depth_bias_known || t.strip_cut_known) && t.dynamic_native != list) ||
      (raster && t.has_sample_positions && t.sample_native != list) then []
  else
    (if pipeline then t.restore_pipeline else []) ++
      (if includes_pfd_state_group group .root_bindings then t.restore_root else []) ++
      (if raster then t.restore_raster list else [])

/-! ## The reports of the bridge -/

/-- What the wrapper of a call reports, on a list with pointer `list`. `found` is the lookup of
a root signature: one that is not found is reported as null, as is one that no application can
bind. -/
def report (list : Nat) (t : PfdGraphicsState) (c : Call) (found : Bool) : PfdGraphicsState :=
  match c with
  | .SetPipelineState pipeline => t.bind_pipeline pipeline
  | .RSSetDepthBias bias clamp slope => t.set_depth_bias list bias clamp slope
  | .IASetIndexBufferStripCutValue value => t.set_strip_cut list value
  | .SetSamplePositions samples pixels positions =>
    t.set_sample_positions list samples pixels positions
  | .SetGraphicsRootSignature (.application native id) =>
    if found then t.bind_observed_root native id else t.bind_observed_root 0 0
  | .SetGraphicsRootSignature _ => t.bind_observed_root 0 0
  | .SetGraphicsRoot32BitConstant index word offset => t.set_constants index offset [word]
  | .SetGraphicsRoot32BitConstants index words offset => t.set_constants index offset words
  | .SetGraphicsRootDescriptorTable index address => t.set_table index address
  | .SetGraphicsRootView kind index address => t.set_descriptor index kind address
  | .SetDescriptorHeaps heaps => t.descriptor_heaps heaps
  | .IASetPrimitiveTopology topology => t.set_topology topology
  | .RSSetViewports viewports => t.set_viewports viewports
  | .RSSetScissorRects scissors => t.set_scissors scissors
  | .DrawInstanced => t

end PfdGraphicsState

/-! ## The stamp -/

/-- The objects of `PfdStampD3D12`. A `pipeline` of 0 is none; the root signature is
`RootSignature.stamp`. -/
structure PfdStampD3D12 where
  device : Nat
  pipeline : Nat

/-- The arguments of one stamp, with what the list and the panel marks answer. -/
structure StampRequest where
  buffer_device : Nat
  address : Nat
  width : Nat
  height : Nat
  destination : Option Rect := none
  content : Option Rect := none
  draw : Bool := true
  group : PfdStateGroup := .all
  /-- QueryInterface of CommandList9 and CommandList1 returns the list itself. -/
  command_list9 : Bool := true
  command_list1 : Bool := true
  /-- The list is a direct one. -/
  direct : Bool := true
  pieces : Rect → List Rect := fun r => [r]

namespace PfdStampD3D12

/-- The rectangle of the stamp: `destination`, or the upper part of the texture. -/
def target (q : StampRequest) : Rect :=
  q.destination.getD ⟨0, 0, q.width, ((q.height * 763 / 1024 : Nat) : Int)⟩

def valid_target (q : StampRequest) : Bool :=
  let rect := target q
  !(decide (rect.left < 0) || decide (rect.top < 0) || decide (rect.right ≤ rect.left) ||
    decide (rect.bottom ≤ rect.top) || decide (rect.right > q.width) ||
    decide (rect.bottom > q.height))

def valid_content (q : StampRequest) : Bool :=
  let rect := target q
  let inner := q.content.getD rect
  !(decide (inner.left < rect.left) || decide (inner.top < rect.top) ||
    decide (inner.right > rect.right) || decide (inner.bottom > rect.bottom) ||
    decide (inner.right ≤ inner.left) || decide (inner.bottom ≤ inner.top))

/-- The words that the shader reads. -/
def shader_constants (rect inner : Rect) : List Nat :=
  [(rect.right - rect.left).toNat, (rect.bottom - rect.top).toNat, rect.left.toNat, rect.top.toNat,
    (inner.left - rect.left).toNat, (inner.top - rect.top).toNat,
    (rect.right - inner.right).toNat, (rect.bottom - inner.bottom).toNat]

def stamp_viewport (rect : Rect) : Viewport :=
  ⟨float_of rect.left.toNat, float_of rect.top.toNat, float_of (rect.right - rect.left).toNat,
    float_of (rect.bottom - rect.top).toNat, float_of 0, float_of 1⟩

/-- The draws of a stamp: one, or one for each piece around the marks. -/
def draws (q : StampRequest) (keep_marks : Bool) : List Call :=
  let split := if keep_marks then q.pieces (target q) else []
  if !q.draw then []
  else if split.length ≤ 1 then [.DrawInstanced]
  else split.flatMap fun piece => [.RSSetScissorRects [piece], .DrawInstanced]

/-- The calls of `record_patch`: `none` when it returns false. -/
def record_patch (p : PfdStampD3D12) (list : Nat) (q : StampRequest) (keep_marks : Bool) :
    Option (List Call) :=
  if (q.draw && q.group != .all) || list == 0 || p.pipeline == 0 || q.address == 0 ||
      q.address % 4 != 0 || q.buffer_device != p.device || decide (q.width < 1) ||
      decide (q.height < 2) || decide (q.width > 16384) || decide (q.height > 16384) ||
      !q.direct || q.height * 763 / 1024 == 0 || !valid_target q || !valid_content q then none
  else
    let rect := target q
    let inner := q.content.getD rect
    some <|
      (if includes_pfd_state_group q.group .pipeline then [.SetPipelineState p.pipeline] else []) ++
      (if includes_pfd_state_group q.group .root_bindings then
        [.SetGraphicsRootSignature .stamp, .SetGraphicsRootView .srv 0 q.address,
          .SetGraphicsRoot32BitConstants 1 (shader_constants rect inner) 0] else []) ++
      (if includes_pfd_state_group q.group .raster then
        [.IASetPrimitiveTopology TOPOLOGY_TRIANGLELIST, .RSSetViewports [stamp_viewport rect],
          .RSSetScissorRects [rect]] else []) ++
      draws q keep_marks

/-- `record_buffer`: whether it returned true, and its calls on the list. -/
def record_buffer (p : PfdStampD3D12) (list : Nat) (state : PfdGraphicsState) (q : StampRequest) :
    Bool × List Call :=
  let dynamic := includes_pfd_state_group q.group .pipeline &&
    (state.depth_bias_known || state.strip_cut_known)
  let samples := includes_pfd_state_group q.group .raster && state.has_sample_positions
  if list == 0 || (q.draw && q.group != .all) || !state.can_restore list then (false, [])
  else if dynamic && !q.command_list9 then (false, [])
  else if samples && !q.command_list1 then (false, [])
  else
    let normalize := if samples then [Call.SetSamplePositions 0 0 none] else []
    match p.record_patch list q true with
    | some patch => (true, normalize ++ patch ++ state.restore list q.group)
    | none =>
      (false, normalize ++ if samples then state.restore_sample_positions list else [])

end PfdStampD3D12

end taxi_camera
