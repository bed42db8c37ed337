-- The graphics bindings of a command list, and the calls that set them: the
-- rules of D3D12 that the stamp relies on. Setting a pipeline resets its
-- overrides; setting the bound root signature keeps its arguments, and another
-- one makes them all undefined; a changed set of heaps makes tables undefined.
import TaxiCam.Runs
import TaxiCam.Writes

namespace taxi_camera

/-- The bits of a `FLOAT`. -/
abbrev Float32 := BitVec 32

/-- `std::isfinite`. -/
def is_finite (f : Float32) : Bool := (f >>> 23) &&& 0xff#32 != 0xff#32

/-- `static_cast<float>` of an integer below 2^24, which is exact. -/
def float_of (n : Nat) : Float32 :=
  if n = 0 then 0#32
  else BitVec.ofNat 32 (((n.log2 + 127) <<< 23) ||| ((n <<< (23 - n.log2)) &&& 0x7fffff))

structure Viewport where
  top_left_x : Float32
  top_left_y : Float32
  width : Float32
  height : Float32
  min_depth : Float32
  max_depth : Float32
deriving DecidableEq

/-- `D3D12_RECT`. -/
structure Rect where
  left : Int
  top : Int
  right : Int
  bottom : Int
deriving DecidableEq

/-- `D3D12_SAMPLE_POSITION`. -/
structure SamplePosition where
  x : Int
  y : Int
deriving DecidableEq

inductive PfdRootKind | constants | table | cbv | srv | uav
deriving DecidableEq

/-- The root signature that is bound. An application's has a native pointer and the id of its
registration; the stamp's own is known to no application. -/
inductive RootSignature
  | none
  | application (native id : Nat)
  | stamp
deriving DecidableEq

/-- An argument of a root signature: a word of constants, a table, or a view. -/
inductive Argument
  | word (index offset : Nat)
  | table (index : Nat)
  | view (kind : PfdRootKind) (index : Nat)
deriving DecidableEq

def Argument.is_table : Argument → Bool
  | .table _ => true
  | _ => false

/-- `D3D_PRIMITIVE_TOPOLOGY_UNDEFINED`. -/
def TOPOLOGY_UNDEFINED : Nat := 0

/-- `D3D_PRIMITIVE_TOPOLOGY_TRIANGLELIST`. -/
def TOPOLOGY_TRIANGLELIST : Nat := 4

/-- The bindings of a list after Reset. An argument that is `none` is undefined, and an
override that is `none` is the default of the pipeline. -/
structure NativeList where
  pipeline : Nat := 0
  depth_bias : Option (Float32 × Float32 × Float32) := none
  strip_cut : Option Nat := none
  sample_positions : Option (Nat × Nat × List SamplePosition) := none
  root : RootSignature := .none
  arguments : Argument → Option Nat := fun _ => none
  heaps : List Nat := []
  topology : Nat := TOPOLOGY_UNDEFINED
  viewports : List Viewport := []
  scissors : List Rect := []

/-! ## The calls -/

/-- The calls that set a graphics binding, and the draw of the stamp. `positions` is `none` for
a null pointer, and a pipeline or heap that is 0 is null. -/
inductive Call
  | SetPipelineState (pipeline : Nat)
  | RSSetDepthBias (bias clamp slope : Float32)
  | IASetIndexBufferStripCutValue (value : Nat)
  | SetSamplePositions (samples pixels : Nat) (positions : Option (List SamplePosition))
  | SetGraphicsRootSignature (root : RootSignature)
  | SetGraphicsRoot32BitConstant (index word offset : Nat)
  | SetGraphicsRoot32BitConstants (index : Nat) (words : List Nat) (offset : Nat)
  | SetGraphicsRootDescriptorTable (index address : Nat)
  | SetGraphicsRootView (kind : PfdRootKind) (index address : Nat)
  | SetDescriptorHeaps (heaps : List Nat)
  | IASetPrimitiveTopology (topology : Nat)
  | RSSetViewports (viewports : List Viewport)
  | RSSetScissorRects (scissors : List Rect)
  | DrawInstanced

/-- Two sets of heaps in any order. -/
def same_heaps (a b : List Nat) : Bool := a.all (b.contains ·) && b.all (a.contains ·)

/-- The arguments that `words` writes from an offset on. -/
def word_writes (index : Nat) : Nat → List Nat → List (Argument × Nat)
  | _, [] => []
  | offset, word :: rest => (.word index offset, word) :: word_writes index (offset + 1) rest

def without_tables (arguments : Argument → Option Nat) : Argument → Option Nat :=
  fun a => if a.is_table then none else arguments a

namespace NativeList

def write (n : NativeList) (l : List (Argument × Nat)) : NativeList :=
  { n with arguments := writes.write_all n.arguments l }

/-- One call, by the rules of D3D12. -/
def call (n : NativeList) : Call → NativeList
  | .SetPipelineState pipeline =>
    { n with pipeline := pipeline, depth_bias := none, strip_cut := none }
  | .RSSetDepthBias bias clamp slope => { n with depth_bias := some (bias, clamp, slope) }
  | .IASetIndexBufferStripCutValue value => { n with strip_cut := some value }
  | .SetSamplePositions samples pixels positions =>
    match positions with
    | some positions =>
      { n with sample_positions := some (samples, pixels, positions.take (samples * pixels)) }
    | none => { n with sample_positions := none }
  | .SetGraphicsRootSignature root =>
    if n.root = root then n else { n with root := root, arguments := fun _ => none }
  | .SetGraphicsRoot32BitConstant index word offset => n.write [(.word index offset, word)]
  | .SetGraphicsRoot32BitConstants index words offset => n.write (word_writes index offset words)
  | .SetGraphicsRootDescriptorTable index address => n.write [(.table index, address)]
  | .SetGraphicsRootView kind index address => n.write [(.view kind index, address)]
  | .SetDescriptorHeaps heaps =>
    if same_heaps n.heaps heaps then { n with heaps := heaps }
    else { n with heaps := heaps, arguments := without_tables n.arguments }
  | .IASetPrimitiveTopology topology => { n with topology := topology }
  | .RSSetViewports viewports => { n with viewports := viewports }
  | .RSSetScissorRects scissors => { n with scissors := scissors }
  | .DrawInstanced => n

end NativeList

end taxi_camera
