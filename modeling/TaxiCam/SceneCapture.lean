-- A capture packet on the GPU side: one texture, one producer fence and the
-- states that a capture goes through until its readers are done.
-- `SceneCaptureD3D12` of src/graphics/scene_capture_d3d12.cpp.
import Mathlib.Data.List.Basic

namespace taxi_camera

namespace SceneCaptureD3D12

/-! ## Textures -/

inductive Dimension
  | texture2d | other
deriving DecidableEq

/-- `D3D12_RESOURCE_DESC`; `unknown_layout` is the layout that a packet can have. -/
structure Description where
  dimension : Dimension := .texture2d
  width : Nat := 0
  height : Nat := 0
  depth_or_array_size : Nat := 1
  mip_levels : Nat := 1
  format : Nat := 0
  sample_count : Nat := 1
  sample_quality : Nat := 0
  unknown_layout : Bool := true
  allow_render_target : Bool := false
  allow_depth_stencil : Bool := false
  allow_simultaneous_access : Bool := false
deriving DecidableEq

/-- `DXGI_FORMAT_R8G8B8A8_*`, `DXGI_FORMAT_B8G8R8A8_*` and `DXGI_FORMAT_R11G11B10_FLOAT` have four
bytes, `DXGI_FORMAT_R16G16B16A16_FLOAT` has eight. -/
def pixel_bytes (format : Nat) : Nat :=
  if [28, 29, 27, 87, 91, 90, 26].contains format then 4 else if format = 10 then 8 else 0

def MaximumBytes : Nat := 128 * 1024 * 1024

/-- `D3D12_DEFAULT_RESOURCE_PLACEMENT_ALIGNMENT`. -/
def placement_alignment : Nat := 65536

def valid_description (desc : Description) : Bool :=
  let bytes := pixel_bytes desc.format
  bytes != 0 && desc.dimension == .texture2d && decide (1 ≤ desc.width) &&
    decide (desc.width ≤ 8192) && decide (1 ≤ desc.height) && decide (desc.height ≤ 8192) &&
    desc.depth_or_array_size == 1 && desc.mip_levels == 1 && desc.sample_count == 1 &&
    desc.sample_quality == 0 && desc.unknown_layout && !desc.allow_depth_stencil &&
    decide (desc.width * desc.height * bytes + placement_alignment ≤ MaximumBytes)

def compatible (first second : Description) : Bool :=
  valid_description first && first.width == second.width && first.height == second.height &&
    first.format == second.format

/-! ## The packet -/

inductive State
  | empty | idle | recorded | retiring | ready | consuming | failed
deriving DecidableEq

/-- The last value of a fence: the device was removed. -/
def removed : Nat := 0xffffffffffffffff

/-- What the device and the native objects answer while a packet is worked on. `direct` are the
lists and queues of type DIRECT, `created` is the new texture where there is one, and `completed`
is the value of the fence that the packet waits for. -/
structure Native where
  device_ok : Bool := true
  same_device : Nat → Bool := fun _ => true
  direct : Nat → Bool := fun _ => true
  desc : Nat → Description := fun _ => {}
  allocation : Nat := 0
  created : Option Nat := none
  signalled : Bool := true
  completed : Nat := 0

end SceneCaptureD3D12

open SceneCaptureD3D12

/-- Pointers are numbers, 0 is null. -/
structure SceneCaptureD3D12 where
  state : State := .empty
  device : Nat := 0
  description : Description := {}
  snapshot : Nat := 0
  source : Nat := 0
  recording_list : Nat := 0
  producer_value : Nat := 0
  consumer_fence : Nat := 0
  consumer_value : Nat := 0
  allocation_bytes : Nat := 0
deriving DecidableEq

namespace SceneCaptureD3D12

def release_objects (g : SceneCaptureD3D12) : SceneCaptureD3D12 :=
  { g with snapshot := 0, device := 0, allocation_bytes := 0 }

def initialize_packet (g : SceneCaptureD3D12) (device : Nat) (description : Description)
    (native : Native) : SceneCaptureD3D12 × Bool :=
  if g.state ≠ .empty || device == 0 || !valid_description description || !native.device_ok then
    (g, false)
  else
    let opened := { g with device, description }
    if native.allocation = 0 ∨ MaximumBytes < native.allocation then (opened.release_objects, false)
    else
      match native.created with
      | none => (opened.release_objects, false)
      | some snapshot =>
        ({ opened with snapshot, allocation_bytes := native.allocation, state := .idle }, true)

/-! ### Recording -/

/-- The first recording into an idle packet keeps its source and its list. -/
def keep_source (g : SceneCaptureD3D12) (list source : Nat) : SceneCaptureD3D12 :=
  if g.state = .idle then { g with source, recording_list := list } else g

def record_copy_source (g : SceneCaptureD3D12) (list source : Nat) (allow_overwrite : Bool)
    (native : Native) : SceneCaptureD3D12 × Bool :=
  let overwrite := allow_overwrite && g.state == .recorded
  if (g.state ≠ .idle && !overwrite) || list == 0 || source == 0 || source == g.snapshot ||
      !native.device_ok || !native.same_device list || !native.same_device source then (g, false)
  else if overwrite && (g.source != source || g.recording_list != list) then (g, false)
  else if !native.direct list || !compatible (native.desc source) g.description then (g, false)
  else ({ g.keep_source list source with state := .recorded }, true)

def begin_render_capture (g : SceneCaptureD3D12) (list source : Nat) (proven : Bool)
    (native : Native) : SceneCaptureD3D12 × Bool :=
  if !proven || list == 0 || source == 0 || source == g.snapshot ||
      (g.state ≠ .idle && g.state ≠ .recorded) || !native.device_ok || !native.same_device list ||
      !native.same_device source || !native.direct list then (g, false)
  else if g.state = .recorded && (g.source != source || g.recording_list != list) then (g, false)
  else
    let desc := native.desc source
    if !compatible desc g.description || !desc.allow_render_target || desc.allow_simultaneous_access
    then (g, false)
    else (g.keep_source list source, true)

/-- The capture between two barriers of the list, after the checks of `begin_render_capture`. -/
def record_between_barriers (g : SceneCaptureD3D12) (list source : Nat) (proven : Bool)
    (native : Native) : SceneCaptureD3D12 × Bool :=
  match g.begin_render_capture list source proven native with
  | (begun, true) => ({ begun with state := .recorded }, true)
  | (begun, false) => (begun, false)

def record_render_target_source (g : SceneCaptureD3D12) (list source : Nat)
    (proven_legacy_render_target : Bool) (native : Native) : SceneCaptureD3D12 × Bool :=
  g.record_between_barriers list source proven_legacy_render_target native

def record_render_target_source_enhanced (g : SceneCaptureD3D12) (list source : Nat)
    (proven_enhanced_render_target : Bool) (native : Native) : SceneCaptureD3D12 × Bool :=
  g.record_between_barriers list source proven_enhanced_render_target native

/-! ### From the recording to its readers -/

def discard_unsubmitted_retired (g : SceneCaptureD3D12) : SceneCaptureD3D12 × Bool :=
  if g.state ≠ .recorded || g.source == 0 then (g, false)
  else ({ g with source := 0, recording_list := 0, state := .idle }, true)

def retire_serialized_recording (g : SceneCaptureD3D12) (queue : Nat) (native : Native) :
    SceneCaptureD3D12 × Bool :=
  if g.state ≠ .recorded || queue == 0 || !native.device_ok || !native.same_device queue ||
      !native.direct queue || g.producer_value == removed - 1 then (g, false)
  else
    let signalled := { g with producer_value := g.producer_value + 1 }
    if native.signalled then ({ signalled with state := .retiring }, true)
    else ({ signalled with state := .failed }, false)

def poll_ready (g : SceneCaptureD3D12) (native : Native) : SceneCaptureD3D12 × Bool :=
  if g.state = .ready then (g, native.device_ok)
  else if g.state ≠ .retiring || !native.device_ok then (g, false)
  else if native.completed = removed then ({ g with state := .failed }, false)
  else if native.completed < g.producer_value then (g, false)
  else ({ g with source := 0, recording_list := 0, state := .ready }, true)

def ready_resource (g : SceneCaptureD3D12) (native : Native) : Nat :=
  if g.state = .ready && native.device_ok then g.snapshot else 0

def finish_consumption (g : SceneCaptureD3D12) (fence value : Nat) (native : Native) :
    SceneCaptureD3D12 × Bool :=
  if g.state ≠ .ready || fence == 0 || value == 0 || value == removed ||
      !native.same_device fence || !native.device_ok then (g, false)
  else ({ g with consumer_fence := fence, consumer_value := value, state := .consuming }, true)

def recycle (g : SceneCaptureD3D12) (native : Native) : SceneCaptureD3D12 × Bool :=
  if g.state ≠ .consuming || !native.device_ok then (g, false)
  else if native.completed = removed then ({ g with state := .failed }, false)
  else if native.completed < g.consumer_value then (g, false)
  else ({ g with consumer_fence := 0, consumer_value := 0, state := .idle }, true)

def release_idle (g : SceneCaptureD3D12) : SceneCaptureD3D12 × Bool :=
  if g.state ≠ .idle && g.state ≠ .empty then (g, false)
  else ({ g.release_objects with state := .empty }, true)

/-! ## What a step can do -/

section
variable (g : SceneCaptureD3D12) (native : Native)

theorem initialize_packet_cases (device : Nat) (description : Description) :
    ((g.initialize_packet device description native).2 = false ∧
        (g.initialize_packet device description native).1.state = g.state) ∨
      ((g.initialize_packet device description native).2 = true ∧
        (g.initialize_packet device description native).1.state = .idle) := by
  unfold initialize_packet
  split
  · exact .inl ⟨rfl, rfl⟩
  split
  · exact .inl ⟨rfl, rfl⟩
  cases native.created with
  | none => exact .inl ⟨rfl, rfl⟩
  | some snapshot => exact .inr ⟨rfl, rfl⟩

/-- A recording is refused and changes nothing, or finds the packet idle or recorded. -/
def Records (g : SceneCaptureD3D12) (r : SceneCaptureD3D12 × Bool) : Prop :=
  (r.2 = false ∧ r.1 = g) ∨
    (r.2 = true ∧ (g.state = .idle ∨ g.state = .recorded) ∧ r.1.state = .recorded)

theorem record_copy_source_records (list source : Nat) (allow_overwrite : Bool) :
    g.Records (g.record_copy_source list source allow_overwrite native) := by
  unfold record_copy_source
  dsimp only
  split
  · exact .inl ⟨rfl, rfl⟩
  rename_i hopen
  split
  · exact .inl ⟨rfl, rfl⟩
  split
  · exact .inl ⟨rfl, rfl⟩
  refine .inr ⟨rfl, ?_, rfl⟩
  by_cases hidle : g.state = .idle
  · exact .inl hidle
  refine .inr ?_
  simp only [hidle, ne_eq, not_false_eq_true, decide_true, Bool.true_and, Bool.or_eq_true,
    not_or, Bool.not_eq_true] at hopen
  have hover := hopen.1.1.1.1.1.1
  simp only [Bool.not_eq_eq_eq_not, Bool.and_eq_true, beq_iff_eq, Bool.not_false] at hover
  exact hover.2

theorem begin_render_capture_cases (list source : Nat) (proven : Bool) :
    g.begin_render_capture list source proven native = (g, false) ∨
      (g.begin_render_capture list source proven native = (g.keep_source list source, true) ∧
        (g.state = .idle ∨ g.state = .recorded)) := by
  unfold begin_render_capture
  split
  · exact .inl rfl
  rename_i hopen
  split
  · exact .inl rfl
  dsimp only
  split
  · exact .inl rfl
  refine .inr ⟨rfl, ?_⟩
  simp only [Bool.or_eq_true, not_or, Bool.and_eq_true, not_and, decide_eq_true_eq, not_not] at hopen
  by_cases hidle : g.state = .idle
  · exact .inl hidle
  · exact .inr (hopen.1.1.1.1.2 hidle)

theorem record_between_barriers_records (list source : Nat) (proven : Bool) :
    g.Records (g.record_between_barriers list source proven native) := by
  unfold record_between_barriers
  rcases g.begin_render_capture_cases native list source proven with h | ⟨h, hs⟩
  · rw [h]
    exact .inl ⟨rfl, rfl⟩
  rw [h]
  exact .inr ⟨rfl, hs, rfl⟩

theorem discard_unsubmitted_retired_cases :
    (g.discard_unsubmitted_retired.2 = false ∧ g.discard_unsubmitted_retired.1 = g) ∨
      (g.discard_unsubmitted_retired.2 = true ∧ g.state = .recorded ∧
        g.discard_unsubmitted_retired.1.state = .idle) := by
  unfold discard_unsubmitted_retired
  split
  · exact .inl ⟨rfl, rfl⟩
  rename_i hopen
  refine .inr ⟨rfl, ?_, rfl⟩
  simp only [Bool.or_eq_true, decide_eq_true_eq, not_or, not_not] at hopen
  exact hopen.1

theorem retire_serialized_recording_cases (queue : Nat) :
    ((g.retire_serialized_recording queue native).2 = false ∧
        ((g.retire_serialized_recording queue native).1 = g ∨
          (g.state = .recorded ∧ (g.retire_serialized_recording queue native).1.state = .failed))) ∨
      ((g.retire_serialized_recording queue native).2 = true ∧ g.state = .recorded ∧
        (g.retire_serialized_recording queue native).1.state = .retiring) := by
  unfold retire_serialized_recording
  split
  · exact .inl ⟨rfl, .inl rfl⟩
  rename_i hopen
  have hrecorded : g.state = .recorded := by
    simp only [Bool.or_eq_true, decide_eq_true_eq, not_or, not_not] at hopen
    exact hopen.1.1.1.1.1
  split
  · exact .inr ⟨rfl, hrecorded, rfl⟩
  · exact .inl ⟨rfl, .inr ⟨hrecorded, rfl⟩⟩

/-- A poll answers for a ready packet, fails, or finds the value of the producer's fence reached. -/
theorem poll_ready_cases :
    (g.state = .ready ∧ (g.poll_ready native).1 = g) ∨
      ((g.poll_ready native).2 = false ∧ (g.poll_ready native).1 = g) ∨
      ((g.poll_ready native).2 = false ∧ g.state = .retiring ∧ (g.poll_ready native).1.state = .failed) ∨
      ((g.poll_ready native).2 = true ∧ g.state = .retiring ∧ native.completed ≠ removed ∧
        g.producer_value ≤ native.completed ∧ (g.poll_ready native).1.state = .ready ∧
        (g.poll_ready native).1.producer_value = g.producer_value) := by
  unfold poll_ready
  split
  · rename_i hready
    exact .inl ⟨hready, rfl⟩
  split
  · exact .inr (.inl ⟨rfl, rfl⟩)
  rename_i hopen
  have hretiring : g.state = .retiring := by
    simp only [Bool.or_eq_true, decide_eq_true_eq, not_or, not_not] at hopen
    exact hopen.1
  split
  · exact .inr (.inr (.inl ⟨rfl, hretiring, rfl⟩))
  rename_i hremoved
  split
  · exact .inr (.inl ⟨rfl, rfl⟩)
  rename_i hlt
  exact .inr (.inr (.inr ⟨rfl, hretiring, hremoved, Nat.le_of_not_lt hlt, rfl, rfl⟩))

theorem finish_consumption_cases (fence value : Nat) :
    ((g.finish_consumption fence value native).2 = false ∧ (g.finish_consumption fence value native).1 = g) ∨
      ((g.finish_consumption fence value native).2 = true ∧ g.state = .ready ∧
        (g.finish_consumption fence value native).1.state = .consuming ∧
        (g.finish_consumption fence value native).1.consumer_fence = fence ∧
        (g.finish_consumption fence value native).1.consumer_value = value) := by
  unfold finish_consumption
  split
  · exact .inl ⟨rfl, rfl⟩
  rename_i hopen
  refine .inr ⟨rfl, ?_, rfl, rfl, rfl⟩
  simp only [Bool.or_eq_true, decide_eq_true_eq, not_or, not_not] at hopen
  exact hopen.1.1.1.1.1

theorem recycle_cases :
    ((g.recycle native).2 = false ∧ ((g.recycle native).1 = g ∨
        (g.state = .consuming ∧ (g.recycle native).1.state = .failed))) ∨
      ((g.recycle native).2 = true ∧ g.state = .consuming ∧ native.completed ≠ removed ∧
        g.consumer_value ≤ native.completed ∧ (g.recycle native).1.state = .idle) := by
  unfold recycle
  split
  · exact .inl ⟨rfl, .inl rfl⟩
  rename_i hopen
  have hconsuming : g.state = .consuming := by
    simp only [Bool.or_eq_true, decide_eq_true_eq, not_or, not_not] at hopen
    exact hopen.1
  split
  · exact .inl ⟨rfl, .inr ⟨hconsuming, rfl⟩⟩
  rename_i hremoved
  split
  · exact .inl ⟨rfl, .inl rfl⟩
  rename_i hlt
  exact .inr ⟨rfl, hconsuming, hremoved, Nat.le_of_not_lt hlt, rfl⟩

end

end SceneCaptureD3D12

end taxi_camera
