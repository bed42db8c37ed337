-- The evidence that a recording thread gives about the camera sources, and
-- what it does to the list that it is about: the draw, barrier and report
-- parts of src/graphics/scene_capture_manager.cpp.
import TaxiCam.SourceState

namespace taxi_camera.SceneCaptureManager

open source_state

/-! ## What the manager knows of resources and devices -/

structure SourceCandidate where
  device_key : Nat
  generation : Nat
deriving DecidableEq

/-- `observed_feed` is the answer of the handoff for a handle, and `session_generation` the one of
the device with a key. -/
structure Sources where
  candidates : Nat → Option SourceCandidate := fun _ => none
  observed_feed : Nat → Int := fun _ => -1
  session_generation : Nat → Option Nat := fun _ => none

namespace Sources

def source_candidate (sources : Sources) (resource : Nat) : Option SourceCandidate :=
  if resource = 0 then none else sources.candidates resource

end Sources

/-! ## A command list -/

/-- The fields of `List` that source evidence reads and writes. -/
structure CommandList where
  device_key : Nat
  object_generation : Nat
  session_generation : Nat := 0
  source_effects : Recording := {}
  source_touched : Bool := false
  awaiting_native_reset : Bool := false
deriving DecidableEq

namespace CommandList

def touch_sources (item : CommandList) : CommandList := { item with source_touched := true }

def append (item : CommandList) (effect : Effect) : CommandList :=
  { item with source_effects := (item.source_effects.append effect).1 }

def invalidate (item : CommandList) : CommandList :=
  { item with source_effects := item.source_effects.invalidate }

/-- A source of the device of the list. -/
def own_candidate (item : CommandList) (sources : Sources) (resource : Nat) :
    Option SourceCandidate :=
  (sources.source_candidate resource).filter (·.device_key == item.device_key)

/-! ## Draws -/

/-- `leased` is the answer of `retain_source_lease`, where the draw needs a lease. -/
def apply_source_draw (item : CommandList) (sources : Sources) (key : source_state.Key)
    (allowed leased : Bool) : CommandList :=
  if sources.session_generation item.device_key ≠ some item.session_generation then item
  else
    match item.own_candidate sources key.handle with
    | none => item
    | some source =>
      if source.generation ≠ key.generation then item
      else if !allowed then item.touch_sources.invalidate
      else
        let drawn := item.touch_sources.append { key, kind := .draw }
        if leased then drawn else drawn.invalidate

/-! ## Barriers -/

def RESOURCE_STATE_RENDER_TARGET : Nat := 4
def BARRIER_FLAG_NONE : Nat := 0
def BARRIER_ALL_SUBRESOURCES : Nat := 0xffffffff

/-- The barriers that `observe_source_legacy` takes. A null resource is 0. -/
inductive LegacyBarrier
  | aliasing (before after : Nat)
  | transition (resource state_after flags subresource : Nat)
deriving DecidableEq

/-- One turn of the loop over the resources of an aliasing barrier. -/
def alias_resource (sources : Sources) (item : CommandList) (aliased : Nat) : CommandList :=
  match item.own_candidate sources aliased with
  | some candidate =>
    item.touch_sources.append { key := ⟨aliased, candidate.generation⟩, kind := .other }
  | none => item

def apply_legacy_barrier (item : CommandList) (sources : Sources) : LegacyBarrier → CommandList
  | .aliasing before after =>
    if before = 0 ∨ after = 0 then item.touch_sources.invalidate
    else [before, after].foldl (alias_resource sources) item
  | .transition resource state_after flags subresource =>
    match item.own_candidate sources resource with
    | none => item
    | some source =>
      let key : source_state.Key := ⟨resource, source.generation⟩
      if flags ≠ BARRIER_FLAG_NONE ∨ (subresource ≠ 0 ∧ subresource ≠ BARRIER_ALL_SUBRESOURCES) then
        item.touch_sources.append { key, kind := .other }
      else if state_after = RESOURCE_STATE_RENDER_TARGET then
        item.touch_sources.append { key, kind := .legacy_rt }
      else item.touch_sources.append { key, kind := .other }

def BARRIER_SYNC_SPLIT : BitVec 32 := 0x80000000#32
def BARRIER_LAYOUT_RENDER_TARGET : Nat := 2
def BARRIER_ACCESS_RENDER_TARGET : Nat := 4

structure SubresourceRange where
  IndexOrFirstMipLevel : Nat := 0
  NumMipLevels : Nat := 0
  FirstArraySlice : Nat := 0
  NumArraySlices : Nat := 0
  FirstPlane : Nat := 0
  NumPlanes : Nat := 0
deriving DecidableEq

/-- The only mip level of a source. -/
def SubresourceRange.whole (range : SubresourceRange) : Bool :=
  if range.NumMipLevels = 0 then
    range.IndexOrFirstMipLevel == 0 || range.IndexOrFirstMipLevel == BARRIER_ALL_SUBRESOURCES
  else range == { NumMipLevels := 1, NumArraySlices := 1, NumPlanes := 1 }

structure TextureBarrier where
  resource : Nat
  subresources : SubresourceRange := {}
  flags : Nat := 0
  sync_before : BitVec 32 := 0
  sync_after : BitVec 32 := 0
  layout_after : Nat
  access_after : Nat
deriving DecidableEq

def TextureBarrier.split (barrier : TextureBarrier) : Bool :=
  barrier.sync_before &&& BARRIER_SYNC_SPLIT != 0 || barrier.sync_after &&& BARRIER_SYNC_SPLIT != 0

def apply_enhanced_barrier (item : CommandList) (sources : Sources) (barrier : TextureBarrier) :
    CommandList :=
  match item.own_candidate sources barrier.resource with
  | none => item
  | some source =>
    let key : source_state.Key := ⟨barrier.resource, source.generation⟩
    if !barrier.subresources.whole || barrier.flags != BARRIER_FLAG_NONE || barrier.split then
      item.touch_sources.append { key, kind := .other }
    else if barrier.layout_after = BARRIER_LAYOUT_RENDER_TARGET ∧
        barrier.access_after = BARRIER_ACCESS_RENDER_TARGET then
      item.touch_sources.append { key, kind := .enhanced_rt }
    else item.touch_sources.append { key, kind := .other }

/-! ## Reports -/

abbrev InvalidationFlags := BitVec 32

def InvalidationPassBegin : InvalidationFlags := 1
def InvalidationPassState : InvalidationFlags := 2
def InvalidationSplitBarrier : InvalidationFlags := 8
def InvalidationAliasOrDiscard : InvalidationFlags := 16
def InvalidationUnobservedWork : InvalidationFlags := 32

def limited_reasons : InvalidationFlags :=
  InvalidationPassBegin ||| InvalidationPassState ||| InvalidationSplitBarrier |||
    InvalidationAliasOrDiscard ||| InvalidationUnobservedWork

def limited (reasons : InvalidationFlags) : Bool :=
  reasons &&& (InvalidationPassBegin ||| InvalidationPassState ||| InvalidationUnobservedWork) != 0 &&
    reasons &&& ~~~limited_reasons == 0

/-- The keys of the recording that are observed feeds, each once, in the order of their first
effects. -/
def published (sources : Sources) (recording : Recording) : List source_state.Key :=
  recording.effects.foldl (fun found effect =>
    if sources.observed_feed effect.key.handle < 0 ∨ effect.key ∈ found then found
    else found ++ [effect.key]) []

/-- The report of a pass, on a list that named these sources. -/
def leave_pass (item : CommandList) (keys : List source_state.Key) : CommandList :=
  if keys = [] ∨ item.source_effects.invalid = true then item
  else (keys.foldl (fun item key => item.append { key, kind := .pass_other }) item).touch_sources

def apply_recording_report (item : CommandList) (sources : Sources) (global : Bool)
    (reasons : InvalidationFlags) : CommandList :=
  if limited reasons && decide (item.source_effects.effects.length ≤ Recording.capacity) then
    item.leave_pass (published sources item.source_effects)
  else if global then item.invalidate.touch_sources
  else item.invalidate

/-- One turn of the loop over the targets of a pass, each a resource with a generation. -/
def name_target (sources : Sources) (item : CommandList) (target : Nat × Nat) : CommandList :=
  match item.own_candidate sources target.1 with
  | some candidate =>
    if candidate.generation ≠ target.2 then item
    else item.touch_sources.append { key := ⟨target.1, candidate.generation⟩, kind := .other }
  | none => item

/-- `none` is `TruncatedTargets`. -/
def apply_target_report (item : CommandList) (sources : Sources) :
    Option (List (Nat × Nat)) → CommandList
  | none => item.touch_sources.invalidate
  | some targets => targets.foldl (name_target sources) item

end CommandList

/-! ## Evidence, and the calls that end a recording -/

inductive Evidence
  | draw (key : source_state.Key) (allowed leased : Bool)
  | legacy_barrier (barrier : CommandList.LegacyBarrier)
  | enhanced_barrier (barrier : CommandList.TextureBarrier)
  | recording_report (global : Bool) (reasons : CommandList.InvalidationFlags)
  | target_report (targets : Option (List (Nat × Nat)))
deriving DecidableEq

/-- `DeferredWork::Kind`, with draws, which are never deferred. -/
inductive Kind
  | reset
  | destroy
  | evidence (evidence : Evidence)
deriving DecidableEq

structure DeferredWork where
  kind : Kind
  native : Nat
  generation : Nat
deriving DecidableEq

namespace CommandList

def apply_evidence (item : CommandList) (sources : Sources) : Evidence → CommandList
  | .draw key allowed leased => item.apply_source_draw sources key allowed leased
  | .legacy_barrier barrier => item.apply_legacy_barrier sources barrier
  | .enhanced_barrier barrier => item.apply_enhanced_barrier sources barrier
  | .recording_report global reasons => item.apply_recording_report sources global reasons
  | .target_report targets => item.apply_target_report sources targets

/-- `retire_native_list`, of a list that is Reset. -/
def retire (item : CommandList) (sources : Sources) : CommandList :=
  { item with
    source_effects := {}
    source_touched := false
    session_generation :=
      (sources.session_generation item.device_key).getD item.session_generation
    awaiting_native_reset := false }

/-- The switch of `apply_deferred_work`. A list that is destroyed is gone. -/
def apply_work (item : CommandList) (sources : Sources) : Kind → Option CommandList
  | .reset => some (item.retire sources)
  | .destroy => none
  | .evidence evidence => some (item.apply_evidence sources evidence)

end CommandList

/-- What a call does to the list at the address that it names. A call about another object than
the one that is there does nothing. -/
def take (sources : Sources) (work : DeferredWork) : Option CommandList → Option CommandList
  | some item =>
    if item.object_generation = work.generation then item.apply_work sources work.kind
    else some item
  | none => none

/-! ## What evidence leaves alone -/

namespace CommandList

/-- The lists differ in what they say about sources, and in nothing else. -/
def SameObject (item later : CommandList) : Prop :=
  ∃ effects touched, later = { item with source_effects := effects, source_touched := touched }

variable {item : CommandList} {sources : Sources}

theorem SameObject.refl : SameObject item item := ⟨_, _, rfl⟩

theorem SameObject.trans {a b c : CommandList} (hab : SameObject a b) (hbc : SameObject b c) :
    SameObject a c := by
  obtain ⟨e, t, rfl⟩ := hab
  obtain ⟨e', t', rfl⟩ := hbc
  exact ⟨e', t', rfl⟩

variable {later : CommandList}

theorem SameObject.object_generation (h : SameObject item later) :
    later.object_generation = item.object_generation := by
  obtain ⟨effects, touched, rfl⟩ := h
  rfl

theorem sameObject_touch : SameObject item item.touch_sources := ⟨_, _, rfl⟩

theorem sameObject_invalidate : SameObject item item.invalidate := ⟨_, _, rfl⟩

theorem sameObject_append (effect : Effect) : SameObject item (item.append effect) := ⟨_, _, rfl⟩

theorem sameObject_note (effect : Effect) : SameObject item (item.touch_sources.append effect) := ⟨_, _, rfl⟩

theorem sameObject_foldl {β : Type} {f : CommandList → β → CommandList}
    (h : ∀ item x, SameObject item (f item x)) (l : List β) : SameObject item (l.foldl f item) := by
  induction l generalizing item with
  | nil => exact .refl
  | cons x rest ih => exact (h item x).trans ih

theorem sameObject_draw (key : source_state.Key) (allowed leased : Bool) :
    SameObject item (item.apply_source_draw sources key allowed leased) := by
  unfold apply_source_draw
  split
  · exact .refl
  split
  · exact .refl
  split
  · exact .refl
  split
  · exact ⟨_, _, rfl⟩
  split <;> exact ⟨_, _, rfl⟩

theorem sameObject_legacy_barrier (barrier : LegacyBarrier) :
    SameObject item (item.apply_legacy_barrier sources barrier) := by
  cases barrier with
  | aliasing before after =>
    unfold apply_legacy_barrier
    dsimp only
    split
    · exact ⟨_, _, rfl⟩
    apply sameObject_foldl
    intro item aliased
    unfold alias_resource
    split
    · exact sameObject_note _
    · exact .refl
  | transition resource state_after flags subresource =>
    unfold apply_legacy_barrier
    dsimp only
    split
    · exact .refl
    split
    · exact sameObject_note _
    · split <;> exact sameObject_note _

theorem sameObject_enhanced_barrier (barrier : TextureBarrier) :
    SameObject item (item.apply_enhanced_barrier sources barrier) := by
  unfold apply_enhanced_barrier
  split
  · exact .refl
  split
  · exact sameObject_note _
  · split <;> exact sameObject_note _

theorem sameObject_recording_report (global : Bool) (reasons : InvalidationFlags) :
    SameObject item (item.apply_recording_report sources global reasons) := by
  unfold apply_recording_report
  split
  · unfold leave_pass
    split
    · exact .refl
    · exact (sameObject_foldl (fun item key => sameObject_append _) _).trans sameObject_touch
  split
  · exact sameObject_invalidate.trans sameObject_touch
  · exact sameObject_invalidate

theorem sameObject_target_report (targets : Option (List (Nat × Nat))) :
    SameObject item (item.apply_target_report sources targets) := by
  cases targets with
  | none => exact ⟨_, _, rfl⟩
  | some targets =>
    apply sameObject_foldl
    intro item target
    unfold name_target
    split
    · split
      · exact .refl
      · exact sameObject_note _
    · exact .refl

/-- Evidence changes the effects of a list and its touch, and nothing else. -/
theorem sameObject_evidence (e : Evidence) : SameObject item (item.apply_evidence sources e) := by
  cases e with
  | draw key allowed leased => exact sameObject_draw key allowed leased
  | legacy_barrier barrier => exact sameObject_legacy_barrier barrier
  | enhanced_barrier barrier => exact sameObject_enhanced_barrier barrier
  | recording_report global reasons => exact sameObject_recording_report global reasons
  | target_report targets => exact sameObject_target_report targets

@[simp] theorem object_generation_evidence (e : Evidence) :
    (item.apply_evidence sources e).object_generation = item.object_generation := by
  have h : SameObject item (item.apply_evidence sources e) := sameObject_evidence e
  exact h.object_generation

/-- A Reset forgets what the list said about sources. -/
theorem SameObject.retire (h : SameObject item later) (sources : Sources) :
    later.retire sources = item.retire sources := by
  obtain ⟨effects, touched, rfl⟩ := h
  rfl

/-- A list that stays is the object that it was. -/
theorem object_generation_work {kind : Kind} (h : item.apply_work sources kind = some later) :
    later.object_generation = item.object_generation := by
  cases kind with
  | reset =>
    rw [← Option.some.inj h]
    rfl
  | destroy => cases h
  | evidence e => rw [← Option.some.inj h, object_generation_evidence]

end CommandList

/-! ## Calls on one address -/

section
variable {sources : Sources} {work : DeferredWork} {item : CommandList} {list : Option CommandList}

@[simp] theorem take_none : take sources work none = none := rfl

theorem take_of_ne (h : item.object_generation ≠ work.generation) :
    take sources work (some item) = some item := if_neg h

theorem take_of_eq (h : item.object_generation = work.generation) :
    take sources work (some item) = item.apply_work sources work.kind := if_pos h

theorem object_generation_take {later : CommandList} (h : take sources work (some item) = some later) :
    later.object_generation = item.object_generation := by
  by_cases hg : item.object_generation = work.generation
  · rw [take_of_eq hg] at h
    exact CommandList.object_generation_work h
  rw [take_of_ne hg, Option.some.injEq] at h
  rw [← h]

/-- Calls about two objects at one address commute. -/
theorem take_comm {other : DeferredWork} {later : Sources} (h : work.generation ≠ other.generation) :
    take later other (take sources work list) = take sources work (take later other list) := by
  cases list with
  | none => rfl
  | some item =>
    by_cases hg : item.object_generation = work.generation
    · have hother : item.object_generation ≠ other.generation := fun he => h (hg.symm.trans he)
      rw [take_of_ne hother]
      cases htaken : take sources work (some item) with
      | none => rfl
      | some taken =>
        apply take_of_ne
        rw [object_generation_take htaken]
        exact hother
    rw [take_of_ne hg]
    cases htaken : take later other (some item) with
    | none => rfl
    | some taken =>
      symm
      apply take_of_ne
      rw [object_generation_take htaken]
      exact hg

end

end taxi_camera.SceneCaptureManager
