-- Command lists and batches over the camera sources: what the lists do to the
-- sources when they run, what the manager has noted of it, and the batches
-- that are applied to the tracker or escape it. The batch parts of
-- before_submission, wipe and retire_sources of
-- src/graphics/scene_capture_manager.cpp.
import TaxiCam.SourceEvidence
import TaxiCam.SourceRestoration

namespace taxi_camera.SceneCaptureManager

open source_state

/-! ## What is recorded on a list -/

/-- A change of the state of a source or a draw to it, with whether the source is in a
render-target state behind it, or a report that the recording cannot be followed. Behind a global
report each source may be in any state. -/
inductive StreamEvent
  | effect (effect : Effect) (target : Bool)
  | report (global : Bool) (targets : Key → Bool)

namespace StreamEvent

/-- The sources that are in a render-target state after the event. -/
def execute (targets : Key → Bool) : StreamEvent → Key → Bool
  | .effect e target =>
    match e.kind with
    | .legacy_rt | .enhanced_rt => Function.update targets e.key true
    | .other | .pass_other => Function.update targets e.key target
    | .draw => targets
  | .report global after => if global then after else targets

variable {target : Bool} {e : Effect} {targets : Key → Bool}

/-- An effect leaves the other sources alone. -/
theorem execute_of_ne {key : Key} (h : key ≠ e.key) : execute targets (.effect e target) key = targets key := by
  unfold execute
  dsimp only
  cases e.kind with
  | legacy_rt | enhanced_rt | other | pass_other => exact Function.update_of_ne h _ _
  | draw => rfl

theorem execute_draw (h : e.kind = .draw) : execute targets (.effect e target) = targets := by
  unfold execute
  dsimp only
  rw [h]

/-- A draw to a source needs a render-target state. -/
def Allowed (targets : Key → Bool) : StreamEvent → Prop
  | .effect e _ => e.kind = .draw → targets e.key = true
  | .report _ _ => True

end StreamEvent

/-- What the manager notes of an event. A draw on a list of another session is not noted. -/
def CommandList.note (item : CommandList) (session_generation : Nat) : StreamEvent → CommandList
  | .effect e _ =>
    if e.kind = .draw ∧ item.session_generation ≠ session_generation then item
    else item.touch_sources.append e
  | .report global _ => if global then item.invalidate.touch_sources else item.invalidate

/-- A native list: what is recorded on it since its last Reset, and its entry in the manager. -/
structure NativeStream where
  events : List StreamEvent := []
  item : Option CommandList := none

/-! ## The sources of a device -/

/-- `targets` are the sources that are in a render-target state, as the batches forwarded so far
leave them, and `batch_end` those at the end of the last ordered batch. -/
structure TailedSources where
  sources : TrackedSources := {}
  session_generation : Nat := 1
  lists : Nat → NativeStream := fun _ => {}
  targets : Key → Bool := fun _ => false
  batch_end : Key → Bool := fun _ => false

namespace TailedSources

/-! ## Recordings -/

def set_list (s : TailedSources) (native : Nat) (list : NativeStream) : TailedSources :=
  { s with lists := Function.update s.lists native list }

def record (s : TailedSources) (native : Nat) (event : StreamEvent) : TailedSources :=
  let list := s.lists native
  let noted := list.item.map fun item => item.note s.session_generation event
  s.set_list native { events := list.events ++ [event], item := noted }

/-- A list is observed when it is registered before anything is recorded on it. -/
def register_list (s : TailedSources) (native device_key generation : Nat) (observed : Bool) :
    TailedSources :=
  let list := s.lists native
  if observed && !list.events.isEmpty then s
  else
    let item : CommandList :=
      { device_key, object_generation := generation, session_generation := s.session_generation
        awaiting_native_reset := !observed }
    s.set_list native { list with item := some item }

def session (s : TailedSources) : Sources where
  session_generation := fun _ => some s.session_generation

def reset (s : TailedSources) (native : Nat) : TailedSources :=
  let item := (s.lists native).item.map fun item => item.retire s.session
  s.set_list native { events := [], item }

def destroy (s : TailedSources) (native : Nat) : TailedSources := s.set_list native {}

/-! ## Batches -/

/-- The list keeps the batch from being applied. -/
def unknown_list (s : TailedSources) (native : Nat) : Bool :=
  match (s.lists native).item with
  | none => true
  | some item =>
    item.awaiting_native_reset ||
      (item.source_touched && item.session_generation != s.session_generation)

/-- One turn of the loop over the lists of a batch. `overflow` says that a lease of the list does
not fit. -/
def apply_list (s : TailedSources) (sources : TrackedSources) (list : Nat × Bool) :
    TrackedSources :=
  match (s.lists list.1).item with
  | none => sources
  | some item =>
    if !item.source_touched then sources
    else
      let applied := sources.step (.apply item.source_effects)
      if list.2 then applied.step .invalidate_all else applied

/-- What the lists of a batch do, in order. -/
def batch_events (s : TailedSources) (natives : List Nat) : List StreamEvent :=
  natives.flatMap fun native => (s.lists native).events

/-- The states of the sources behind a batch. -/
def executed (s : TailedSources) (natives : List Nat) : Key → Bool :=
  runs.run StreamEvent.execute s.targets (s.batch_events natives)

/-- An ordered batch, each list with whether its leases overflow. -/
def before_submission (s : TailedSources) (lists : List (Nat × Bool)) : TailedSources :=
  let begun := s.sources.step .begin_batch
  let sources :=
    if lists.any fun list => s.unknown_list list.1 then begun.step .invalidate_all
    else lists.foldl s.apply_list begun
  let targets := s.executed (lists.map (·.1))
  { s with sources, targets, batch_end := targets }

/-- A batch that is forwarded without a receipt. -/
def escape_unordered (s : TailedSources) (natives : List Nat) : TailedSources :=
  { s with targets := s.executed natives }

/-! ## What happens between batches -/

def wipe (s : TailedSources) : TailedSources := { s with sources := s.sources.step .invalidate_all }

def rearm_source_states (s : TailedSources) : TailedSources :=
  { s with sources := s.sources.step .rearm_retained_rt }

def retire_sources (s : TailedSources) : TailedSources :=
  { s with sources := (s.sources.step .retire_live_models).step .rearm_retained_rt }

/-- `keys` are the sources that are registered again. -/
def reset_session (s : TailedSources) (keys : List Key) : TailedSources :=
  { s with
    session_generation := s.session_generation + 1
    sources := keys.foldl (fun sources key => sources.step (.register_source key .unknown))
      (s.sources.step .clear) }

inductive Op
  | record (native : Nat) (event : StreamEvent)
  | register_list (native device_key generation : Nat) (observed : Bool)
  | reset (native : Nat)
  | destroy (native : Nat)
  | before_submission (lists : List (Nat × Bool))
  | escape_unordered (natives : List Nat)
  | wipe
  | retire_sources
  | rearm_source_states
  | register_source (key : Key) (initial : Model)
  | unregister_source (key : Key)
  | reset_session (keys : List Key)

def step (s : TailedSources) : Op → TailedSources
  | .record native event => s.record native event
  | .register_list native device_key generation observed =>
    s.register_list native device_key generation observed
  | .reset native => s.reset native
  | .destroy native => s.destroy native
  | .before_submission lists => s.before_submission lists
  | .escape_unordered natives => s.escape_unordered natives
  | .wipe => s.wipe
  | .retire_sources => s.retire_sources
  | .rearm_source_states => s.rearm_source_states
  | .register_source key initial => { s with sources := s.sources.step (.register_source key initial) }
  | .unregister_source key => { s with sources := s.sources.step (.unregister_source key) }
  | .reset_session keys => s.reset_session keys

/-- The lists that are forwarded draw to a source only while it is in a render-target state. -/
def ValidStream (s : TailedSources) : Op → Prop
  | .before_submission lists =>
    runs.Guarded StreamEvent.execute StreamEvent.Allowed s.targets
      (s.batch_events (lists.map (·.1)))
  | .escape_unordered natives =>
    runs.Guarded StreamEvent.execute StreamEvent.Allowed s.targets (s.batch_events natives)
  | _ => True

/-- A source that `record_queue_tail` takes for a render target that was drawn. -/
def tail_candidate (s : TailedSources) (key : Key) : Bool :=
  let state := s.sources.tracker.state key
  state.drawn && render_target_model state.model

end TailedSources

end taxi_camera.SceneCaptureManager
