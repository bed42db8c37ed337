-- The state of the capture sources: what a recording of a command list says
-- about them, and the tracker that applies recordings in the order of their
-- Execute. src/graphics/scene_source_state.hpp and .cpp.
import TaxiCam.Keyed

namespace taxi_camera.source_state

def UINT32_MAX : Nat := 0xffffffff

inductive Model | unknown | legacy_rt | enhanced_rt | other
deriving DecidableEq

def render_target_model (model : Model) : Bool := model == .legacy_rt || model == .enhanced_rt

structure Key where
  handle : Nat := 0
  generation : Nat := 0
deriving DecidableEq

def valid (key : Key) : Bool := key.handle != 0 && key.generation != 0

inductive Effect.Kind | legacy_rt | enhanced_rt | other | pass_other | draw
deriving DecidableEq

structure Effect where
  key : Key := {}
  kind : Effect.Kind := .other
  draws : Nat := 0
deriving DecidableEq

/-! ## The recording of one command list -/

/-- `effects` is the occupied part of the array of the source, so its length is `count`. -/
structure Recording where
  effects : List Effect := []
  invalid : Bool := false
  overflowed : Bool := false
deriving DecidableEq

namespace Recording

def capacity : Nat := 256

def invalidate (r : Recording) : Recording := { r with invalid := true }

/-- The loop of `append`, over the effects from the last one on: a draw is counted on the last
effect of its key, if that is a draw too. -/
def fold_draw (key : Key) : List Effect → Option (List Effect)
  | [] => none
  | earlier :: rest =>
    if earlier.key ≠ key then (fold_draw key rest).map (earlier :: ·)
    else if earlier.kind = .draw then
      some ({ earlier with
        draws := earlier.draws + if earlier.draws = UINT32_MAX then 0 else 1 } :: rest)
    else none

/-- The effect with the draws that `append` gives it. -/
def counted (effect : Effect) : Effect :=
  { effect with draws := if effect.kind = .draw then 1 else 0 }

/-- The effects after an effect that needs no entry of its own. -/
def folded (effects : List Effect) (effect : Effect) : Option (List Effect) :=
  if effect.kind = .draw then (fold_draw effect.key effects.reverse).map List.reverse
  else if effects.getLast? = some (counted effect) then some effects
  else none

def append (r : Recording) (effect : Effect) : Recording × Bool :=
  if r.invalid then (r, false)
  else if decide (r.effects.length > capacity) || !valid effect.key then (r.invalidate, false)
  else
    match folded r.effects effect with
    | some effects => ({ r with effects := effects }, true)
    | none =>
      if r.effects.length = capacity then ({ r with overflowed := true, invalid := true }, false)
      else ({ r with effects := r.effects ++ [counted effect] }, true)

end Recording

/-- The recording that `append` builds of a sequence of effects. -/
def recorded (effects : List Effect) : Recording :=
  effects.foldl (fun r effect => (r.append effect).1) {}

/-! ## The tracker -/

structure State where
  model : Model := .unknown
  drawn : Bool := false
  draws : Nat := 0
deriving DecidableEq

structure Slot where
  key : Key := {}
  state : State := {}
  retained_rt : Model := .unknown
deriving DecidableEq

/-- The slots of the array `sources_`. A slot with handle 0 is free. -/
structure Tracker where
  sources : List Slot := List.replicate 128 {}
deriving DecidableEq

/-- The sum of draws, up to `UINT32_MAX`. -/
def add_draws (before draws : Nat) : Nat :=
  if draws > UINT32_MAX - before then UINT32_MAX else before + draws

/-- The switch of `apply`, on the slot of the effect. -/
def Slot.apply (effect : Effect) (slot : Slot) : Slot :=
  match effect.kind with
  | .legacy_rt => { slot with state := { model := .legacy_rt }, retained_rt := .legacy_rt }
  | .enhanced_rt => { slot with state := { model := .enhanced_rt }, retained_rt := .enhanced_rt }
  | .other => { slot with state := { model := .other }, retained_rt := .unknown }
  | .pass_other => { slot with state := { model := .other } }
  | .draw =>
    let drawn := render_target_model slot.state.model
    let draws := if effect.draws = 0 then 1 else effect.draws
    { slot with state := { slot.state with
        drawn := drawn
        draws := if drawn then add_draws slot.state.draws draws else 0 } }

namespace Tracker

def register_source (t : Tracker) (key : Key) (initial : Model := .unknown) : Tracker × Bool :=
  let retained := if render_target_model initial then initial else .unknown
  let fresh : Slot := { key := key, state := { model := initial }, retained_rt := retained }
  let put := fun handle => keyed.modify (·.key.handle) handle (fun _ => fresh) t.sources
  if !valid key then (t, false)
  else
    match t.sources.find? (fun slot => slot.key.handle == key.handle) with
    | some slot => if slot.key = key then (t, true) else (⟨put key.handle⟩, true)
    | none =>
      if t.sources.any (fun slot => slot.key.handle == 0) then (⟨put 0⟩, true) else (t, false)

def unregister_source (t : Tracker) (key : Key) : Tracker :=
  if !valid key then t else ⟨keyed.modify Slot.key key (fun _ => {}) t.sources⟩

def clear (_ : Tracker) : Tracker := {}

def begin_batch (t : Tracker) : Tracker :=
  ⟨t.sources.map fun slot =>
    { slot with state := { slot.state with drawn := false, draws := 0 } }⟩

def invalidate_all (t : Tracker) : Tracker :=
  ⟨t.sources.map fun slot => { slot with state := {} }⟩

/-- One turn of the loop of `apply`. -/
def apply_effect (t : Tracker) (effect : Effect) : Tracker :=
  ⟨keyed.modify Slot.key effect.key (Slot.apply effect) t.sources⟩

/-- The loop of `apply`. An effect that names no source ends it. -/
def apply_effects (t : Tracker) : List Effect → Tracker × Bool
  | [] => (t, true)
  | effect :: rest =>
    if valid effect.key then (t.apply_effect effect).apply_effects rest
    else (t.invalidate_all, false)

def apply (t : Tracker) (recording : Recording) : Tracker × Bool :=
  if recording.invalid || decide (recording.effects.length > Recording.capacity) then
    (t.invalidate_all, false)
  else t.apply_effects recording.effects

def state (t : Tracker) (key : Key) : State :=
  if valid key then
    match t.sources.find? (fun slot => slot.key == key) with
    | some slot => slot.state
    | none => {}
  else {}

def retire_live_models (t : Tracker) : Tracker :=
  ⟨t.sources.map fun slot =>
    if slot.key.handle ≠ 0 then { slot with state := { model := .other } } else slot⟩

/-- A source that left the model of its last render target. -/
def retired (slot : Slot) : Bool :=
  slot.key.handle != 0 && render_target_model slot.retained_rt &&
    slot.state.model != slot.retained_rt

def rearm_retained_rt (t : Tracker) : Tracker × Nat :=
  (⟨t.sources.map fun slot =>
    if retired slot then { slot with state := { model := slot.retained_rt } } else slot⟩,
    t.sources.countP retired)

end Tracker

end taxi_camera.source_state
