-- Cockpit variables bound to camera actions: the readings of a value, the
-- counters that the bridge keeps for one stream, and the commands that the
-- companion makes of two readings of them. src/shared/lvar_binding.hpp and
-- `accept_lvar_packet` of src/camera/body_pose_provider.cpp.
import TaxiCam.Runs
import Mathlib.Data.Rat.Floor

namespace taxi_camera.standalone

/-! ## Bindings -/

def LvarBindingCount : Nat := 5

inductive LvarTrigger
  | momentary | latched | equals
deriving DecidableEq

/-- The value of the enumerator. -/
def LvarTrigger.value : LvarTrigger → Nat
  | .momentary => 0
  | .latched => 1
  | .equals => 2

/-- The bytes of the name, and the trigger in 32 bits: its kind in the low byte. -/
structure LvarBinding where
  name : List UInt8 := List.replicate 64 0
  trigger : Nat := 0
deriving DecidableEq

def lvar_trigger_kind (trigger : Nat) : Nat := trigger % 0x100

def lvar_equals_value (trigger : Nat) : Nat := trigger / 0x100

/-! ## Readings of a value -/

def lvar_on (value : Rat) : Bool := decide (1 / 2 ≤ |value|)

def lvar_active (trigger : Nat) (value : Rat) : Bool :=
  if lvar_trigger_kind trigger ≠ LvarTrigger.equals.value then lvar_on value
  else decide (|value - lvar_equals_value trigger| < 1 / 2)

/-- `std::round`: halves go away from zero. -/
def round (value : Rat) : Int :=
  if 0 ≤ value then (value + 1 / 2).floor else -((-value + 1 / 2).floor)

def lvar_whole (value : Rat) : Bool :=
  decide (|value| < 1000000000) && decide (|value - round value| < 1 / 1000)

structure LvarPresses where
  rises : Nat := 0
  falls : Nat := 0
  held : Bool := false
deriving DecidableEq

/-- One step of a count: odd is held. -/
def LvarPresses.press (out : LvarPresses) (n : Int) : LvarPresses :=
  if n % 2 ≠ 0 then { out with rises := out.rises + 1 } else { out with falls := out.falls + 1 }

def lvar_presses (previous value : Rat) (held : Bool) : LvarPresses :=
  let start := round previous
  let stop := round value
  let on := lvar_on value
  if value = previous then { held }
  else if lvar_whole previous ∧ lvar_whole value ∧ lvar_on previous ∧ stop - start = 1 then
    { (LvarPresses.press {} stop) with held := decide (stop % 2 ≠ 0) }
  else if lvar_whole previous ∧ lvar_whole value ∧ lvar_on previous ∧ stop - start = 2 then
    { ((LvarPresses.press {} (start + 1)).press stop) with held := decide (stop % 2 ≠ 0) }
  else
    { rises := if on ∧ ¬ held then 1 else 0, falls := if ¬ on ∧ held then 1 else 0, held := on }

/-- Held or not at a stream's first reading. -/
def lvar_held (value : Rat) : Bool :=
  if lvar_whole value ∧ 2 ≤ |value| then decide (round value % 2 ≠ 0) else lvar_on value

/-! ## The bridge: one stream of packets -/

/-- The counters run for one stream. -/
structure LvarBindingState where
  value : Rat := 0
  rises : Nat := 0
  falls : Nat := 0
  read : Bool := false
deriving DecidableEq

/-- The header of a packet and its values; `none` is a value that is not finite. -/
structure LvarPacket where
  bytes : Nat
  header : Nat → Nat
  values : Nat → Option Rat
  sample_ms : Nat

structure LvarStream where
  lvar_define : Nat := 0
  lvar_count : Nat := 0
  lvar_slots : Nat → Nat := fun _ => 0
  lvar : Nat → LvarBindingState := fun _ => {}
  lvar_triggers : Nat → Nat := fun _ => 0
  lvar_was_on : Nat → Bool := fun _ => false
  lvar_error : String := ""

def begin_lvar_stream (lvar_define : Nat) (lvar_slots : Nat → Nat) (lvar_count : Nat)
    (bindings : Nat → LvarBinding) : LvarStream where
  lvar_define
  lvar_count
  lvar_slots
  lvar_triggers i := (bindings i).trigger
  lvar_error := if lvar_count ≠ 0 then "" else "lvar_unbound"

section
variable (to_float : Rat → Rat)

/-- A finite value of a binding: its new state, and whether it is on. `to_float` is the cast that
the state keeps the value with. -/
def count_value (trigger : Nat) (read : LvarBindingState) (was_on : Bool) (value : Rat) :
    LvarBindingState × Bool :=
  if trigger = LvarTrigger.momentary.value then
    if read.read = false then ({ read with value := to_float value, read := true }, lvar_held value)
    else
      let presses := lvar_presses read.value value was_on
      ({ value := to_float value
         rises := (read.rises + presses.rises) % 0x100000000
         falls := (read.falls + presses.falls) % 0x100000000
         read := true }, presses.held)
  else
    let on := lvar_active trigger value
    let changed := read.read && on != was_on
    ({ value := to_float value
       rises := if changed && on then (read.rises + 1) % 0x100000000 else read.rises
       falls := if changed && !on then (read.falls + 1) % 0x100000000 else read.falls
       read := true }, on)

/-- The value at index `k` of a packet. -/
def accept_value (p : LvarPacket) (s : LvarStream) (k : Nat) : LvarStream :=
  let binding := s.lvar_slots k
  match p.values k with
  | none => { s with lvar_error := "lvar_values" }
  | some value =>
    if binding ≥ LvarBindingCount then { s with lvar_error := "lvar_values" }
    else
      let counted := count_value to_float (s.lvar_triggers binding) (s.lvar binding)
        (s.lvar_was_on binding) value
      { s with
        lvar := Function.update s.lvar binding counted.1
        lvar_was_on := Function.update s.lvar_was_on binding counted.2 }

def LvarStream.current (s : LvarStream) (p : LvarPacket) : Bool :=
  decide (s.lvar_define ≠ 0 ∧ p.header 5 = s.lvar_define)

def LvarStream.laid_out (s : LvarStream) (p : LvarPacket) : Bool :=
  let expected := 40 + 8 * s.lvar_count
  decide (s.lvar_count ≠ 0 ∧ p.bytes = expected ∧ p.header 0 = expected ∧ p.header 2 = 8 ∧
    (p.header 3 = s.lvar_define ∨ p.header 3 = s.lvar_define + 2) ∧ p.header 6 ≤ 1 ∧
    p.header 9 = s.lvar_count)

/-- True for a packet of the current stream, that is counted, and for one of a replaced stream. -/
def accept_lvar_packet (s : LvarStream) (p : LvarPacket) : Bool × LvarStream :=
  if p.bytes < 40 ∨ p.sample_ms = 0 then (false, s)
  else if s.current p = false then (true, s)
  else if s.laid_out p = false then (false, s)
  else (true, (List.range s.lvar_count).foldl (accept_value to_float p) { s with lvar_error := "" })

/-- The states that the packets publish, one after each. -/
def published : LvarStream → List LvarPacket → List (Nat → LvarBindingState)
  | _, [] => []
  | s, p :: rest =>
    let s' := (accept_lvar_packet to_float s p).2
    s'.lvar :: published s' rest

end

/-! ## The companion: commands -/

inductive LvarCommandKind
  | toggle | on | off
deriving DecidableEq

structure LvarCommand where
  action : Nat
  kind : LvarCommandKind
deriving DecidableEq

/-- What the tracker keeps of one binding. -/
structure Tracked where
  name : List UInt8 := List.replicate 64 0
  known : Bool := false
  rises : Nat := 0
  falls : Nat := 0
deriving DecidableEq

structure LvarBindingTracker where
  generation : Nat := 0
  tracked : Nat → Tracked := fun _ => {}

/-- The counts between two readings of a counter of 32 bits. -/
def counted (now before : Nat) : Nat := (now + 0x100000000 - before) % 0x100000000

/-- The turn of the loop of `update` for one binding. -/
def update_binding (generation : Nat) (binding : LvarBinding) (state : LvarBindingState)
    (t : Tracked) : Tracked × Option LvarCommandKind :=
  let t := if binding.name ≠ t.name then { t with name := binding.name, known := false } else t
  if generation = 0 ∨ binding.name.headD 0 = 0 ∨ state.read = false then
    ({ t with known := false }, none)
  else
    let next := { t with known := true, rises := state.rises, falls := state.falls }
    if t.known = false then (next, none)
    else
      let rises := counted state.rises t.rises
      let falls := counted state.falls t.falls
      if rises = 0 ∧ falls = 0 then (next, none)
      else if binding.trigger = LvarTrigger.momentary.value then
        -- Two presses between readings turn the displays on and off again.
        (next, if rises % 2 ≠ 0 then some .toggle else none)
      else (next, some (if lvar_active binding.trigger state.value then .on else .off))

/-- A new stream starts every binding again. -/
def LvarBindingTracker.restart (t : LvarBindingTracker) (generation : Nat) : LvarBindingTracker :=
  if generation ≠ t.generation then
    { generation, tracked := fun i => { t.tracked i with known := false } }
  else t

def LvarBindingTracker.update (t : LvarBindingTracker) (bindings : Nat → LvarBinding)
    (generation : Nat) (states : Nat → LvarBindingState) : LvarBindingTracker × List LvarCommand :=
  let t := t.restart generation
  let turn := fun i => update_binding generation (bindings i) (states i) (t.tracked i)
  ({ t with tracked := fun i => if i < LvarBindingCount then (turn i).1 else t.tracked i },
    (List.range LvarBindingCount).filterMap fun i => (turn i).2.map fun kind => ⟨i, kind⟩)

/-- The commands of the polls, in order. -/
def poll (bindings : Nat → LvarBinding) (generation : Nat) :
    LvarBindingTracker → List (Nat → LvarBindingState) → List LvarCommand
  | _, [] => []
  | t, states :: rest =>
    let updated := t.update bindings generation states
    updated.2 ++ poll bindings generation updated.1 rest

/-- The kinds of the commands of one binding. -/
def commands_of (i : Nat) (commands : List LvarCommand) : List LvarCommandKind :=
  (commands.filter fun c => c.action = i).map (·.kind)

end taxi_camera.standalone
