-- The state that a closed list left a display in, from its Close to the copy
-- of a later Execute that leaves the display alone: the settlement parts of
-- src/bridge/d3d12_bridge.cpp, with the ring of the Closes that found the
-- registry busy.
import TaxiCam.SubmissionSites
import TaxiCam.TicketQueue

namespace taxi_camera.standalone

open PfdSubmissionProof ResourceStates ticket_queue
open Function (update)

/-! ## The registry -/

/-- `Resource::kSettledStateUnknown`. -/
def kSettledStateUnknown : ResourceStates := 0xffffffff#32

/-- The fields of `Resource` that settlements read and write. `display_shape` is the answer of the
profile and the routes in `display_item`. -/
structure Resource where
  id : Nat
  alive : Bool := true
  display_shape : Bool := true
  settled_state : ResourceStates := kSettledStateUnknown
  content_serial : Nat := 1
  covered_serial : Nat := 0
deriving DecidableEq

def display_item (item : Resource) : Bool := item.alive && item.display_shape

/-- A ticket of the ring carries a row of the Close that is its producer. -/
structure Registry where
  resources : Nat → Option Resource := fun _ => none
  deferred_settlements : Queue Settlement := {}
  settlement_stale : Bool := false

/-- The copies that a plan can carry. -/
inductive CarriedCopy | cover | restore | snapshot
deriving DecidableEq

namespace Registry

/-- The resource that a row names, while it is the display that the row is about. -/
def settles (r : Registry) (row : Settlement) : Bool :=
  match r.resources row.key.resource with
  | some found => found.id == row.key.generation && display_item found
  | none => false

def apply_settlement (r : Registry) (row : Settlement) : Registry :=
  if r.settles row then
    let settled := (r.resources row.key.resource).map fun found =>
      { found with
        settled_state := if row.restorable then row.after else kSettledStateUnknown
        content_serial := if row.wrote then found.content_serial + 1 else found.content_serial }
    { r with resources := update r.resources row.key.resource settled }
  else r

def take_overflow (r : Registry) : Registry :=
  if r.deferred_settlements.overflow then
    { r with settlement_stale := true
             deferred_settlements := { r.deferred_settlements with overflow := false } }
  else r

/-- The rows that a drain takes, each with the Close that it is of. -/
def replayed (r : Registry) : List (Nat × Settlement) :=
  (r.deferred_settlements.entries.takeWhile (·.written)).map fun e => (e.producer, e.value)

def drain_deferred_settlements (r : Registry) : Registry :=
  let taken := r.take_overflow
  runs.run (fun r row => r.apply_settlement row)
    { taken with deferred_settlements := taken.deferred_settlements.drained }
    (r.replayed.map (·.2))

/-- The end of the discovery of the worker: rows were lost, so every settled state is forgotten. -/
def discover_pfds (r : Registry) : Registry :=
  let drained := r.drain_deferred_settlements
  if drained.settlement_stale then
    { drained with
      settlement_stale := false
      resources := fun native => (drained.resources native).map fun item =>
        { item with settled_state := kSettledStateUnknown } }
  else drained

/-! ## The carried copies of `plan_display_submission` -/

/-- A copy behind a batch that leaves the display alone, to the state that is settled. -/
def quiet_overlay (r : Registry) (batch : List Recording) (key : Key) (target : Resource) : Overlay :=
  if r.settlement_stale then {}
  else if target.settled_state ≠ kSettledStateUnknown then
    carried_overlay batch key target.settled_state
  else {}

/-- The camera copy of a side. -/
def cover_overlay (r : Registry) (batch : List Recording) (key : Key) (target : Resource) : Overlay :=
  if (batch_overlay batch key).is_site || target.content_serial == target.covered_serial then {}
  else r.quiet_overlay batch key target

def snapshot_overlay (r : Registry) (batch : List Recording) (key : Key) (target : Resource) :
    Overlay :=
  if (batch_overlay batch key).is_site then {} else r.quiet_overlay batch key target

def restore_overlay (r : Registry) (batch : List Recording) (key : Key) (target : Resource) :
    Overlay :=
  if (batch_entry batch key).is_site then {} else r.quiet_overlay batch key target

/-- The target of a cover is a display; a restore and a snapshot keep their own target as long as
it is alive. -/
def planned_overlay (r : Registry) (batch : List Recording) (key : Key) (target : Resource) :
    CarriedCopy → Overlay
  | .cover => if display_item target then r.cover_overlay batch key target else {}
  | .restore => if target.alive then r.restore_overlay batch key target else {}
  | .snapshot => if target.alive then r.snapshot_overlay batch key target else {}

/-- The state that a copy returns the display to, when the copy is carried. -/
def carried_state (r : Registry) (batch : List Recording) (native : Nat) (copy : CarriedCopy) :
    Option ResourceStates :=
  match r.resources native with
  | none => none
  | some target =>
    let overlay := r.planned_overlay batch ⟨native, target.id⟩ target copy
    if overlay.is_site then some overlay.candidate.state_after else none

end Registry

/-! ## Closes and Executes -/

/-- An Execute that is planned and not forwarded: its lists, and the registry that its plan saw. -/
structure PlannedExecute where
  lists : List Nat := []
  saw : Registry := {}
  /-- The Close whose row was the last one recorded of each display when the copies were planned. -/
  settled : Key → Option Nat := fun _ => none

/-- The registry with the Closes and Executes of the simulator. A Close has a number, and an
Execute names its lists by the numbers of their Closes. `displays` are the states that the lists
forwarded so far leave the displays in. -/
structure SettledDisplays where
  registry : Registry := {}
  closed : Nat → Option CommandList := fun _ => none
  unrecorded : Nat → List Settlement := fun _ => []
  planned : Nat → Option PlannedExecute := fun _ => none
  displays : Displays := fun _ => COMMON
  settled : Key → Option Nat := fun _ => none
  touched : Key → Option Nat := fun _ => none

namespace SettledDisplays

variable (mip_levels : Key → Nat)

def batch (s : SettledDisplays) (lists : List Nat) : List CommandList := lists.filterMap s.closed

/-- The rows of a Close that was forwarded, in `remember_display_settlement`. -/
def close (s : SettledDisplays) (i : Nat) (l : CommandList) : SettledDisplays :=
  match s.closed i with
  | some _ => s
  | none =>
    let r := l.recording mip_levels
    { s with
      closed := update s.closed i (some l)
      unrecorded := update s.unrecorded i
        (if l.succeeded then r.proof.settlements r.generation maximum_resources else []) }

/-- The displays that a row is recorded for, by the Close that it is of. -/
def note (settled : Key → Option Nat) (r : Registry) (i : Nat) (row : Settlement) :
    Key → Option Nat :=
  if r.settles row then update settled row.key (some i) else settled

def settle (s : SettledDisplays) (row : Nat × Settlement) : SettledDisplays :=
  { s with
    registry := s.registry.apply_settlement row.2
    settled := note s.settled s.registry row.1 row.2 }

def drain (s : SettledDisplays) : SettledDisplays :=
  let taken := s.registry.take_overflow
  runs.run settle
    { s with registry := { taken with
        deferred_settlements := taken.deferred_settlements.drained } } s.registry.replayed

/-- A Close that has the registry lock. -/
def record (s : SettledDisplays) (i : Nat) : SettledDisplays :=
  runs.run settle { s.drain with unrecorded := update s.unrecorded i [] }
    ((s.unrecorded i).map fun row => (i, row))

/-- A Close that has not got the lock pushes its next row, and finds the ring full or not. -/
def push (s : SettledDisplays) (i : Nat) (full : Bool) : SettledDisplays :=
  match s.unrecorded i with
  | [] => s
  | row :: rest =>
    let ring := s.registry.deferred_settlements
    { s with
      registry := { s.registry with
        deferred_settlements := if full then ring.lose else ring.reserve i row }
      unrecorded := update s.unrecorded i rest }

def publish (s : SettledDisplays) (i : Nat) : SettledDisplays :=
  { s with registry := { s.registry with
      deferred_settlements := s.registry.deferred_settlements.publish i } }

def discover (s : SettledDisplays) : SettledDisplays :=
  { s.drain with registry := s.registry.discover_pfds }

/-- The plan of Execute `e`. -/
def plan (s : SettledDisplays) (e : Nat) (lists : List Nat) : SettledDisplays :=
  let plan : PlannedExecute := ⟨lists, s.drain.registry, s.drain.settled⟩
  { s.drain with planned := update s.planned e (some plan) }

/-- A command of the list names the display. -/
def Touches (l : CommandList) (key : Key) : Prop := ∃ c ∈ l.commands, c.Names key

instance (key : Key) : (c : Command) → Decidable (c.Writes key)
  | .begin_pass _ _ clears => inferInstanceAs (Decidable (key ∈ clears))
  | .draw targets => inferInstanceAs (Decidable (key ∈ targets))
  | .clear_render_target k => inferInstanceAs (Decidable (k = key))
  | .clear_unordered_access k _ => inferInstanceAs (Decidable (k = key))
  | .barrier _ | .end_pass | .dispatch _ | .other_work _ _ => .isFalse id

instance (key : Key) : (c : Command) → Decidable (c.Names key)
  | .barrier (.transition k _ _ subresource _) =>
    inferInstanceAs (Decidable (k = key ∧ base_mip subresource = true))
  | .barrier .aliasing | .barrier .uav | .end_pass | .dispatch _ | .other_work _ _ => .isFalse id
  | .begin_pass _ _ clears => inferInstanceAs (Decidable (key ∈ clears))
  | .draw targets => inferInstanceAs (Decidable (key ∈ targets))
  | .clear_render_target k => inferInstanceAs (Decidable (k = key))
  | .clear_unordered_access k _ => inferInstanceAs (Decidable (k = key))

instance (l : CommandList) (key : Key) : Decidable (Touches l key) :=
  inferInstanceAs (Decidable (∃ c ∈ l.commands, c.Names key))

/-- One list on the queue. -/
def execute (s : SettledDisplays) (i : Nat) : SettledDisplays :=
  match s.closed i with
  | none => s
  | some l =>
    { s with
      displays := l.effect s.displays
      touched := fun key => if Touches l key then some i else s.touched key }

/-- The lists of Execute `e` reach the queue, with the copies of its plan. -/
def forward (s : SettledDisplays) (e : Nat) : SettledDisplays :=
  match s.planned e with
  | none => s
  | some p => runs.run execute { s with planned := update s.planned e none } p.lists

/-- What the bridge does to a resource apart from settlements. -/
inductive Change
  | register (id : Nat)
  | retire
  | shape (display_shape : Bool)
  | cover (covered_serial : Nat)

def Change.apply : Change → Option Resource → Option Resource
  | .register id, _ => some { id }
  | .retire, item => item.map fun item => { item with alive := false }
  | .shape display_shape, item => item.map fun item => { item with display_shape }
  | .cover covered_serial, item => item.map fun item => { item with covered_serial }

def change (s : SettledDisplays) (native : Nat) (c : Change) : SettledDisplays :=
  let changed := c.apply (s.registry.resources native)
  { s with registry := { s.registry with
      resources := update s.registry.resources native changed } }

inductive Op
  | close (i : Nat) (l : CommandList)
  | record (i : Nat)
  | push (i : Nat) (full : Bool)
  | publish (i : Nat)
  | discover
  | plan (e : Nat) (lists : List Nat)
  | forward (e : Nat)
  | change (native : Nat) (c : Change)

def step (s : SettledDisplays) : Op → SettledDisplays
  | .close i l => s.close mip_levels i l
  | .record i => s.record i
  | .push i full => s.push i full
  | .publish i => s.publish i
  | .discover => s.discover
  | .plan e lists => s.plan e lists
  | .forward e => s.forward e
  | .change native c => s.change native c

end SettledDisplays

end taxi_camera.standalone
