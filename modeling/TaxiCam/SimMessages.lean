-- Simulator messages: the log that the bridge publishes events into, the slot
-- by slot copy of it, and the reader that yields the events it has not seen.
-- `SimEventLog` and `NotificationReader` of src/shared/sim_messages.hpp. Every
-- atomic store and load is a step of its own.
import TaxiCam.Runs
import Mathlib.Data.Fin.Basic

namespace taxi_camera

namespace sim_messages

/-! ## Events and slots -/

inductive SimEvent
  | bridge_connected | cameras_ready | connection_stopped | simulator_unsupported
  | presentation_stalled | cameras_disarmed | presentation_resumed | aircraft_mismatch
  | camera_startup_failed | capture_paused | hook_storm | stalls_held | count
deriving DecidableEq

/-- The value of the enumerator. -/
def SimEvent.value : SimEvent → Nat
  | .bridge_connected => 0
  | .cameras_ready => 1
  | .connection_stopped => 2
  | .simulator_unsupported => 3
  | .presentation_stalled => 4
  | .cameras_disarmed => 5
  | .presentation_resumed => 6
  | .aircraft_mismatch => 7
  | .camera_startup_failed => 8
  | .capture_paused => 9
  | .hook_storm => 10
  | .stalls_held => 11
  | .count => 12

def NotificationSlots : Nat := 16
def FreshMs : Nat := 30000

/-- `NotificationSlot`, and the atomics of a slot of the log. -/
structure NotificationSlot where
  serial : Nat := 0
  posted_ms : Nat := 0
  event : Nat := 0
deriving DecidableEq

/-! ## The reader -/

namespace NotificationReader

/-- The slot with the least serial above the last one seen. -/
def next_slot (last_serial : Nat) (log : List NotificationSlot) : Option NotificationSlot :=
  log.foldl (fun next slot =>
    if slot.serial > last_serial ∧ (next.all fun n => slot.serial < n.serial) = true then some slot
    else next) none

def fresh (now_ms : Nat) (slot : NotificationSlot) : Bool :=
  decide (slot.posted_ms ≤ now_ms ∧ now_ms - slot.posted_ms ≤ FreshMs ∧
    slot.event < SimEvent.count.value)

/-- The loop of `take`, for as many turns as `fuel`. -/
def take_loop (log : List NotificationSlot) (now_ms capacity : Nat) :
    (fuel last_serial : Nat) → (events : List NotificationSlot) → Nat × List NotificationSlot
  | 0, last_serial, events => (last_serial, events)
  | fuel + 1, last_serial, events =>
    match next_slot last_serial log with
    | none => (last_serial, events)
    | some next =>
      -- Left for the next poll.
      if fresh now_ms next = true ∧ events.length = capacity then (last_serial, events)
      else take_loop log now_ms capacity fuel next.serial
        (if fresh now_ms next then events ++ [next] else events)

/-- The new last serial, and the slots whose events are yielded. -/
def take (last_serial : Nat) (log : List NotificationSlot) (now_ms capacity : Nat) :
    Nat × List NotificationSlot :=
  take_loop log now_ms capacity (log.length + 1) last_serial []

end NotificationReader

/-! ## Publishers and snapshots -/

/-- How far a publish call has come: the next store blanks the serial, stores the event, the time
and the serial. -/
inductive Stage
  | reserved | blanked | evented | timed | returned
deriving DecidableEq

/-- A publish call that has reserved its serial. -/
structure Call where
  serial : Nat
  event : SimEvent
  now_ms : Nat
  stage : Stage := .reserved
deriving DecidableEq

def Call.posted_ms (c : Call) : Nat := if c.now_ms = 0 then 1 else c.now_ms

/-- The next store of a call. -/
def Call.store (c : Call) (slot : NotificationSlot) : NotificationSlot :=
  match c.stage with
  | .reserved => { slot with serial := 0 }
  | .blanked => { slot with event := c.event.value }
  | .evented => { slot with posted_ms := c.posted_ms }
  | .timed => { slot with serial := c.serial }
  | .returned => slot

def Stage.next : Stage → Stage
  | .reserved => .blanked
  | .blanked => .evented
  | .evented => .timed
  | .timed | .returned => .returned

/-- A snapshot of the first slots, and what it has loaded of the next one. -/
inductive Snapshot
  | idle
  | load_serial (out : List NotificationSlot)
  | load_posted (out : List NotificationSlot) (before : Nat)
  | load_event (out : List NotificationSlot) (before posted_ms : Nat)
  | load_again (out : List NotificationSlot) (before posted_ms event : Nat)
deriving DecidableEq

/-- The log, the calls in the order of their reservations, the snapshot under way, and the reader
with all that it has yielded. -/
structure SimEventLog where
  serial : Nat := 0
  slots : Fin NotificationSlots → NotificationSlot := fun _ => {}
  calls : List Call := []
  snapshot : Snapshot := .idle
  last_serial : Nat := 0
  events : List NotificationSlot := []

namespace SimEventLog

def slot_of (serial : Nat) : Fin NotificationSlots :=
  ⟨serial % NotificationSlots, Nat.mod_lt _ (by decide)⟩

/-- The call returns at once for an event that is none, and else reserves a serial. -/
def reserve (s : SimEventLog) (event : SimEvent) (now_ms : Nat) : SimEventLog :=
  if event.value ≥ SimEvent.count.value then s
  else
    let serial := (s.serial + 1) % 0x10000000000000000
    { s with serial, calls := s.calls ++ [{ serial, event, now_ms }] }

/-- The next store of the call with the given number. -/
def store (s : SimEventLog) (call : Nat) : SimEventLog :=
  match s.calls[call]? with
  | none => s
  | some c =>
    let i := slot_of c.serial
    { s with
        slots := Function.update s.slots i (c.store (s.slots i))
        calls := s.calls.set call { c with stage := c.stage.next } }

def begin_snapshot (s : SimEventLog) : SimEventLog :=
  match s.snapshot with
  | .idle => { s with snapshot := .load_serial [] }
  | _ => s

/-- The next load of the snapshot. -/
def load (s : SimEventLog) : SimEventLog :=
  match s.snapshot with
  | .idle => s
  | .load_serial out =>
    if out.length = NotificationSlots then s
    else { s with snapshot := .load_posted out (s.slots (slot_of out.length)).serial }
  | .load_posted out before =>
    { s with snapshot := .load_event out before (s.slots (slot_of out.length)).posted_ms }
  | .load_event out before posted_ms =>
    { s with snapshot := .load_again out before posted_ms (s.slots (slot_of out.length)).event }
  | .load_again out before posted_ms event =>
    let after := (s.slots (slot_of out.length)).serial
    let copy := if before ≠ 0 ∧ before = after then ⟨before, posted_ms, event⟩ else {}
    { s with snapshot := .load_serial (out ++ [copy]) }

/-- The log that a finished snapshot has copied. -/
def copied (s : SimEventLog) : Option (List NotificationSlot) :=
  match s.snapshot with
  | .load_serial out => if out.length = NotificationSlots then some out else none
  | _ => none

/-- The reader takes a finished snapshot. -/
def take (s : SimEventLog) (now_ms capacity : Nat) : SimEventLog :=
  match s.copied with
  | none => s
  | some log =>
    let taken := NotificationReader.take s.last_serial log now_ms capacity
    { s with snapshot := .idle, last_serial := taken.1, events := s.events ++ taken.2 }

inductive Op
  | publish (event : SimEvent) (now_ms : Nat)
  | store (call : Nat)
  | begin_snapshot
  | load
  | take (now_ms capacity : Nat)
deriving DecidableEq

def step (s : SimEventLog) : Op → SimEventLog
  | .publish event now_ms => s.reserve event now_ms
  | .store call => s.store call
  | .begin_snapshot => s.begin_snapshot
  | .load => s.load
  | .take now_ms capacity => s.take now_ms capacity

end SimEventLog

end sim_messages

end taxi_camera
