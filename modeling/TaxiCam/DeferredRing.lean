-- The ring that simulator threads leave deferred work in: any number of
-- producers in `push`, one consumer in `peek` and `commit`. `DeferredRing` of
-- src/shared/bounded_lock.hpp. Every atomic load, store and exchange, and the
-- copy of an entry, is a step of its own.
import TaxiCam.Runs

namespace taxi_camera

variable {T : Type}

namespace DeferredRing

/-! ## The ring and its threads -/

structure Slot (T : Type) where
  ready : Nat := 0
  value : T
deriving DecidableEq

/-- Where a producer is in `push`: the next access is the one that the name says. -/
inductive Producer (T : Type)
  | idle
  | load_tail (value : T)
  | load_head (value : T) (ticket : Nat)
  | exchange (value : T) (ticket : Nat)
  | write (value : T) (ticket : Nat)
  | publish (value : T) (ticket : Nat)
  | overflow (value : T)
deriving DecidableEq

/-- Where the consumer is in `peek` and `commit`. -/
inductive Consumer (T : Type)
  | idle
  | peek_tail (ticket : Nat)
  | peek_ready (ticket : Nat)
  | peek_value (ticket : Nat)
  | peeked (value : T)
  | commit_ready (value : T) (ticket : Nat)
  | commit_head (value : T) (ticket : Nat)
deriving DecidableEq

end DeferredRing

open DeferredRing

/-- The ring with its threads, and what they have done: the tickets taken, with the producer and
the entry of each, the entries of every producer whose push has returned true, and the entries
committed. -/
structure DeferredRing (T : Type) where
  slots : Nat → Slot T
  head : Nat := 0
  tail : Nat := 0
  overflow : Bool := false
  producers : Nat → Producer T := fun _ => .idle
  consumer : Consumer T := .idle
  pushes : List (Nat × T) := []
  returned : Nat → List T := fun _ => []
  committed : List T := []

namespace DeferredRing

def initial [Inhabited T] : DeferredRing T := { slots := fun _ => { value := default } }

/-- The program point of one producer. -/
def at_point (s : DeferredRing T) (p : Nat) (point : Producer T) : DeferredRing T :=
  { s with producers := Function.update s.producers p point }

/-- The store of one slot. -/
def set_slot (s : DeferredRing T) (i : Nat) (slot : Slot T) : DeferredRing T :=
  { s with slots := Function.update s.slots i slot }

/-- A difference of two tickets, in 64 bits. -/
def distance (ticket head : Nat) : Nat :=
  (ticket + 0x10000000000000000 - head) % 0x10000000000000000

/-- The ticket after this one. -/
def next (ticket : Nat) : Nat := (ticket + 1) % 0x10000000000000000

/-! ## The steps of `push` -/

def push (s : DeferredRing T) (p : Nat) (value : T) : DeferredRing T :=
  match s.producers p with
  | .idle => s.at_point p (.load_tail value)
  | _ => s

/-- The next access of a producer. The exchange is weak: it may fail with no reason. -/
def produce (capacity : Nat) (s : DeferredRing T) (p : Nat) (spurious : Bool) : DeferredRing T :=
  match s.producers p with
  | .idle => s
  | .load_tail value => s.at_point p (.load_head value s.tail)
  | .load_head value ticket =>
    if distance ticket s.head ≥ capacity then s.at_point p (.overflow value)
    else s.at_point p (.exchange value ticket)
  | .exchange value ticket =>
    if s.tail = ticket ∧ spurious = false then
      { s.at_point p (.write value ticket) with
        tail := next ticket
        pushes := s.pushes ++ [(p, value)] }
    else s.at_point p (.load_head value s.tail)
  | .write value ticket =>
    (s.set_slot (ticket % capacity) { s.slots (ticket % capacity) with value }).at_point p
      (.publish value ticket)
  | .publish value ticket =>
    { (s.set_slot (ticket % capacity)
        { s.slots (ticket % capacity) with ready := next ticket }).at_point p .idle with
      returned := Function.update s.returned p (s.returned p ++ [value]) }
  | .overflow _ => { s.at_point p .idle with overflow := true }

/-! ## The steps of `peek` and `commit` -/

/-- A peek may follow a peek: the entry stays until `commit`. -/
def peek (s : DeferredRing T) : DeferredRing T :=
  match s.consumer with
  | .idle | .peeked _ => { s with consumer := .peek_tail s.head }
  | _ => s

def commit (s : DeferredRing T) : DeferredRing T :=
  match s.consumer with
  | .peeked value => { s with consumer := .commit_ready value s.head }
  | _ => s

/-- The next access of the consumer. -/
def consume (capacity : Nat) (s : DeferredRing T) : DeferredRing T :=
  match s.consumer with
  | .idle | .peeked _ => s
  | .peek_tail ticket =>
    { s with consumer := if ticket = s.tail then .idle else .peek_ready ticket }
  | .peek_ready ticket =>
    -- The producer is still writing: drained on the next pass.
    { s with consumer :=
        if (s.slots (ticket % capacity)).ready ≠ next ticket then .idle else .peek_value ticket }
  | .peek_value ticket => { s with consumer := .peeked (s.slots (ticket % capacity)).value }
  | .commit_ready value ticket =>
    { s.set_slot (ticket % capacity) { s.slots (ticket % capacity) with ready := 0 } with
      consumer := .commit_head value ticket }
  | .commit_head value ticket =>
    { s with head := next ticket, consumer := .idle, committed := s.committed ++ [value] }

inductive Op (T : Type)
  | push (p : Nat) (value : T)
  | produce (p : Nat) (spurious : Bool)
  | peek
  | commit
  | consume
deriving DecidableEq

def step (capacity : Nat) (s : DeferredRing T) : Op T → DeferredRing T
  | .push p value => s.push p value
  | .produce p spurious => s.produce capacity p spurious
  | .peek => s.peek
  | .commit => s.commit
  | .consume => s.consume capacity

/-! ## What the threads have done -/

/-- The producer has the ticket and has not published its entry. -/
def Producer.Holds (point : Producer T) (ticket : Nat) : Prop :=
  match point with
  | .write _ t | .publish _ t => t = ticket
  | _ => False

/-- The entry that a producer has a ticket for and has not returned. -/
def Producer.under_way : Producer T → List T
  | .write value _ | .publish value _ => [value]
  | _ => []

/-- The entries in the order of their tickets. -/
def entries (s : DeferredRing T) : List T := s.pushes.map (·.2)

/-- The entries of one producer, in the order of their tickets. -/
def pushes_of (s : DeferredRing T) (p : Nat) : List T :=
  (s.pushes.filter fun e => e.1 = p).map (·.2)

/-- A `peek` and a `commit`, from their first access to their last. -/
def pop : List (Op T) := [.peek, .consume, .consume, .consume, .commit, .consume, .consume]

def pops (n : Nat) : List (Op T) := (List.replicate n pop).flatten

/-- The ring loses no entry, whatever its threads do next. -/
structure Lossless (capacity : Nat) (s : DeferredRing T) : Prop where
  /-- Entry by entry, the consumer commits what the tickets were taken for. -/
  in_order : s.committed <+: s.entries
  own_order : ∀ p, s.pushes_of p = s.returned p ++ (s.producers p).under_way
  /-- An uncommitted entry stays in its slot from its write on. -/
  kept : ∀ t p value, s.pushes[t]? = some (p, value) → s.committed.length ≤ t →
    s.producers p = .write value t ∨ (s.slots (t % capacity)).value = value
  /-- The slot that a producer writes is no other uncommitted entry's, and is not being read. -/
  alone : ∀ p value t, s.producers p = .write value t →
    (∀ u, s.committed.length ≤ u → u < s.pushes.length → u ≠ t → u % capacity ≠ t % capacity) ∧
      ∀ u, s.consumer = .peek_value u → u % capacity ≠ t % capacity
  /-- Published entries are committed, each by one `peek` and one `commit`. -/
  seen : ∀ n, s.committed.length ≤ n → n ≤ s.pushes.length →
    (∀ t, t < n → ∀ p, ¬ (s.producers p).Holds t) → s.consumer = .idle →
      (runs.run (step capacity) s (pops (n - s.committed.length))).committed = s.entries.take n

end DeferredRing

end taxi_camera
