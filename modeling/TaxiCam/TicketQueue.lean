-- Queues whose entries are reserved before they are written. The consumer
-- takes the entries from the front and stops at the first one that is not
-- written yet, so a written entry may wait behind it.
import Mathlib.Data.List.Basic
import Mathlib.Data.List.DropRight
import Mathlib.Logic.Function.Basic

namespace ticket_queue

open List

variable {T : Type}

structure Entry (T : Type) where
  producer : Nat
  value : T
  written : Bool := false
deriving DecidableEq

structure Queue (T : Type) where
  entries : List (Entry T) := []
  overflow : Bool := false
deriving DecidableEq

namespace Queue

/-- A producer takes the next place. -/
def reserve (q : Queue T) (producer : Nat) (value : T) : Queue T :=
  { q with entries := q.entries ++ [⟨producer, value, false⟩] }

/-- A producer writes its entry. It has at most one that is not written. -/
def publish (q : Queue T) (producer : Nat) : Queue T :=
  { q with entries := q.entries.map fun e =>
      if e.producer = producer then { e with written := true } else e }

/-- A producer finds no place. -/
def lose (q : Queue T) : Queue T := { q with overflow := true }

/-- What the consumer takes before it stops. -/
def ready (q : Queue T) : List T := (q.entries.takeWhile (·.written)).map (·.value)

/-- What the consumer leaves: an entry that is not written, and the entries behind it. -/
def waiting (q : Queue T) : List (Entry T) := q.entries.dropWhile (·.written)

/-- The queue after the consumer has taken what is ready. -/
def drained (q : Queue T) : Queue T := { q with entries := q.waiting }

@[simp] theorem entries_reserve (q : Queue T) (producer : Nat) (value : T) :
    (q.reserve producer value).entries = q.entries ++ [⟨producer, value, false⟩] := rfl

/-- The consumer takes the entries in their order and leaves the others. -/
theorem ready_append_waiting (q : Queue T) : q.ready ++ q.waiting.map (·.value) = q.entries.map (·.value) := by
  unfold ready waiting
  rw [← map_append, takeWhile_append_dropWhile]

theorem mem_of_mem_waiting {q : Queue T} {e : Entry T} (h : e ∈ q.waiting) : e ∈ q.entries :=
  (dropWhile_suffix _).mem h

@[simp] theorem values_publish (q : Queue T) (producer : Nat) :
    (q.publish producer).entries.map (·.value) = q.entries.map (·.value) := by
  unfold publish
  rw [map_map]
  apply map_congr_left
  intro e _
  dsimp only [Function.comp_apply]
  split <;> rfl

end Queue

/-! ## Values that change a cell -/

section
variable {κ υ : Type} [DecidableEq κ]

/-- Every value changes the cell of its key. -/
def deliver (key : T → κ) (change : T → υ → υ) (cells : κ → υ) (values : List T) : κ → υ :=
  values.foldl (fun cells v => Function.update cells (key v) (change v (cells (key v)))) cells

/-- A cell is changed by the values of its key, in their order. -/
theorem deliver_at (key : T → κ) (change : T → υ → υ) (cells : κ → υ) (values : List T) (k : κ) :
    deliver key change cells values k =
      (values.filter fun v => key v = k).foldl (fun cell v => change v cell) (cells k) := by
  unfold deliver
  induction values generalizing cells with
  | nil => rfl
  | cons v rest ih =>
    rw [foldl_cons, ih]
    by_cases hk : key v = k
    · rw [filter_cons_of_pos (by simpa using hk), foldl_cons, hk, Function.update_self]
    · rw [filter_cons_of_neg (by simpa using hk), Function.update_of_ne (Ne.symm hk)]

end

end ticket_queue
