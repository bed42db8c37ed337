-- Queues that wait for and signal the values of one fence. A queue runs its
-- operations in order, and an operation that waits holds it until the fence
-- has reached the value. A fence that is signalled out of order goes back.
import Mathlib.Data.List.Basic
import Mathlib.Logic.Function.Basic

namespace fence_queues

open List
open Function (update_of_ne update_self)
open Function (update)

/-- A work is marked with the value that is signalled behind it. -/
inductive Operation
  | wait (value : Nat)
  | work (value : Nat)
  | signal (value : Nat)
deriving DecidableEq

/-- `reached` is the last value that a queue signalled, and `highest` the largest that the fence
has had. -/
structure Fence where
  completed : Nat := 0
  reached : Nat := 0
  highest : Nat := 0
  queues : Nat → List Operation := fun _ => []

namespace Fence

/-- An operation is put at the end of a queue. -/
def enqueue (f : Fence) (q : Nat) (op : Operation) : Fence :=
  { f with queues := update f.queues q (f.queues q ++ [op]) }

/-- A signal that no queue makes. -/
def signal (f : Fence) (value : Nat) : Fence :=
  { f with completed := value, highest := max f.highest value }

/-- The queue runs its next operation, unless that waits. -/
def advance (f : Fence) (q : Nat) : Fence :=
  match f.queues q with
  | [] => f
  | .wait value :: rest =>
    if value ≤ f.completed then { f with queues := update f.queues q rest } else f
  | .work _ :: rest => { f with queues := update f.queues q rest }
  | .signal value :: rest =>
    { f.signal value with reached := value, queues := update f.queues q rest }

@[simp] theorem queues_enqueue (f : Fence) (q : Nat) (op : Operation) :
    (f.enqueue q op).queues q = f.queues q ++ [op] := update_self _ _ _

variable {f : Fence} {other q : Nat}

theorem mem_enqueue {op op' : Operation} (h : op' ∈ (f.enqueue q op).queues other) :
    op' ∈ f.queues other ∨ (other = q ∧ op' = op) := by
  unfold enqueue at h
  dsimp only at h
  by_cases ho : other = q
  · subst ho
    rw [update_self] at h
    rcases mem_append.mp h with h | h
    · exact .inl h
    · exact .inr ⟨rfl, mem_singleton.mp h⟩
  rw [update_of_ne ho] at h
  exact .inl h

theorem mem_of_mem_advance {op : Operation} (h : op ∈ (f.advance q).queues other) : op ∈ f.queues other := by
  have hpop (rest : List Operation) (first : Operation) (hq : f.queues q = first :: rest)
      (hop : op ∈ update f.queues q rest other) : op ∈ f.queues other := by
    by_cases ho : other = q
    · subst ho
      rw [update_self] at hop
      rw [hq]
      exact mem_cons_of_mem _ hop
    · rwa [update_of_ne ho] at hop
  unfold advance at h
  split at h
  · exact h
  · rename_i hq
    split at h
    · exact hpop _ _ hq h
    · exact h
  · rename_i hq
    exact hpop _ _ hq h
  rename_i hq
  exact hpop _ _ hq h

/-- The values of the fence change by the signal of a queue only. -/
theorem advance_values (f : Fence) (q : Nat) :
    ((f.advance q).completed = f.completed ∧ (f.advance q).reached = f.reached ∧ (f.advance q).highest = f.highest) ∨
      ∃ value rest, f.queues q = .signal value :: rest ∧ (f.advance q).completed = value ∧
        (f.advance q).reached = value ∧ (f.advance q).highest = max f.highest value := by
  unfold advance
  split
  · exact .inl ⟨rfl, rfl, rfl⟩
  · split <;> exact .inl ⟨rfl, rfl, rfl⟩
  · exact .inl ⟨rfl, rfl, rfl⟩
  rename_i value rest hq
  exact .inr ⟨value, rest, hq, rfl, rfl, rfl⟩

/-- A work is in a queue and has not been run. -/
def Unfinished (f : Fence) (value : Nat) : Prop := ∃ q, .work value ∈ f.queues q

end Fence

/-! ## Operations in the order of their values -/

/-- The value that a queue has seen the fence reach when it has run the operations, from one that
it has seen before. -/
def level (seen : Nat) (ops : List Operation) : Nat :=
  ops.foldl (fun seen op =>
    match op with
    | .wait value | .signal value => max seen value
    | .work _ => seen) seen

/-- Every work and every signal of the operations is of the value behind the last one that the
queue has seen by then. -/
def InOrder : Nat → List Operation → Prop
  | _, [] => True
  | seen, .wait value :: rest => InOrder (max seen value) rest
  | seen, .work value :: rest => value = seen + 1 ∧ InOrder seen rest
  | seen, .signal value :: rest => value = seen + 1 ∧ InOrder value rest

section
variable {seen : Nat} {ops : List Operation}

@[simp] theorem level_nil : level seen [] = seen := rfl

theorem level_append (later : List Operation) :
    level seen (ops ++ later) = level (level seen ops) later := foldl_append

theorem le_level : seen ≤ level seen ops := by
  induction ops generalizing seen with
  | nil => exact Nat.le_refl _
  | cons op rest ih =>
    cases op with
    | wait value => exact Nat.le_trans (Nat.le_max_left _ _) ih
    | work value => exact ih
    | signal value => exact Nat.le_trans (Nat.le_max_left _ _) ih

theorem level_max (seen value : Nat) (ops : List Operation) :
    level (max seen value) ops = max (level seen ops) value := by
  induction ops generalizing seen with
  | nil => rfl
  | cons op rest ih =>
    have hcomm (v : Nat) : max (max seen value) v = max (max seen v) value := by omega
    cases op with
    | wait v => exact (congrArg (level · rest) (hcomm v)).trans (ih _)
    | work v => exact ih _
    | signal v => exact (congrArg (level · rest) (hcomm v)).trans (ih _)

theorem level_snoc (op : Operation) : level seen (ops ++ [op]) = level (level seen ops) [op] := level_append [op]

theorem inOrder_append (later : List Operation) :
    InOrder seen (ops ++ later) ↔ InOrder seen ops ∧ InOrder (level seen ops) later := by
  induction ops generalizing seen with
  | nil => simp [InOrder]
  | cons op rest ih =>
    cases op with
    | wait value => exact ih
    | work value =>
      simp only [cons_append, InOrder, ih, and_assoc]
      rfl
    | signal value =>
      simp only [cons_append, InOrder, ih, and_assoc]
      apply and_congr_right
      intro hv
      have hmax : max seen value = value := by omega
      rw [← hmax]
      simp only [level, foldl_cons, hmax]

variable {value : Nat}

/-- What is in order is of values that the queue has not seen. -/
theorem InOrder.lt (h : InOrder seen ops) (hop : .work value ∈ ops ∨ .signal value ∈ ops) : seen < value := by
  induction ops generalizing seen with
  | nil => simp at hop
  | cons op rest ih =>
    cases op with
    | wait v =>
      have hlater := ih h (by simpa using hop)
      omega
    | work v =>
      obtain ⟨rfl, hrest⟩ := h
      by_cases hv : value = seen + 1
      · omega
      · exact ih hrest (by simpa [hv] using hop)
    | signal v =>
      obtain ⟨rfl, hrest⟩ := h
      by_cases hv : value = seen + 1
      · omega
      have hlater := ih hrest (by simpa [hv] using hop)
      omega

theorem InOrder.work_le (h : InOrder seen ops) (hop : .work value ∈ ops) : value ≤ level seen ops + 1 := by
  induction ops generalizing seen with
  | nil => cases hop
  | cons op rest ih =>
    cases op with
    | wait v => exact ih h (by simpa using hop)
    | work v =>
      rcases mem_cons.mp hop with hv | hop
      · rw [Operation.work.injEq, h.1] at hv
        rw [hv]
        have hle : seen ≤ level seen rest := fence_queues.le_level
        exact Nat.succ_le_succ hle
      · exact ih h.2 hop
    | signal v =>
      have hmax : max seen v = v := by have := h.1; omega
      have hlater := ih h.2 (by simpa using hop)
      rw [← hmax] at hlater
      exact hlater

theorem InOrder.le_level (h : InOrder seen ops) (hop : .signal value ∈ ops) : value ≤ level seen ops := by
  induction ops generalizing seen with
  | nil => cases hop
  | cons op rest ih =>
    cases op with
    | wait v => exact ih h (by simpa using hop)
    | work v => exact ih h.2 (by simpa using hop)
    | signal v =>
      rcases mem_cons.mp hop with hv | hop
      · rw [Operation.signal.injEq] at hv
        subst hv
        exact Nat.le_trans (Nat.le_max_right seen value) fence_queues.le_level
      have hmax : max seen v = v := by have := h.1; omega
      have hlater := ih h.2 hop
      rw [← hmax] at hlater
      exact hlater

/-- A queue that has not seen the next value, and does not signal it, may see it. -/
theorem InOrder.succ (h : InOrder seen ops)
    (hnone : .work (seen + 1) ∉ ops ∧ .signal (seen + 1) ∉ ops) : InOrder (seen + 1) ops := by
  induction ops generalizing seen with
  | nil => trivial
  | cons op rest ih =>
    obtain ⟨hwork, hsignal⟩ := hnone
    rw [mem_cons, not_or] at hwork hsignal
    cases op with
    | wait v =>
      rcases Nat.lt_or_ge seen v with hv | hv
      · have hmax : max (seen + 1) v = max seen v := by omega
        unfold InOrder at h ⊢
        rw [hmax]
        exact h
      have hmax : max seen v = seen := by omega
      have hmax' : max (seen + 1) v = seen + 1 := by omega
      unfold InOrder at h ⊢
      rw [hmax] at h
      rw [hmax']
      exact ih h ⟨hwork.2, hsignal.2⟩
    | work v => exact absurd (congrArg Operation.work h.1.symm) hwork.1
    | signal v => exact absurd (congrArg Operation.signal h.1.symm) hsignal.1

end

/-! ## A fence whose queues are in order -/

/-- The queues are in order, have seen no value behind the last one, and every work and signal of a
value is in the queue that owns the value. -/
structure Fence.Orderly (f : Fence) (last : Nat) (owner : Nat → Option Nat) : Prop where
  order : ∀ q, InOrder f.reached (f.queues q)
  level_le : ∀ q, level f.reached (f.queues q) ≤ last
  owned : ∀ q value, .work value ∈ f.queues q ∨ .signal value ∈ f.queues q → owner value = some q

namespace Fence.Orderly

variable {f : Fence} {last q : Nat} {owner : Nat → Option Nat} {ops : List Operation}
variable {value : Nat} {op : Operation}

/-- A work that has not been run is of a value that no queue has signalled. -/
theorem lt_of_unfinished (h : f.Orderly last owner) (hv : f.Unfinished value) : f.reached < value := by
  obtain ⟨q, hq⟩ := hv
  exact (h.order q).lt (.inl hq)

/-- A queue signals the value behind the last one that was signalled. -/
theorem signal_eq (h : f.Orderly last owner) {rest : List Operation}
    (hq : f.queues q = .signal value :: rest) : value = f.reached + 1 := by
  have horder := h.order q
  rw [hq] at horder
  exact horder.1

theorem mono (h : f.Orderly last owner) {later : Nat} (hle : last ≤ later) : f.Orderly later owner :=
  ⟨h.order, fun q => Nat.le_trans (h.level_le q) hle, h.owned⟩

/-- The operations of one queue are replaced. -/
theorem replace (h : f.Orderly last owner) (horder : InOrder f.reached ops) (hlevel : level f.reached ops ≤ last)
    (howned : ∀ value, .work value ∈ ops ∨ .signal value ∈ ops → owner value = some q) :
    Fence.Orderly { f with queues := update f.queues q ops } last owner := by
  constructor
  · intro other
    dsimp only
    by_cases ho : other = q
    · rw [ho, update_self]
      exact horder
    rw [update_of_ne ho]
    exact h.order other
  · intro other
    dsimp only
    by_cases ho : other = q
    · rw [ho, update_self]
      exact hlevel
    rw [update_of_ne ho]
    exact h.level_le other
  · intro other value hop
    dsimp only at hop
    by_cases ho : other = q
    · rw [ho, update_self] at hop
      rw [ho]
      exact howned value hop
    rw [update_of_ne ho] at hop
    exact h.owned other value hop

/-- A queue that has run its next operation, and no value is signalled. -/
theorem pop (h : f.Orderly last owner) (hq : f.queues q = op :: ops)
    (horder : InOrder f.reached ops) (hlevel : level f.reached ops = level f.reached (op :: ops)) :
    Fence.Orderly { f with queues := update f.queues q ops } last owner := by
  apply h.replace horder
  · rw [hlevel, ← hq]
    exact h.level_le q
  · intro value hop
    apply h.owned q value
    rw [hq]
    exact hop.imp (mem_cons_of_mem _) (mem_cons_of_mem _)

/-- An operation of the value behind the last one is put on the queue that owns the value. -/
theorem enqueue (h : f.Orderly last owner) (horder : InOrder (level f.reached (f.queues q)) [op])
    (hlevel : level (level f.reached (f.queues q)) [op] ≤ last)
    (howned : ∀ value, op = .work value ∨ op = .signal value → owner value = some q) :
    (f.enqueue q op).Orderly last owner := by
  apply h.replace
  · exact (inOrder_append _).mpr ⟨h.order q, horder⟩
  · rw [level_snoc]
    exact hlevel
  · intro value hop
    rcases hop with hop | hop <;> rcases mem_append.mp hop with hop | hop
    · exact h.owned q value (.inl hop)
    · exact howned value (.inl (mem_singleton.mp hop).symm)
    · exact h.owned q value (.inr hop)
    · exact howned value (.inr (mem_singleton.mp hop).symm)

/-- A queue signals. No other queue has works or signals of the value. -/
theorem signal (h : f.Orderly last owner) (hq : f.queues q = .signal value :: ops) : Fence.Orderly
      { f.signal value with reached := value, queues := update f.queues q ops } last owner := by
  have hvalue := h.signal_eq hq
  have horder := h.order q
  have hlevel := h.level_le q
  rw [hq] at horder hlevel
  have hseen : level f.reached (.signal value :: ops) = level value ops := by
    change level (max f.reached value) ops = _
    rw [hvalue, Nat.max_eq_right (Nat.le_succ _)]
  rw [hseen] at hlevel
  have hown : owner value = some q := h.owned q value (.inr (hq ▸ mem_cons_self))
  constructor
  · intro other
    dsimp only
    by_cases ho : other = q
    · rw [ho, update_self]
      exact horder.2
    rw [update_of_ne ho, hvalue]
    have hnone : ¬ (.work value ∈ f.queues other ∨ .signal value ∈ f.queues other) :=
      fun hop => ho (Option.some.inj ((h.owned other value hop).symm.trans hown))
    rw [hvalue, not_or] at hnone
    exact (h.order other).succ hnone
  · intro other
    dsimp only
    by_cases ho : other = q
    · rw [ho, update_self]
      exact hlevel
    have hmax := level_max f.reached value (f.queues other)
    have hsucc : max f.reached value = value := by omega
    rw [hsucc] at hmax
    rw [update_of_ne ho, hmax]
    exact Nat.max_le.mpr ⟨h.level_le other, Nat.le_trans le_level hlevel⟩
  · intro other v hop
    dsimp only at hop
    by_cases ho : other = q
    · rw [ho, update_self] at hop
      rw [ho]
      apply h.owned q v
      rw [hq]
      exact hop.imp (mem_cons_of_mem _) (mem_cons_of_mem _)
    rw [update_of_ne ho] at hop
    exact h.owned other v hop

/-- A queue goes on, and passes no wait for a value that no queue has signalled. -/
theorem advance (h : f.Orderly last owner)
    (hpass : ∀ value rest, f.queues q = .wait value :: rest → value ≤ f.completed →
      value ≤ f.reached) : (f.advance q).Orderly last owner := by
  unfold Fence.advance
  split
  · exact h
  · rename_i value rest hq
    split
    · rename_i hle
      have hmax : max f.reached value = f.reached := Nat.max_eq_left (hpass value rest hq hle)
      have horder := h.order q
      rw [hq] at horder
      unfold InOrder at horder
      rw [hmax] at horder
      refine h.pop hq horder ?_
      change _ = level (max f.reached value) rest
      rw [hmax]
    · exact h
  · rename_i value rest hq
    have horder := h.order q
    rw [hq] at horder
    exact h.pop hq horder.2 rfl
  rename_i value rest hq
  exact h.signal hq

/-- What a queue will have seen at its end does not get less. -/
theorem level_le_advance (h : f.Orderly last owner)
    (hpass : ∀ value rest, f.queues q = .wait value :: rest → value ≤ f.completed → value ≤ f.reached) (other : Nat) :
    level f.reached (f.queues other) ≤ level (f.advance q).reached ((f.advance q).queues other) := by
  unfold Fence.advance
  split
  · exact Nat.le_refl _
  · rename_i value rest hq
    split
    · rename_i hle
      dsimp only
      by_cases ho : other = q
      · have hmax : max f.reached value = f.reached := Nat.max_eq_left (hpass value rest hq hle)
        have hq' : level f.reached (f.queues q) = level f.reached rest := by
          rw [hq]
          change level (max f.reached value) rest = level f.reached rest
          rw [hmax]
        exact Nat.le_of_eq (by rw [ho, hq', update_self])
      · exact Nat.le_of_eq (by rw [update_of_ne ho])
    · exact Nat.le_refl _
  · rename_i value rest hq
    dsimp only
    by_cases ho : other = q
    · exact Nat.le_of_eq (by rw [ho, hq, update_self]; rfl)
    · exact Nat.le_of_eq (by rw [update_of_ne ho])
  rename_i value rest hq
  dsimp only
  have hvalue := h.signal_eq hq
  have hsucc : max f.reached value = value := by omega
  by_cases ho : other = q
  · have hq' : level f.reached (f.queues q) = level value rest := by
      rw [hq]
      change level (max f.reached value) rest = level value rest
      rw [hsucc]
    exact Nat.le_of_eq (by rw [ho, hq', update_self])
  have hmax := level_max f.reached value (f.queues other)
  rw [hsucc] at hmax
  rw [update_of_ne ho, hmax]
  exact Nat.le_max_left _ _

end Fence.Orderly

end fence_queues
