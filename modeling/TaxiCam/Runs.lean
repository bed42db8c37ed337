-- Runs of a step function. A system is a type of states, a type of
-- operations and one function for a step; what an operation cannot decide
-- by itself (a result of the environment) is a part of the operation.
import Mathlib.Data.List.Basic
import Mathlib.Logic.Function.Basic

namespace runs

open List

/-- Four places are not none. -/
theorem four_places : (4 : Nat) ≠ 0 := Nat.succ_ne_zero 3

/-- A row of four places has a first one; every module reads the literals of its places by this. -/
instance first_of_four : @NeZero Nat Zero.ofOfNat0 4 := ⟨four_places⟩

variable {σ α : Type}

/-- The state after the operations of `ops`, in order. -/
def run (step : σ → α → σ) (s : σ) (ops : List α) : σ := ops.foldl step s

/-- Every operation meets the guard, in the state that it finds. -/
def Guarded (step : σ → α → σ) (guard : σ → α → Prop) : σ → List α → Prop
  | _, [] => True
  | s, a :: rest => guard s a ∧ Guarded step guard (step s a) rest

instance decidable_guarded {step : σ → α → σ} {guard : σ → α → Prop}
    [∀ s a, Decidable (guard s a)] : (s : σ) → (ops : List α) → Decidable (Guarded step guard s ops)
  | _, [] => .isTrue trivial
  | s, a :: rest =>
    let _ := @decidable_guarded step guard _ (step s a) rest
    inferInstanceAs (Decidable (guard s a ∧ Guarded step guard (step s a) rest))

section
variable {step : σ → α → σ} {guard : σ → α → Prop} {s : σ}

@[simp] theorem run_nil : run step s [] = s := rfl

@[simp] theorem run_cons (a : α) (ops : List α) : run step s (a :: ops) = run step (step s a) ops := rfl

theorem run_append (ops later : List α) :
    run step s (ops ++ later) = run step (run step s ops) later := foldl_append

@[simp] theorem run_snoc (ops : List α) (a : α) : run step s (ops ++ [a]) = step (run step s ops) a := by
  rw [run_append]; rfl

theorem guarded_append (ops later : List α) :
    Guarded step guard s (ops ++ later) ↔ Guarded step guard s ops ∧ Guarded step guard (run step s ops) later := by
  induction ops generalizing s with
  | nil => simp [Guarded]
  | cons a rest ih => simp [Guarded, ih, and_assoc]

variable {ops : List α} {usual : α → Prop} {inv : σ → Prop} {other : σ → α → Prop}

theorem guarded_and (ops : List α) : Guarded step (fun s a => guard s a ∧ other s a) s ops ↔
      Guarded step guard s ops ∧ Guarded step other s ops := by
  induction ops generalizing s with
  | nil => simp [Guarded]
  | cons a rest ih =>
    simp only [Guarded, ih]
    exact and_and_and_comm

/-- A guard that looks at the operations only. -/
theorem guarded_of_forall (ops : List α) (h : ∀ a ∈ ops, usual a) : Guarded step (fun _ a => usual a) s ops := by
  induction ops generalizing s with
  | nil => exact trivial
  | cons a rest ih =>
    exact ⟨h a mem_cons_self, ih fun b hb => h b (mem_cons_of_mem _ hb)⟩

theorem run_take_succ {i : Nat} {a : α} (h : ops[i]? = some a) :
    run step s (ops.take (i + 1)) = step (run step s (ops.take i)) a := by
  rw [take_add_one, h, Option.toList_some, run_snoc]

theorem guarded_at {i : Nat} {a : α} (hg : Guarded step guard s ops)
    (h : ops[i]? = some a) : guard (run step s (ops.take i)) a := by
  have hsplit : Guarded step guard s (ops.take i ++ ops.drop i) := by
    rwa [List.take_append_drop]
  have hrest := (guarded_append _ _).mp hsplit |>.2
  obtain ⟨hi, rfl⟩ := List.getElem?_eq_some_iff.mp h
  rw [List.drop_eq_getElem_cons hi] at hrest
  exact hrest.1

/-- What one guarded step keeps, a guarded run keeps. -/
theorem guarded_invariant (hs : ∀ s a, inv s → guard s a → inv (step s a))
    (ops : List α) (h : inv s) (hg : Guarded step guard s ops) : inv (run step s ops) := by
  induction ops generalizing s with
  | nil => exact h
  | cons a rest ih => exact ih (hs s a h hg.1) hg.2

/-- A guarded run whose steps, from an invariant, meet another condition too. -/
theorem guarded_of_invariant (hs : ∀ s a, inv s → guard s a → other s a ∧ inv (step s a)) (ops : List α) (h : inv s)
    (hg : Guarded step guard s ops) : Guarded step other s ops := by
  induction ops generalizing s with
  | nil => exact trivial
  | cons a rest ih =>
    obtain ⟨hother, hnext⟩ := hs s a h hg.1
    exact ⟨hother, ih hnext hg.2⟩

/-- Where a condition is what a step needs to keep an invariant, it is what a run needs. -/
theorem guarded_exactly (hs : ∀ s a, inv s → usual a → (inv (step s a) ↔ guard s a)) (ops : List α) (h : inv s)
    (hops : ∀ a ∈ ops, usual a) :
    Guarded step (fun s a => inv (step s a)) s ops ↔ Guarded step guard s ops := by
  induction ops generalizing s with
  | nil => exact Iff.rfl
  | cons a rest ih =>
    have hone := hs s a h (hops a mem_cons_self)
    have hrest := fun hnext => ih (s := step s a) hnext fun b hb => hops b (mem_cons_of_mem _ hb)
    constructor
    · rintro ⟨hnext, hlater⟩
      exact ⟨hone.mp hnext, (hrest hnext).mp hlater⟩
    · rintro ⟨hguard, hlater⟩
      have hnext := hone.mpr hguard
      exact ⟨hnext, (hrest hnext).mpr hlater⟩

/-- What every step keeps, every run keeps. -/
theorem invariant (hs : ∀ s a, inv s → inv (step s a)) (ops : List α) (h : inv s) : inv (run step s ops) := by
  induction ops generalizing s with
  | nil => exact h
  | cons a rest ih => exact ih (hs s a h)

end

end runs
