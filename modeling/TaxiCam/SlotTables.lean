-- Tables of a fixed number of places that are searched from the front. A place
-- holds a key, and one of the keys stands for a free place.
import Mathlib.Algebra.BigOperators.Group.Finset.Piecewise
import Mathlib.Data.Fintype.Fin
import Mathlib.Data.List.FinRange

namespace slot_tables

open Function (update_of_ne update_self)
open Function (update)

variable {n : Nat} {κ : Type}

/-! ## The first place -/

/-- The first place that meets a test. -/
def first (test : Fin n → Bool) : Option (Fin n) := (List.finRange n).find? test

section
variable {test other : Fin n → Bool} {i : Fin n}

theorem first_some (h : first test = some i) : test i = true := List.find?_some h

theorem first_none : first test = none ↔ ∀ i, test i = false := by
  unfold first
  simp [List.find?_eq_none]

theorem first_isSome (h : test i = true) : ∃ j, first test = some j := by
  cases hfirst : first test with
  | some j => exact ⟨j, rfl⟩
  | none =>
    rw [first_none.mp hfirst i] at h
    cases h

theorem first_unique (h : test i = true) (hother : ∀ j, test j = true → j = i) : first test = some i := by
  obtain ⟨j, hj⟩ := first_isSome h
  rw [hj, hother j (first_some hj)]

end

/-! ## Keys that stand apart -/

variable {free : κ} {keys : Fin n → κ} {k x : κ} {i j : Fin n}

/-- No key but the free one stands in two places. -/
def Apart (free : κ) (keys : Fin n → κ) : Prop := ∀ i j, keys i = keys j → keys i ≠ free → i = j

def Holds (keys : Fin n → κ) (k : κ) : Prop := ∃ i, keys i = k

theorem Apart.empty : Apart free fun _ : Fin n => free := fun _ _ _ h => absurd rfl h

theorem Apart.put (h : Apart free keys) (hk : k = free ∨ ¬Holds keys k) : Apart free (update keys i k) := by
  have hnew : ∀ j, k = keys j → k ≠ free → False := by
    rintro j hj hne
    rcases hk with rfl | hnot
    · exact hne rfl
    · exact hnot ⟨j, hj.symm⟩
  intro a b hab ha
  by_cases hai : a = i
  · by_cases hbi : b = i
    · rw [hai, hbi]
    rw [hai, update_self, update_of_ne hbi] at hab
    rw [hai, update_self] at ha
    exact (hnew b hab ha).elim
  rw [update_of_ne hai] at hab ha
  by_cases hbi : b = i
  · rw [hbi, update_self] at hab
    exact (hnew a hab.symm (by rwa [← hab])).elim
  rw [update_of_ne hbi] at hab
  exact h a b hab ha

theorem holds_put (h : keys i ≠ x) : Holds (update keys i k) x ↔ k = x ∨ Holds keys x := by
  constructor
  · rintro ⟨j, hj⟩
    by_cases hji : j = i
    · rw [hji, update_self] at hj
      exact .inl hj
    rw [update_of_ne hji] at hj
    exact .inr ⟨j, hj⟩
  · rintro (rfl | ⟨j, hj⟩)
    · exact ⟨i, update_self ..⟩
    · refine ⟨j, ?_⟩
      rw [update_of_ne, hj]
      rintro rfl
      exact h hj

/-- What stood in a place stands nowhere once the place holds another key. -/
theorem Apart.gone (h : Apart free keys) (hi : keys i ≠ free) (hk : k ≠ keys i) :
    ¬Holds (update keys i k) (keys i) := by
  rintro ⟨j, hj⟩
  by_cases hji : j = i
  · rw [hji, update_self] at hj
    exact hk hj
  rw [update_of_ne hji] at hj
  exact hji (h j i hj (by rwa [hj]))

variable [DecidableEq κ]

/-- The place of a key. -/
def place (keys : Fin n → κ) (k : κ) : Option (Fin n) := first fun i => keys i = k

theorem place_some (h : place keys k = some i) : keys i = k := of_decide_eq_true (first_some h)

theorem place_none : place keys k = none ↔ ¬Holds keys k := by
  unfold place Holds
  simp [first_none]

theorem Apart.place (h : Apart free keys) (hi : keys i = k) (hk : k ≠ free) : place keys k = some i := by
  apply first_unique (decide_eq_true hi)
  intro j hj
  have hkeys : keys j = keys i := (of_decide_eq_true hj).trans hi.symm
  apply h j i hkeys
  rw [hkeys, hi]
  exact hk

/-! ## Places that are taken -/

/-- The number of the places that are not free. -/
def occupied (free : κ) (keys : Fin n → κ) : Nat := ∑ i, if keys i ≠ free then 1 else 0

theorem occupied_empty : occupied free (fun _ : Fin n => free) = 0 := by
  unfold occupied
  simp

theorem occupied_put : occupied free (update keys i k) =
    occupied free keys - (if keys i ≠ free then 1 else 0) + if k ≠ free then 1 else 0 := by
  have hupdate : (fun j => if update keys i k j ≠ free then 1 else 0) =
      update (fun j => if keys j ≠ free then 1 else 0) i (if k ≠ free then 1 else 0) := by
    funext j
    by_cases hj : j = i
    · rw [hj, update_self, update_self]
    · rw [update_of_ne hj, update_of_ne hj]
  have hsplit := Finset.sum_erase_add Finset.univ (fun j => if keys j ≠ free then 1 else 0) (Finset.mem_univ i)
  unfold occupied
  rw [hupdate, Finset.sum_update_of_mem (Finset.mem_univ i), Finset.sdiff_singleton_eq_erase, ← hsplit]
  omega

theorem occupied_eq_zero : occupied free keys = 0 ↔ ∀ i, keys i = free := by
  unfold occupied
  simp [Finset.sum_eq_zero_iff]

end slot_tables
