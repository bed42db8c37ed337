-- Turns handed around in a circle of places: how often each place has had one.
import Mathlib.Data.Int.CardIntervalMod

namespace rotations

variable {n p q turns more : Nat}

/-- How many of the first `turns` turns the place `p` of `n` has had. -/
def served (n p turns : Nat) : Nat := Nat.count (fun turn => turn % n = p) turns

@[simp] theorem served_zero : served n p 0 = 0 := Nat.count_zero _

theorem served_eq (hp : p < n) (turns : Nat) : served n p turns = turns / n + if p < turns % n then 1 else 0 := by
  have hcount := Nat.count_modEq_card turns (Nat.zero_lt_of_lt hp) p
  rw [Nat.mod_eq_of_lt hp] at hcount
  rw [← hcount, served, Nat.count_eq_card_filter_range, Nat.count_eq_card_filter_range]
  refine congrArg Finset.card (Finset.filter_congr fun turn _ => ?_)
  rw [Nat.ModEq, Nat.mod_eq_of_lt hp]

/-- No place is ahead of another by more than one turn. -/
theorem served_close (hp : p < n) (hq : q < n) (turns : Nat) : served n p turns ≤ served n q turns + 1 := by
  rw [served_eq hp, served_eq hq]
  split <;> split <;> omega

/-- Turns that are not more than the places go to different places. -/
theorem turn_injective {a b : Nat} (ha : a < n) (hb : b < n) (h : (turns + a) % n = (turns + b) % n) : a = b := by
  have hmod : turns + a ≡ turns + b [MOD n] := h
  have hsame := Nat.ModEq.add_left_cancel' turns hmod
  rwa [Nat.ModEq, Nat.mod_eq_of_lt ha, Nat.mod_eq_of_lt hb] at hsame

/-- Some more turns, at most one for each place, go to the places that follow. -/
theorem served_add (hmore : more ≤ n) :
    served n p (turns + more) = served n p turns + if ∃ k < more, (turns + k) % n = p then 1 else 0 := by
  rw [served, Nat.count_add, ← served]
  congr 1
  rw [Nat.count_eq_card_filter_range]
  split
  · rename_i hserved
    obtain ⟨k, hk, hplace⟩ := hserved
    refine Finset.card_eq_one.mpr ⟨k, Finset.ext fun j => ?_⟩
    rw [Finset.mem_filter, Finset.mem_range, Finset.mem_singleton]
    constructor
    · rintro ⟨hj, hsame⟩
      exact turn_injective (by omega) (by omega) (hsame.trans hplace.symm)
    · rintro rfl
      exact ⟨hk, hplace⟩
  rename_i hnone
  refine Finset.card_eq_zero.mpr (Finset.filter_eq_empty_iff.mpr fun k hk hplace => hnone ?_)
  exact ⟨k, Finset.mem_range.mp hk, hplace⟩

end rotations
