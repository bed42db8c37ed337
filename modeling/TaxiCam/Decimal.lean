-- Natural numbers as decimal text: what is printed reads back, also before
-- other text.
import Mathlib.Data.List.TakeWhile

namespace decimal

open List

def is_digit (c : UInt8) : Bool := decide (48 ≤ c ∧ c ≤ 57)

def digit (n : Nat) : UInt8 := UInt8.ofNat (48 + n)

/-- The digits from the last one back; the fuel is more than their number. -/
def print_with : (fuel : Nat) → Nat → List UInt8
  | 0, _ => []
  | fuel + 1, n => if n < 10 then [digit n] else print_with fuel (n / 10) ++ [digit (n % 10)]

def print (n : Nat) : List UInt8 := print_with (n + 1) n

def value (text : List UInt8) : Nat := text.foldl (fun n c => 10 * n + (c.toNat - 48)) 0

variable {n : Nat}

theorem digit_toNat (h : n < 10) : (digit n).toNat = 48 + n := by
  unfold digit
  rw [UInt8.toNat_ofNat']
  omega

theorem is_digit_digit (h : n < 10) : is_digit (digit n) = true := by
  unfold is_digit
  rw [decide_eq_true_eq, UInt8.le_iff_toNat_le, UInt8.le_iff_toNat_le, digit_toNat h]
  exact ⟨Nat.le_add_right 48 n, Nat.add_le_add_left (Nat.le_of_lt_succ h) 48⟩

theorem value_snoc (text : List UInt8) (c : UInt8) : value (text ++ [c]) = 10 * value text + (c.toNat - 48) := by
  unfold value
  rw [foldl_append]
  rfl

theorem value_print_with {fuel : Nat} (h : n < fuel) : value (print_with fuel n) = n := by
  induction fuel generalizing n with
  | zero => exact absurd h (Nat.not_lt_zero n)
  | succ fuel ih =>
    rw [print_with]
    split
    · rename_i hn
      have hone := value_snoc [] (digit n)
      rw [nil_append, digit_toNat hn] at hone
      rw [hone]
      change 10 * 0 + _ = _
      omega
    rw [value_snoc, ih (by omega), digit_toNat (Nat.mod_lt n (by decide))]
    omega

/-- What is printed reads back. -/
theorem value_print (n : Nat) : value (print n) = n := value_print_with (Nat.lt_succ_self n)

theorem print_with_digits (fuel n : Nat) : ∀ c ∈ print_with fuel n, is_digit c = true := by
  induction fuel generalizing n with
  | zero => exact fun c hc => absurd hc not_mem_nil
  | succ fuel ih =>
    intro c hc
    rw [print_with] at hc
    split at hc
    · rw [mem_singleton.mp hc]
      exact is_digit_digit ‹_›
    rcases mem_append.mp hc with hc | hc
    · exact ih (n / 10) c hc
    rw [mem_singleton.mp hc]
    exact is_digit_digit (Nat.mod_lt n (by decide))

theorem print_digits (n : Nat) : ∀ c ∈ print n, is_digit c = true := print_with_digits _ n

theorem print_ne_nil (n : Nat) : print n ≠ [] := by
  unfold print
  rw [print_with]
  split <;> simp

/-- The digits at the front of a text are those that were printed there. -/
theorem takeWhile_print (n : Nat) {rest : List UInt8} (hrest : ∀ c ∈ rest.head?, is_digit c = false) :
    (print n ++ rest).takeWhile is_digit = print n ∧ (print n ++ rest).dropWhile is_digit = rest := by
  have hstop : rest.takeWhile is_digit = [] ∧ rest.dropWhile is_digit = rest := by
    cases rest with
    | nil => exact ⟨rfl, rfl⟩
    | cons c rest =>
      have hc := hrest c rfl
      exact ⟨takeWhile_cons_of_neg (by simp [hc]), dropWhile_cons_of_neg (by simp [hc])⟩
  constructor
  · rw [takeWhile_append_of_pos (print_digits n), hstop.1, append_nil]
  · rw [dropWhile_append_of_pos (print_digits n), hstop.2]

end decimal
