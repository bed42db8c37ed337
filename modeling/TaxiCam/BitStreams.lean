-- Numbers as bits, from the least significant end or from the most
-- significant one.
import Mathlib.Data.Nat.Bits
import Mathlib.Tactic.Ring

namespace bit_streams

/-- The `n` low bits of a number, least significant first. -/
def lsb : Nat → Nat → List Bool
  | 0, _ => []
  | n + 1, v => (v % 2 = 1) :: lsb n (v / 2)

def msb (n v : Nat) : List Bool := (lsb n v).reverse

def of_lsb : List Bool → Nat
  | [] => 0
  | b :: l => b.toNat + 2 * of_lsb l

def of_msb (l : List Bool) : Nat := of_lsb l.reverse

def byte_bits (b : UInt8) : List Bool := lsb 8 b.toNat

@[simp] theorem length_lsb (n v : Nat) : (lsb n v).length = n := by
  induction n generalizing v with
  | zero => rfl
  | succ n ih => rw [lsb, List.length_cons, ih]

@[simp] theorem length_msb (n v : Nat) : (msb n v).length = n := by
  rw [msb, List.length_reverse, length_lsb]

theorem of_lsb_lsb (n v : Nat) : of_lsb (lsb n v) = v % 2 ^ n := by
  induction n generalizing v with
  | zero => simp [lsb, of_lsb, Nat.mod_one]
  | succ n ih =>
    have hbit : (decide (v % 2 = 1)).toNat = v % 2 := by
      rcases Nat.mod_two_eq_zero_or_one v with h | h <;> simp [h]
    rw [lsb, of_lsb, ih, hbit, Nat.pow_succ, Nat.mul_comm (2 ^ n) 2, Nat.mod_mul]

variable {n v : Nat}

theorem of_lsb_small (h : v < 2 ^ n) : of_lsb (lsb n v) = v := by
  rw [of_lsb_lsb, Nat.mod_eq_of_lt h]

theorem of_msb_small (h : v < 2 ^ n) : of_msb (msb n v) = v := by
  rw [of_msb, msb, List.reverse_reverse, of_lsb_small h]

theorem lsb_add (a b v : Nat) : lsb (a + b) v = lsb a v ++ lsb b (v / 2 ^ a) := by
  induction a generalizing v with
  | zero => simp [lsb]
  | succ a ih =>
    rw [Nat.succ_add_eq_add_succ, Nat.add_succ, lsb, ih, lsb, Nat.div_div_eq_div_mul, Nat.pow_succ, Nat.mul_comm 2]
    rfl

/-- The bits above the first `n` do not count. -/
theorem lsb_mod (n v : Nat) : lsb n (v % 2 ^ n) = lsb n v := by
  induction n generalizing v with
  | zero => rfl
  | succ n ih =>
    have hmod : v % 2 ^ (n + 1) % 2 = v % 2 := by
      rw [Nat.pow_succ, Nat.mod_mul_left_mod]
    have hdiv : v % 2 ^ (n + 1) / 2 = v / 2 % 2 ^ n := by
      rw [Nat.pow_succ, Nat.mul_comm, Nat.mod_mul_right_div_self]
    rw [lsb, lsb, hmod, hdiv, ih]

/-- A number put above `n` bits. -/
theorem lsb_join {u : Nat} (hu : u < 2 ^ n) (m v : Nat) : lsb (n + m) (u + 2 ^ n * v) = lsb n u ++ lsb m v := by
  rw [lsb_add, Nat.add_mul_div_left _ _ (Nat.two_pow_pos n), Nat.div_eq_of_lt hu, Nat.zero_add,
    ← lsb_mod, Nat.add_mul_mod_self_left, Nat.mod_eq_of_lt hu]

end bit_streams
