-- The bitwise operators of the page script on whole numbers: each takes its
-- operands to 32 bits and its result back to a signed number. On numbers below
-- 2^31 they are the operators on natural numbers.
import Mathlib.Data.Nat.Bitwise

namespace script

def int32 (x : Int) : BitVec 32 := BitVec.ofInt 32 x

def band (a b : Int) : Int := (int32 a &&& int32 b).toInt

def bor (a b : Int) : Int := (int32 a ||| int32 b).toInt

def bxor (a b : Int) : Int := (int32 a ^^^ int32 b).toInt

/-- Only the low five bits of the count matter. -/
def shl (a n : Int) : Int := (int32 a <<< (n % 32).toNat).toInt

def shr (a n : Int) : Int := ((int32 a).sshiftRight (n % 32).toNat).toInt

/-- A natural number that 32 bits hold with their sign. -/
def InRange (a : Nat) : Prop := a < 0x80000000

instance (a : Nat) : Decidable (InRange a) := inferInstanceAs (Decidable (a < 0x80000000))

section
variable {a b n : Nat}

theorem toNat_int32 (h : InRange a) : (int32 a).toNat = a := by
  unfold InRange at h
  rw [int32, BitVec.ofInt_natCast, BitVec.toNat_ofNat]
  omega

theorem toInt_of_toNat {v : BitVec 32} (hv : v.toNat = a) (h : InRange a) : v.toInt = a := by
  unfold InRange at h
  rw [BitVec.toInt_eq_toNat_of_lt (by rw [hv]; omega), hv]

theorem band_natCast (ha : InRange a) (hb : InRange b) : band a b = (a &&& b : Nat) := by
  have hle : a &&& b ≤ a := Nat.and_le_left
  apply toInt_of_toNat _ (Nat.lt_of_le_of_lt hle ha)
  rw [BitVec.toNat_and, toNat_int32 ha, toNat_int32 hb]

theorem in_range_xor (ha : InRange a) (hb : InRange b) : InRange (a ^^^ b) := Nat.xor_lt_two_pow (n := 31) ha hb

theorem bxor_natCast (ha : InRange a) (hb : InRange b) : bxor a b = (a ^^^ b : Nat) := by
  apply toInt_of_toNat _ (in_range_xor ha hb)
  rw [BitVec.toNat_xor, toNat_int32 ha, toNat_int32 hb]

theorem count_natCast (hn : n < 32) : ((n : Int) % 32).toNat = n := by omega

theorem shl_natCast (ha : InRange a) (hn : n < 32) (h : InRange (a <<< n)) : shl a n = (a <<< n : Nat) := by
  rw [shl, count_natCast hn]
  apply toInt_of_toNat _ h
  unfold InRange at h
  rw [BitVec.toNat_shiftLeft, toNat_int32 ha, Nat.mod_eq_of_lt (by omega)]

theorem shr_natCast (ha : InRange a) (hn : n < 32) : shr a n = (a >>> n : Nat) := by
  rw [shr, count_natCast hn]
  have hle : a >>> n ≤ a := Nat.shiftRight_le ..
  apply toInt_of_toNat _ (Nat.lt_of_le_of_lt hle ha)
  have hmsb : (int32 a).msb = false := by
    unfold InRange at ha
    rw [BitVec.msb_eq_decide, toNat_int32 ha, decide_eq_false_iff_not]
    omega
  rw [BitVec.sshiftRight_eq_of_msb_false hmsb, BitVec.toNat_ushiftRight, toNat_int32 ha]

end

end script
