-- What the bit writer appends: numbers from their least significant bit,
-- codes from their most significant one, and the codes of RFC 1951.
import TaxiCam.Deflate
import TaxiCam.Rfc1951

namespace taxi_camera.standalone.deflate_detail

open bit_streams rfc1951 lz77 List

namespace BitWriter

variable {w : BitWriter} {value n : Nat}

/-- The bits written so far, those of the buffer with them. -/
def bits (w : BitWriter) : List Bool := w.out.flatMap byte_bits ++ lsb w.count w.buffer

/-- The buffer holds its bits and no other one, and no whole byte. -/
structure Ready (w : BitWriter) : Prop where
  small : w.buffer < 2 ^ w.count
  partial_byte : w.count < 8

theorem byte_bits_low (b : Nat) : byte_bits (UInt8.ofNat (b &&& 0xFF)) = lsb 8 b := by
  rw [byte_bits, UInt8.toNat_ofNat', Nat.and_two_pow_sub_one_eq_mod b 8, Nat.mod_mod, lsb_mod]

theorem flush_spec (h : w.buffer < 2 ^ w.count) : w.flush.Ready ∧ w.flush.bits = w.bits := by
  induction w using flush.induct with
  | case1 w hfull ih =>
    obtain ⟨k, hk⟩ := Nat.exists_eq_add_of_le hfull
    have hsmall : w.buffer >>> 8 < 2 ^ (w.count - 8) := by
      rw [Nat.shiftRight_eq_div_pow, Nat.div_lt_iff_lt_mul (by decide), ← Nat.pow_add]
      rwa [Nat.sub_add_cancel hfull]
    obtain ⟨hready, hbits⟩ := ih hsmall
    have hlow := byte_bits_low w.buffer
    rw [flush, dif_pos hfull]
    refine ⟨hready, hbits.trans ?_⟩
    rw [bits, bits, hk, lsb_add, flatMap_append, flatMap_singleton, hlow,
      Nat.add_sub_cancel_left, Nat.shiftRight_eq_div_pow, append_assoc]
  | case2 w hfull =>
    rw [flush, dif_neg hfull]
    exact ⟨⟨h, by omega⟩, rfl⟩

theorem Ready.put (h : w.Ready) (hvalue : value < 2 ^ n) :
    (w.put value n).Ready ∧ (w.put value n).bits = w.bits ++ lsb n value := by
  have hjoin : w.buffer ||| value <<< w.count = w.buffer + 2 ^ w.count * value := by
    rw [Nat.or_comm, ← Nat.shiftLeft_add_eq_or_of_lt h.small, Nat.shiftLeft_eq, Nat.add_comm, Nat.mul_comm]
  have hsmall : w.buffer ||| value <<< w.count < 2 ^ (w.count + n) := by
    have hmul : 2 ^ w.count * (value + 1) ≤ 2 ^ w.count * 2 ^ n := Nat.mul_le_mul_left _ hvalue
    have := h.small
    rw [hjoin, Nat.pow_add]
    rw [Nat.mul_add] at hmul
    omega
  obtain ⟨hready, hbits⟩ := flush_spec
    (w := { w with buffer := w.buffer ||| value <<< w.count, count := w.count + n }) hsmall
  refine ⟨hready, hbits.trans ?_⟩
  simp only [bits, hjoin, lsb_join h.small, append_assoc]

/-! ## Reversed codes -/

theorem getElem_lsb {j : Nat} (hj : j < (lsb n value).length) : (lsb n value)[j] = value.testBit j := by
  induction n generalizing value j with
  | zero => cases hj
  | succ n ih =>
    cases j with
    | zero =>
      rw [Nat.testBit_zero]
      rfl
    | succ j =>
      rw [Nat.testBit_succ]
      exact ih (by simpa using hj)

theorem testBit_reverse_bits {i j : Nat} (hi : i ≤ n) :
    (reverse_bits value n i).testBit j = (decide (j < n ∧ n ≤ i + j) && value.testBit (n - 1 - j)) := by
  induction i with
  | zero =>
    have hno : ¬ (j < n ∧ n ≤ 0 + j) := by omega
    rw [reverse_bits, Nat.zero_testBit, decide_eq_false hno, Bool.false_and]
  | succ i ih =>
    have hlast : (((value >>> i) &&& 1) <<< (n - 1 - i)).testBit j = (decide (j = n - 1 - i) && value.testBit i) := by
      rw [Nat.testBit_shiftLeft, Nat.testBit_and, Nat.testBit_shiftRight]
      by_cases hj : j = n - 1 - i
      · subst hj
        simp
      by_cases hle : j ≥ n - 1 - i
      · have hpos : j - (n - 1 - i) ≠ 0 := by omega
        have hone : Nat.testBit 1 (j - (n - 1 - i)) = false :=
          Bool.eq_false_iff.mpr fun h => hpos (Nat.testBit_one_eq_true_iff_self_eq_zero.mp h)
        simp [hj, hone]
      · simp [hj, hle]
    rw [reverse_bits, Nat.testBit_or, ih (by omega), hlast]
    by_cases hj : j = n - 1 - i
    · have hsame : n - 1 - j = i := by omega
      have hnew : j < n ∧ n ≤ i + 1 + j := by omega
      have hold : ¬ (j < n ∧ n ≤ i + j) := by omega
      rw [decide_eq_true hnew, decide_eq_false hold, decide_eq_true hj, hsame, Bool.false_and, Bool.false_or]
    have hiff : (j < n ∧ n ≤ i + 1 + j) ↔ (j < n ∧ n ≤ i + j) := by omega
    simp [hj, hiff]

theorem reverse_bits_eq (value n : Nat) :
    reverse_bits value n n < 2 ^ n ∧ lsb n (reverse_bits value n n) = msb n value := by
  constructor
  · apply Nat.lt_pow_two_of_testBit
    intro j hj
    have hno : ¬ (j < n ∧ n ≤ n + j) := by omega
    rw [testBit_reverse_bits (Nat.le_refl n), decide_eq_false hno, Bool.false_and]
  · rw [msb]
    refine ext_getElem (by simp) fun j hj hj' => ?_
    rw [length_lsb] at hj
    have hin : j < n ∧ n ≤ n + j := ⟨hj, Nat.le_add_right n j⟩
    rw [getElem_lsb, testBit_reverse_bits (Nat.le_refl n), decide_eq_true hin, Bool.true_and,
      getElem_reverse, getElem_lsb, length_lsb]

theorem Ready.code (h : w.Ready) (value n : Nat) :
    (w.code value n).Ready ∧ (w.code value n).bits = w.bits ++ msb n value := by
  obtain ⟨hsmall, heq⟩ := reverse_bits_eq value n
  obtain ⟨hready, hbits⟩ := h.put hsmall
  rw [heq] at hbits
  exact ⟨hready, hbits⟩

/-- The writer's codes are those of the RFC. -/
theorem Ready.symbol (h : w.Ready) (value : Nat) :
    (w.symbol value).Ready ∧ (w.symbol value).bits = w.bits ++ fixed_code value := by
  unfold BitWriter.symbol fixed_code
  split
  · exact h.code ..
  split
  · rw [Nat.add_sub_assoc (by omega)]
    exact h.code ..
  split
  · exact h.code ..
  rw [Nat.add_sub_assoc (by omega)]
  exact h.code ..

/-- The last byte is filled up with zeros. -/
theorem Ready.finish (h : w.Ready) :
    ∃ padding, w.finish.out.flatMap byte_bits = w.bits ++ padding ∧ padding.length < 8 := by
  have hpartial := h.partial_byte
  unfold BitWriter.finish
  by_cases hcount : w.count = 0
  · refine ⟨[], ?_, by decide⟩
    rw [if_neg (not_not.mpr hcount), bits, hcount]
    simp [lsb]
  refine ⟨lsb (8 - w.count) (w.buffer / 2 ^ w.count), ?_, by rw [length_lsb]; omega⟩
  rw [if_pos hcount, flatMap_append, flatMap_singleton, byte_bits_low, bits,
    append_assoc, ← lsb_add, Nat.add_sub_cancel' (Nat.le_of_lt hpartial)]

theorem ready_new : ({} : BitWriter).Ready ∧ ({} : BitWriter).bits = [] := ⟨⟨by decide, by decide⟩, rfl⟩

end BitWriter

end taxi_camera.standalone.deflate_detail
