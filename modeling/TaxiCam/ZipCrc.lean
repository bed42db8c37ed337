-- The checksum of the archive is the one of the polynomial: a byte at a time
-- from a table, or a coefficient at a time by division.
import TaxiCam.ZipArchive
import TaxiCam.ZipFormat

namespace taxi_camera.standalone

open bit_streams zip_format List

/-! ## Turns -/

/-- What stands above the lowest bit comes down by one place. -/
theorem crc_turn_high (x y : Nat) : crc_turn (x ^^^ 2 * y) = crc_turn x ^^^ y := by
  have hlow : (x ^^^ 2 * y) &&& 1 = x &&& 1 := by
    rw [Nat.and_one_is_mod, Nat.and_one_is_mod, Nat.xor_mod_two_eq]
    omega
  have hhigh : (x ^^^ 2 * y) >>> 1 = x >>> 1 ^^^ y := by
    rw [Nat.shiftRight_xor_distrib, Nat.shiftRight_one (2 * y), Nat.mul_div_cancel_left _ (by decide)]
  unfold crc_turn
  rw [hlow, hhigh]
  split
  · rw [Nat.xor_assoc]
  · rfl

theorem crc_turns_high (n x y : Nat) : crc_turns n (x ^^^ 2 ^ n * y) = crc_turns n x ^^^ y := by
  induction n generalizing x with
  | zero => simp [crc_turns]
  | succ n ih =>
    rw [crc_turns, crc_turns, Nat.pow_succ, Nat.mul_comm (2 ^ n) 2, Nat.mul_assoc, crc_turn_high, ih]

/-- A number by its low bits and the rest. -/
theorem xor_split (n z : Nat) : z % 2 ^ n ^^^ 2 ^ n * (z / 2 ^ n) = z := by
  have hlt : z % 2 ^ n < 2 ^ n := Nat.mod_lt _ (Nat.two_pow_pos n)
  apply Nat.eq_of_testBit_eq
  intro j
  rw [Nat.testBit_xor, Nat.testBit_mod_two_pow, Nat.testBit_two_pow_mul, Nat.testBit_div_two_pow]
  by_cases hj : j < n
  · simp [hj, Nat.not_le.mpr hj]
  · simp [hj, Nat.not_lt.mp hj]

/-- The table has the turns of the low byte ready. -/
theorem crc_byte_turns (c : Nat) (b : UInt8) : crc_byte c b = crc_turns 8 (c ^^^ b.toNat) := by
  have hb : b.toNat >>> 8 = 0 := by
    rw [Nat.shiftRight_eq_div_pow]
    exact Nat.div_eq_of_lt b.toNat_lt
  have hhigh : c >>> 8 = (c ^^^ b.toNat) / 2 ^ 8 := by
    rw [← Nat.shiftRight_eq_div_pow, Nat.shiftRight_xor_distrib, hb, Nat.xor_zero]
  have hlow : (c ^^^ b.toNat) &&& 0xFF = (c ^^^ b.toNat) % 2 ^ 8 := Nat.and_two_pow_sub_one_eq_mod _ 8
  have hlt : (c ^^^ b.toNat) % 2 ^ 8 < 256 := Nat.mod_lt _ (by decide)
  have htable : crc_table.getD ((c ^^^ b.toNat) % 2 ^ 8) 0 = crc_turns 8 ((c ^^^ b.toNat) % 2 ^ 8) := by
    rw [crc_table, getD_eq_getElem _ _ (by simpa using hlt), getElem_map, getElem_range]
  rw [crc_byte, hlow, hhigh, htable, ← crc_turns_high, xor_split]

/-! ## Division -/

/-- The bits of a byte one after the other. -/
def serial : Nat → Nat → Nat → Nat
  | 0, c, _ => c
  | n + 1, c, b => serial n (crc_turn (c ^^^ b % 2)) (b / 2)

theorem turns_serial (n c b : Nat) : crc_turns n (c ^^^ b) = serial n c b ^^^ b / 2 ^ n := by
  induction n generalizing c b with
  | zero => simp [crc_turns, serial]
  | succ n ih =>
    have hsplit : c ^^^ b = c ^^^ b % 2 ^^^ 2 * (b / 2) := by
      have h := xor_split 1 b
      rw [Nat.pow_one] at h
      rw [Nat.xor_assoc, h]
    rw [crc_turns, hsplit, crc_turn_high, ih, serial, Nat.div_div_eq_div_mul, Nat.pow_succ, Nat.mul_comm 2]

theorem lsb_xor (n u v : Nat) : (lsb n u).zipWith xor (lsb n v) = lsb n (u ^^^ v) := by
  induction n generalizing u v with
  | zero => rfl
  | succ n ih =>
    have hhead : (decide (u % 2 = 1) ^^ decide (v % 2 = 1)) = decide ((u ^^^ v) % 2 = 1) := by
      rw [Nat.xor_mod_two_eq]
      rcases Nat.mod_two_eq_zero_or_one u with hu | hu <;>
        rcases Nat.mod_two_eq_zero_or_one v with hv | hv <;> simp [hu, hv] <;> omega
    rw [lsb, lsb, lsb, zipWith_cons_cons, ih, hhead, Nat.xor_div_two]

variable {c : Nat}

theorem crc_turn_lt (h : c < 2 ^ 32) : crc_turn c < 2 ^ 32 := by
  have hhalf : c >>> 1 < 2 ^ 32 := by
    rw [Nat.shiftRight_one]
    omega
  unfold crc_turn
  split
  · exact Nat.xor_lt_two_pow (by decide) hhalf
  · exact hhalf

theorem generator_eq : generator = lsb 32 0xEDB88320 := by decide +kernel

/-- A step of the division is a turn of the register. -/
theorem divide_lsb (h : c < 2 ^ 32) (bit : Bool) : divide (lsb 32 c) bit = lsb 32 (crc_turn (c ^^^ bit.toNat)) := by
  have hshift : (lsb 32 c).tail ++ [false] = lsb 32 (c / 2) := by
    have hsmall : c / 2 < 2 ^ 31 := by omega
    change lsb 31 (c / 2) ++ [false] = lsb (31 + 1) (c / 2)
    rw [lsb_add, Nat.div_eq_of_lt hsmall]
    rfl
  have hhalf : (c ^^^ bit.toNat) >>> 1 = c / 2 := by
    rw [Nat.shiftRight_xor_distrib, Nat.shiftRight_one, Nat.shiftRight_one]
    cases bit <;> simp
  have hhead : (lsb 32 c).headD false = decide (c % 2 = 1) := rfl
  have hodd : (decide (c % 2 = 1) ≠ bit) ↔ (c ^^^ bit.toNat) &&& 1 ≠ 0 := by
    rw [Nat.and_one_is_mod, Nat.xor_mod_two_eq]
    rcases Nat.mod_two_eq_zero_or_one c with hc | hc <;> cases bit <;> simp [hc] <;> omega
  unfold divide crc_turn
  rw [hshift, hhead, hhalf]
  by_cases hbit : decide (c % 2 = 1) ≠ bit
  · rw [if_pos hbit, if_pos (hodd.mp hbit), generator_eq, lsb_xor, Nat.xor_comm]
  · rw [if_neg hbit, if_neg (fun h => hbit (hodd.mpr h))]

theorem divide_bits (h : c < 2 ^ 32) (n b : Nat) :
    (lsb n b).foldl divide (lsb 32 c) = lsb 32 (serial n c b) ∧ serial n c b < 2 ^ 32 := by
  induction n generalizing c b with
  | zero => exact ⟨rfl, h⟩
  | succ n ih =>
    have hbit : (decide (b % 2 = 1)).toNat = b % 2 := by
      rcases Nat.mod_two_eq_zero_or_one b with hb | hb <;> simp [hb]
    have hlt : c ^^^ b % 2 < 2 ^ 32 := Nat.xor_lt_two_pow h (by omega)
    change (decide (b % 2 = 1) :: lsb n (b / 2)).foldl divide (lsb 32 c) = _ ∧ _
    rw [foldl_cons, divide_lsb h, hbit, serial]
    exact ih (crc_turn_lt hlt) _

theorem divide_byte (h : c < 2 ^ 32) (b : UInt8) :
    (byte_bits b).foldl divide (lsb 32 c) = lsb 32 (crc_byte c b) ∧ crc_byte c b < 2 ^ 32 := by
  have hall : b.toNat / 2 ^ 8 = 0 := Nat.div_eq_of_lt b.toNat_lt
  rw [crc_byte_turns, turns_serial, hall, Nat.xor_zero]
  exact divide_bits h 8 b.toNat

theorem divide_data (h : c < 2 ^ 32) (data : List UInt8) :
    (data.flatMap byte_bits).foldl divide (lsb 32 c) = lsb 32 (data.foldl crc_byte c) ∧
      data.foldl crc_byte c < 2 ^ 32 := by
  induction data generalizing c with
  | nil => exact ⟨rfl, h⟩
  | cons b data ih =>
    obtain ⟨hbits, hlt⟩ := divide_byte h b
    rw [flatMap_cons, foldl_append, hbits]
    exact ih hlt

theorem lsb_not {n v : Nat} : (lsb n v).map not = lsb n (v ^^^ (2 ^ n - 1)) := by
  have hones : ∀ n, lsb n (2 ^ n - 1) = replicate n true := by
    intro n
    induction n with
    | zero => rfl
    | succ n ih =>
      have hpos := Nat.two_pow_pos n
      have hhalf : (2 ^ (n + 1) - 1) / 2 = 2 ^ n - 1 := by
        rw [Nat.pow_succ]
        omega
      have hodd : (2 ^ (n + 1) - 1) % 2 = 1 := by
        rw [Nat.pow_succ]
        omega
      rw [lsb, hhalf, ih, hodd]
      rfl
  rw [← lsb_xor, hones]
  generalize hl : lsb n v = l
  have hlength : l.length = n := by rw [← hl, length_lsb]
  subst hlength
  clear hl
  induction l with
  | nil => rfl
  | cons b l ih =>
    rw [map_cons, length_cons, replicate_succ, zipWith_cons_cons, ← ih, Bool.xor_true]

/-- The two checksums. -/
theorem zip_crc32_eq (data : List UInt8) : zip_crc32 data = crc32 data ∧ zip_crc32 data < 2 ^ 32 := by
  have hstart : replicate 32 true = lsb 32 0xFFFFFFFF := by decide +kernel
  obtain ⟨hbits, hlt⟩ := divide_data (show 0xFFFFFFFF < 2 ^ 32 by decide) data
  have hsmall : zip_crc32 data < 2 ^ 32 := Nat.xor_lt_two_pow hlt (by decide)
  refine ⟨?_, hsmall⟩
  rw [crc32, hstart, hbits, lsb_not]
  exact (of_lsb_small hsmall).symm

end taxi_camera.standalone
