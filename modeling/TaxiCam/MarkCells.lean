-- The cells of a mark give back the bytes that were put into them: the bits are
-- collected in the order in which they were written.
import TaxiCam.MarkRoundTrip

namespace taxi_camera.panel_marks

open Decoder List

/-! ## Bits -/

/-- A bit of the bytes, from the most significant one of the first byte. -/
def bit_of (bytes : List UInt8) (k : Nat) : Bool :=
  (bytes[k / 8]?.map fun byte => byte.toNat.testBit (7 - k % 8)).getD false

theorem bit_at_eq (bytes : List UInt8) (k : Nat) : bit_at bytes k = if bit_of bytes k then 1 else 0 := by
  rw [bit_at, bit_of]
  rcases bytes[k / 8]? with _ | byte
  · rfl
  have hshift : (7 - k % 8).toUInt32.toNat % 32 = 7 - k % 8 := by
    simp
    omega
  have hbit : ((byte.toUInt32 >>> (7 - k % 8).toUInt32) &&& 1).toNat = byte.toNat >>> (7 - k % 8) % 2 := by
    rw [UInt32.toNat_and, UInt32.toNat_shiftRight, UInt8.toNat_toUInt32, hshift]
    exact Nat.and_one_is_mod _
  have htest : byte.toNat.testBit (7 - k % 8) = decide (byte.toNat >>> (7 - k % 8) % 2 = 1) := by
    rw [Nat.testBit_eq_decide_div_mod_eq, Nat.shiftRight_eq_div_pow]
  rw [← UInt32.toNat_inj, hbit]
  simp only [Option.map_some, Option.getD_some, htest]
  rcases Nat.mod_two_eq_zero_or_one (byte.toNat >>> (7 - k % 8)) with h | h <;> simp [h]

variable {s : Bits} {a b bytes source : List UInt8} {i j k n : Nat}

theorem bit_of_append_left (h : k < 8 * a.length) : bit_of (a ++ b) k = bit_of a k := by
  rw [bit_of, bit_of, getElem?_append_left (by omega)]

theorem bit_of_past (h : 8 * bytes.length ≤ k) : bit_of bytes k = false := by
  rw [bit_of, getElem?_eq_none (by omega)]
  rfl

theorem bit_of_zeros (n k : Nat) : bit_of (replicate n 0) k = false := by
  rw [bit_of, getElem?_replicate]
  split <;> simp

theorem bit_of_getD (bytes : List UInt8) (k : Nat) :
    bit_of bytes k = (bytes.getD (k / 8) 0).toNat.testBit (7 - k % 8) := by
  rw [bit_of, getD_eq_getElem?_getD]
  rcases bytes[k / 8]? with _ | byte
  · simp
  · rfl

/-- Where the bits of a byte are the same, the byte is. -/
theorem getD_of_bits (h : ∀ j < 8, bit_of a (8 * i + j) = bit_of b (8 * i + j)) : a.getD i 0 = b.getD i 0 := by
  refine UInt8.toNat_inj.mp (Nat.eq_of_testBit_eq fun j => ?_)
  by_cases hj : j < 8
  · have hbit := h (7 - j) (by omega)
    have hdiv : (8 * i + (7 - j)) / 8 = i := by omega
    have hmod : 7 - (8 * i + (7 - j)) % 8 = j := by omega
    rwa [bit_of_getD, bit_of_getD, hdiv, hmod] at hbit
  have hpow : 2 ^ 8 ≤ 2 ^ j := Nat.pow_le_pow_right (by omega) (by omega)
  have hx := (a.getD i 0).toNat_lt
  have hy := (b.getD i 0).toNat_lt
  rw [Nat.testBit_lt_two_pow (by omega), Nat.testBit_lt_two_pow (by omega)]

/-- Bytes with the same bits are the same. -/
theorem eq_of_bits (hlength : a.length = b.length) (h : ∀ k, bit_of a k = bit_of b k) : a = b := by
  refine ext_getElem hlength fun i ha hb => ?_
  have hbyte := getD_of_bits fun j _ => h (8 * i + j)
  rwa [getD_eq_getElem _ _ ha, getD_eq_getElem _ _ hb] at hbyte

/-- Setting a bit of the array leaves the others. -/
theorem bit_of_set {byte : UInt8} (hbyte : bytes[n / 8]? = some byte)
    (k : Nat) : bit_of (bytes.set (n / 8) (byte ||| UInt8.ofNat (0x80 >>> (n % 8)))) k =
      (decide (k = n) || bit_of bytes k) := by
  have hlt : n / 8 < bytes.length := (List.getElem?_eq_some_iff.mp hbyte).1
  have hmask : (UInt8.ofNat (0x80 >>> (n % 8))).toNat = 2 ^ (7 - n % 8) := by
    have hcases : n % 8 = 0 ∨ n % 8 = 1 ∨ n % 8 = 2 ∨ n % 8 = 3 ∨ n % 8 = 4 ∨ n % 8 = 5 ∨ n % 8 = 6 ∨
        n % 8 = 7 := by omega
    rcases hcases with h | h | h | h | h | h | h | h <;> rw [h] <;> rfl
  by_cases hbyte' : k / 8 = n / 8
  · have hk : bit_of bytes k = byte.toNat.testBit (7 - k % 8) := by
      rw [bit_of, hbyte', hbyte]
      rfl
    have hsame : decide (7 - n % 8 = 7 - k % 8) = decide (k = n) := by
      rw [decide_eq_decide]
      omega
    rw [hk, bit_of, hbyte', List.getElem?_set_self hlt]
    simp only [Option.map_some, Option.getD_some]
    rw [UInt8.toNat_or, Nat.testBit_or, hmask, Nat.testBit_two_pow, hsame, Bool.or_comm]
  have hne : k ≠ n := fun h => hbyte' (by rw [h])
  rw [bit_of, List.getElem?_set_ne (fun h => hbyte' h.symm), decide_eq_false hne, Bool.false_or]
  rfl

/-! ## Collecting -/

/-- The first bits of a source are collected, and the rest is still zero. -/
structure Collected (source : List UInt8) (s : Bits) : Prop where
  length : s.bytes.length = kMaxPayload + 2
  bits : ∀ k, bit_of s.bytes k = (decide (k < s.bit) && bit_of source k)

theorem collected_none (source : List UInt8) : Collected source {} where
  length := length_replicate
  bits k := by
    rw [bit_of_zeros]
    simp

theorem Collected.read_bit (h : Collected source s) (hsource : source.length ≤ kMaxPayload + 2) {v shift : Nat}
    (hv : (v >>> shift) &&& 1 ≠ 0 ↔ bit_of source s.bit = true) :
    Collected source (read_bit v shift s) := by
  have hnext (k : Nat) : (decide (k < s.bit + 1) && bit_of source k) =
      (decide (k = s.bit) && bit_of source s.bit || bit_of s.bytes k) := by
    rw [h.bits]
    by_cases heq : k = s.bit
    · subst heq
      simp
    have hlt : decide (k < s.bit + 1) = decide (k < s.bit) := by
      rw [decide_eq_decide]
      omega
    rw [hlt, decide_eq_false heq, Bool.false_and, Bool.false_or]
  refine ⟨?_, fun k => ?_⟩
  · have hlength := h.length
    rw [Decoder.read_bit]
    split
    · split
      · rw [length_set, hlength]
      · exact hlength
    · exact hlength
  · refine Eq.trans ?_ (hnext k).symm
    rw [Decoder.read_bit]
    cases hbyte : s.bytes[s.bit / 8]? with
    | none =>
      -- Behind the array the source has no bits either.
      have hlt : s.bytes.length ≤ s.bit / 8 := getElem?_eq_none_iff.mp hbyte
      have hlength := h.length
      have hpast : bit_of source s.bit = false := bit_of_past (by omega)
      rw [hpast]
      simp
    | some byte =>
      dsimp only
      by_cases hone : bit_of source s.bit = true
      · rw [if_pos (hv.mpr hone), bit_of_set hbyte, hone, Bool.and_true]
      rw [if_neg (mt hv.mp hone), Bool.eq_false_of_not_eq_true hone]
      simp

/-- The cell of the next three bits. -/
def cell_at (source : List UInt8) (bit : Nat) : UInt8 := (cell_bits source kBitsPerCell 0 bit).1.toUInt8

theorem cell_at_bits (source : List UInt8) (bit : Nat) :
    (((cell_at source bit).toNat >>> 2) &&& 1 ≠ 0 ↔ bit_of source bit = true) ∧
      (((cell_at source bit).toNat >>> 1) &&& 1 ≠ 0 ↔ bit_of source (bit + 1) = true) ∧
      (((cell_at source bit).toNat >>> 0) &&& 1 ≠ 0 ↔ bit_of source (bit + 2) = true) := by
  change (((cell_bits source 3 0 bit).1.toUInt8.toNat >>> 2) &&& 1 ≠ 0 ↔ _) ∧
    (((cell_bits source 3 0 bit).1.toUInt8.toNat >>> 1) &&& 1 ≠ 0 ↔ _) ∧
      (((cell_bits source 3 0 bit).1.toUInt8.toNat >>> 0) &&& 1 ≠ 0 ↔ _)
  simp only [cell_bits, bit_at_eq]
  cases bit_of source bit <;> cases bit_of source (bit + 1) <;>
    cases bit_of source (bit + 1 + 1) <;> decide

theorem Collected.read_cell (h : Collected source s) (hsource : source.length ≤ kMaxPayload + 2) :
    Collected source (read_cell (cell_at source s.bit).toNat kBitsPerCell s) := by
  obtain ⟨h0, h1, h2⟩ := cell_at_bits source s.bit
  have hfirst := h.read_bit hsource h0
  have hsecond := hfirst.read_bit hsource h1
  exact hsecond.read_bit hsource h2

theorem bit_read_cell (v : Nat) (s : Bits) : (read_cell v kBitsPerCell s).bit = s.bit + 3 := rfl

theorem Collected.read_row (hsource : source.length ≤ kMaxPayload + 2)
    {sample : Nat → Int} {c : Nat} (h : Collected source s)
    (hsample : ∀ i < n, sample (c + i) = (cell_at source (s.bit + 3 * i)).toNat) :
    ∃ s', read_row sample n c s = some s' ∧ Collected source s' ∧ s'.bit = s.bit + 3 * n := by
  induction n generalizing c s with
  | zero => exact ⟨s, rfl, h, rfl⟩
  | succ n ih =>
    have hhere : sample c = (cell_at source s.bit).toNat := hsample 0 (by omega)
    obtain ⟨s', hread, hcollected, hbit⟩ := ih (h.read_cell hsource) fun i hi => by
      have hnext := hsample (i + 1) (by omega)
      have hbit : s.bit + 3 + 3 * i = s.bit + 3 * (i + 1) := by omega
      rw [bit_read_cell, show c + 1 + i = c + (i + 1) by omega, hnext, hbit]
    refine ⟨s', ?_, hcollected, ?_⟩
    · rw [read_row, hhere]
      exact (if_neg (by omega)).trans hread
    · rw [hbit, bit_read_cell]
      omega

theorem Collected.read_rows (hsource : source.length ≤ kMaxPayload + 2)
    {sample : Nat → Nat → Int} {r : Nat} (h : Collected source s)
    (hsample : ∀ j < n, ∀ i < 15, sample (r + j) (1 + i) = (cell_at source (s.bit + 45 * j + 3 * i)).toNat) :
    ∃ s', read_rows sample n r s = some s' ∧ Collected source s' ∧ s'.bit = s.bit + 45 * n := by
  induction n generalizing r s with
  | zero => exact ⟨s, rfl, h, rfl⟩
  | succ n ih =>
    obtain ⟨s1, hrow, h1, hbit1⟩ := h.read_row hsource (n := 15) (hsample 0 (by omega))
    obtain ⟨s', hread, hcollected, hbit⟩ := ih h1 fun j hj i hi => by
      have hnext := hsample (j + 1) (by omega) i hi
      have hbit : s.bit + 3 * 15 + 45 * j + 3 * i = s.bit + 45 * (j + 1) + 3 * i := by omega
      rw [hbit1, show r + 1 + j = r + (j + 1) by omega, hnext, hbit]
    refine ⟨s', ?_, hcollected, by omega⟩
    have hfirst : Decoder.read_row (sample r) (kColumns - 1) 1 s = some s1 := hrow
    rw [read_rows, hfirst]
    exact hread

/-! ## The rows of the encoder -/

theorem row_cells_eq (bytes : List UInt8) (n : Nat) (cells : List UInt8) (bit : Nat) :
    (row_cells bytes n cells bit).1 = cells ++ (range n).map fun i => cell_at bytes (bit + 3 * i) := by
  induction n generalizing cells bit with
  | zero => simp [row_cells]
  | succ n ih =>
    rw [row_cells, ih, cell_bits_next, range_succ_eq_map, map_cons, map_map,
      append_assoc, singleton_append]
    refine congrArg (fun rest => cells ++ cell_at bytes bit :: rest) (map_congr_left fun i _ => ?_)
    refine congrArg (cell_at bytes) ?_
    simp only [kBitsPerCell]
    omega

theorem data_rows_keep (bytes : List UInt8) (n r : Nat) (cells : List UInt8) (bit : Nat) :
    cells <+: data_rows bytes n r cells bit := by
  induction n generalizing r cells bit with
  | zero => exact prefix_refl _
  | succ n ih =>
    rw [data_rows]
    refine List.IsPrefix.trans ?_ (ih ..)
    rw [row_cells_eq, append_assoc]
    exact prefix_append ..

/-- The cell in row `r + j` and data column `i`. -/
theorem data_rows_cell (bytes : List UInt8) (n r : Nat) (cells : List UInt8) (bit : Nat)
    (hcells : cells.length = 16 * r) (hj : j < n) (hi : i < 15) :
    (data_rows bytes n r cells bit)[16 * (r + j) + (1 + i)]? = some (cell_at bytes (bit + 45 * j + 3 * i)) := by
  induction n generalizing r cells bit j with
  | zero => exact absurd hj (Nat.not_lt_zero _)
  | succ n ih =>
    rw [data_rows]
    generalize (if r % 2 = 1 then (0 : UInt8) else 7) = timing
    have hrow := row_cells_eq bytes (kColumns - 1) (cells ++ [timing]) bit
    have hnext : (row_cells bytes (kColumns - 1) (cells ++ [timing]) bit).2 = bit + 45 := row_cells_next ..
    have hlength : (row_cells bytes (kColumns - 1) (cells ++ [timing]) bit).1.length = 16 * (r + 1) := by
      rw [length_row_cells, length_append, hcells, length_singleton, kColumns]
      omega
    cases j with
    | zero =>
      have hin : 16 * (r + 0) + (1 + i) <
          (row_cells bytes (kColumns - 1) (cells ++ [timing]) bit).1.length := by omega
      have hcell : (row_cells bytes (kColumns - 1) (cells ++ [timing]) bit).1[16 * (r + 0) + (1 + i)]? =
          some (cell_at bytes (bit + 45 * 0 + 3 * i)) := by
        have hlength' : (cells ++ [timing]).length = 16 * r + 1 := by
          rw [length_append, hcells]
          rfl
        have hindex : 16 * (r + 0) + (1 + i) - (16 * r + 1) = i := by omega
        rw [hrow, getElem?_append_right (by omega), hlength', hindex, getElem?_map,
          getElem?_range (show i < kColumns - 1 from hi)]
        rfl
      rw [prefix_iff_getElem?.mp (data_rows_keep ..) _ hin, ← getElem?_eq_getElem hin, hcell]
    | succ j =>
      have hlater := ih (r + 1) _ (bit + 45) hlength (j := j) (by omega)
      have hbit : bit + 45 + 45 * j + 3 * i = bit + 45 * (j + 1) + 3 * i := by omega
      rw [hnext, show r + (j + 1) = r + 1 + j by omega, hlater, hbit]

/-! ## The round trip -/

/-- The cells as the decoder asks for them. -/
def grid (cells : List UInt8) (r c : Nat) : Int :=
  match cells[kColumns * r + c]? with
  | some v => v.toNat
  | none => -1

/-- The payload and its CRC in the decoder's array. -/
def checked (payload : List UInt8) : List UInt8 :=
  payload ++ word (crc16 payload) ++ List.replicate (kMaxPayload - payload.length) 0

theorem grid_encode_cells (payload : List UInt8) (hj : j < rows_for payload.length - 1)
    (hi : i < 15) : grid (encode_cells payload) (1 + j) (1 + i) =
      (cell_at (payload ++ word (crc16 payload)) (0 + 45 * j + 3 * i)).toNat := by
  have hcell := data_rows_cell (payload ++ word (crc16 payload)) (rows_for payload.length - 1) 1 kFinder 0 rfl hj hi
  rw [grid, encode_cells, kColumns, hcell]

/-- The rows of the encoder hold every bit of the payload and its CRC. -/
theorem collect_encode_cells {payload : List UInt8} (h : payload.length ≤ kMaxPayload) :
    ∃ s, read_rows (grid (encode_cells payload)) (rows_for payload.length - 1) 1 {} = some s ∧
      s.bytes = checked payload := by
  have hlength : (payload ++ word (crc16 payload)).length = payload.length + 2 := length_append
  obtain ⟨s, hread, hcollected, hbit⟩ := (collected_none (payload ++ word (crc16 payload))).read_rows
    (by omega) fun j hj i hi => grid_encode_cells payload hj hi
  refine ⟨s, hread, eq_of_bits ?_ fun k => ?_⟩
  · rw [hcollected.length, checked, length_append, length_replicate, hlength]
    omega
  · have henough : 8 * (payload.length + 2) ≤ s.bit := by
      rw [hbit, rows_for_eq]
      omega
    rw [hcollected.bits, checked]
    by_cases hk : k < 8 * (payload.length + 2)
    · rw [bit_of_append_left (a := payload ++ word (crc16 payload)) (by omega),
        decide_eq_true (by omega), Bool.true_and]
    have hzero : bit_of (payload ++ word (crc16 payload) ++
        replicate (kMaxPayload - payload.length) 0) k = false := by
      have hshift : bit_of (payload ++ word (crc16 payload) ++
          replicate (kMaxPayload - payload.length) 0) k =
            bit_of (replicate (kMaxPayload - payload.length) 0) (k - 8 * (payload.length + 2)) := by
        have hdiv : (k - 8 * (payload.length + 2)) / 8 = k / 8 - (payload.length + 2) := by omega
        have hmod : (k - 8 * (payload.length + 2)) % 8 = k % 8 := by omega
        rw [bit_of, bit_of, getElem?_append_right (by omega), hlength, hdiv, hmod]
      rw [hshift, bit_of_zeros]
    rw [hzero, bit_of_past (by omega), Bool.and_false]

theorem marks_round_trip :
    (∀ m : Mark, Legible m →
      (∃ s, read_rows (grid (encode_cells (encode_payload m))) (rows_for (encode_payload m).length - 1) 1 {} =
        some s ∧ s.bytes = checked (encode_payload m)) ∧
      parse (encode_payload m) = some (cut m)) ∧
    ∀ (b : List UInt8) (m : Mark), b.length ≤ kMaxPayload → b[0]? = some kVersion →
      b[1]? = some (UInt8.ofNat (b.length - 2)) → parse b = some m → encode_payload m = b :=
  ⟨fun m h => ⟨collect_encode_cells (length_encode_payload m).2, parse_encode h⟩,
    fun _ _ hsize hversion hlength hparse => encode_parse hsize hversion hlength hparse⟩

/-- A panel's own mark. -/
def engine_panel : Mark where
  kind := .panel
  cell := 2
  panel_width := 1024
  panel_height := 768
  name := .put name_room [69, 78, 71]

theorem engine_panel_legible : Legible engine_panel where
  kind := .inr rfl
  name := by decide +kernel
  gauge_name := by decide +kernel
  info := by decide +kernel

theorem engine_panel_round_trip :
    ((∃ s, read_rows (grid (encode_cells (encode_payload engine_panel)))
        (rows_for (encode_payload engine_panel).length - 1) 1 {} = some s ∧
          s.bytes = checked (encode_payload engine_panel)) ∧
      parse (encode_payload engine_panel) = some (cut engine_panel)) ∧
    encode_payload (cut engine_panel) = encode_payload engine_panel := by
  have hread := marks_round_trip.1 engine_panel engine_panel_legible
  exact ⟨hread, marks_round_trip.2 (encode_payload engine_panel) (cut engine_panel)
    (length_encode_payload _).2 (by decide +kernel) (by decide +kernel) hread.2⟩

end taxi_camera.panel_marks
