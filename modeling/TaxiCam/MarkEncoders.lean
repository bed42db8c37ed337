-- The two encoders of the panel marks agree: the page script and the bridge
-- build the same payload bytes and the same cells from the same mark.
import TaxiCam.PanelMarks
import TaxiCam.MarkScript
import Mathlib.Data.Rat.Floor
import Mathlib.Tactic.Linarith

namespace taxi_camera.panel_marks

open script List

/-! ## Bytes as numbers of the script -/

def num (b : UInt8) : Int := b.toNat

def nums (l : List UInt8) : List Int := l.map num

theorem nums_append (l l' : List UInt8) : nums (l ++ l') = nums l ++ nums l' := map_append

theorem length_nums (l : List UInt8) : (nums l).length = l.length := length_map ..

theorem in_range_of_lt {a b : Nat} (h : a < b) (hb : b ≤ 0x80000000) : InRange a := Nat.lt_of_lt_of_le h hb

theorem in_range_byte (b : UInt8) : InRange b.toNat := in_range_of_lt b.toNat_lt (by decide)

theorem in_range_word (v : UInt16) : InRange v.toNat := in_range_of_lt v.toNat_lt (by decide)

/-! ## The CRC -/

theorem crc_bit_agrees (crc : UInt16) : taxi_cam_marks.crc_bit crc.toNat = (crc_bit crc).toNat := by
  have hlt : crc.toNat < 65536 := crc.toNat_lt
  have hsmall : InRange (crc.toNat <<< 1) := by
    unfold InRange
    omega
  have hand : band crc.toNat 0x8000 = (crc.toNat &&& 0x8000 : Nat) :=
    band_natCast (in_range_word crc) (by decide : InRange 0x8000)
  have hshl : shl crc.toNat 1 = (crc.toNat <<< 1 : Nat) := shl_natCast (in_range_word crc) (by decide) hsmall
  have hxor : bxor (crc.toNat <<< 1 : Nat) 0x1021 = ((crc.toNat <<< 1) ^^^ 0x1021 : Nat) :=
    bxor_natCast hsmall (by decide : InRange 0x1021)
  have hcond : band crc.toNat 0x8000 ≠ 0 ↔ crc &&& 0x8000 ≠ 0 := by
    rw [hand, ne_eq, ne_eq, ← UInt16.toNat_inj, UInt16.toNat_and]
    simp
  have hmask {a : Nat} (ha : InRange a) : band a 0xffff = (a % 65536 : Nat) := by
    have h := band_natCast ha (by decide : InRange 0xffff)
    rw [Nat.and_two_pow_sub_one_eq_mod a 16] at h
    exact h
  have hwide : (crc.toUInt32 <<< 1).toNat = crc.toNat <<< 1 := by
    simp
    omega
  unfold taxi_cam_marks.crc_bit crc_bit
  rw [hshl]
  by_cases hbit : crc &&& 0x8000 ≠ 0
  · rw [if_pos (hcond.mpr hbit), if_pos hbit, hxor, hmask (in_range_xor hsmall (by decide)),
      UInt32.toNat_toUInt16, UInt32.toNat_xor, hwide]
    rfl
  · rw [if_neg (fun h => hbit (hcond.mp h)), if_neg hbit, hmask hsmall, UInt32.toNat_toUInt16, hwide]

theorem crc_bits_agrees (n : Nat) (crc : UInt16) : taxi_cam_marks.crc_bits n crc.toNat = (crc_bits n crc).toNat := by
  induction n generalizing crc with
  | zero => simp [crc_bits, taxi_cam_marks.crc_bits]
  | succ n ih => rw [taxi_cam_marks.crc_bits, crc_bit_agrees, ih, crc_bits]

theorem crc_byte_agrees (crc : UInt16) (byte : UInt8) :
    taxi_cam_marks.crc_byte crc.toNat (num byte) = (crc_byte crc byte).toNat := by
  have hlt : byte.toNat < 256 := byte.toNat_lt
  have hsmall : InRange (byte.toNat <<< 8) := by
    unfold InRange
    omega
  have hshl : shl (num byte) 8 = (byte.toNat <<< 8 : Nat) := shl_natCast (in_range_byte byte) (by decide) hsmall
  have hxor : bxor crc.toNat (byte.toNat <<< 8 : Nat) = (crc.toNat ^^^ byte.toNat <<< 8 : Nat) :=
    bxor_natCast (in_range_word crc) hsmall
  have hwide : (byte.toUInt32 <<< 8).toUInt16.toNat = byte.toNat <<< 8 := by
    simp
    omega
  unfold taxi_cam_marks.crc_byte crc_byte
  rw [hshl, hxor, ← crc_bits_agrees, UInt16.toNat_xor, hwide]

theorem crc16_agrees (bytes : List UInt8) : taxi_cam_marks.crc16 (nums bytes) = (crc16 bytes).toNat := by
  have hfold (crc : UInt16) : (nums bytes).foldl taxi_cam_marks.crc_byte crc.toNat =
      (bytes.foldl crc_byte crc).toNat := by
    induction bytes generalizing crc with
    | nil => simp [nums]
    | cons b rest ih =>
      rw [nums, map_cons, foldl_cons, crc_byte_agrees, ← nums, ih, foldl_cons]
  exact hfold 0xffff

/-! ## The row count -/

theorem rows_for_eq (payload : Nat) : rows_for payload = 1 + ((payload + 2) * 8 + 45 - 1) / 45 := rfl

/-- The ceiling of the script is the division of the bridge. -/
theorem rows_for_agrees (payload : Nat) : taxi_cam_marks.rows_for payload = rows_for payload := by
  have hceil : ((((payload + 2) * 8 : Int) : Rat) / 45).ceil = (((payload + 2) * 8 + 45 - 1) / 45 : Nat) := by
    generalize hq : ((payload + 2) * 8 + 45 - 1) / 45 = q
    have hq45 : (0 : Rat) < 45 := by norm_num
    apply le_antisymm
    · rw [Rat.ceil_le_iff, div_le_iff₀ hq45]
      have hle : (((payload : Int) + 2) * 8) ≤ (q : Int) * 45 := by omega
      exact_mod_cast hle
    · have hlt : ((q : Int) - 1) < ((((payload + 2) * 8 : Int) : Rat) / 45).ceil := by
        rw [Rat.lt_ceil_iff, lt_div_iff₀ hq45]
        have hlt : ((q : Int) - 1) * 45 < ((payload : Int) + 2) * 8 := by omega
        exact_mod_cast hlt
      omega
  rw [taxi_cam_marks.rows_for, rows_for_eq]
  rw [show ((taxi_cam_marks.ROW_BITS : Int) : Rat) = 45 by rfl, hceil]
  rfl

/-! ## The payload -/

theorem length_text (s : List UInt8) (limit : Nat) : (text s limit).length = 1 + min s.length limit := by
  unfold text
  rw [length_cons, length_take]
  split <;> omega

/-- What stands before the info text. -/
def fields (m : Mark) : List UInt8 :=
  [kVersion, 0, m.kind.value, m.cell, m.gauge] ++
    [m.x, m.y, m.width, m.height, m.panel_width, m.panel_height].flatMap word ++
    text m.name.chars (48 - 1) ++ text m.gauge_name.chars (48 - 1)

/-- How much of the info text the payload has room for. -/
def info_limit (fields : Nat) : Nat :=
  let room := if kMaxPayload > fields + 1 then kMaxPayload - fields - 1 else 0
  if room < 112 - 1 then room else 112 - 1

theorem info_limit_eq (n : Nat) : info_limit n = min (159 - n) 111 := by
  unfold info_limit kMaxPayload
  dsimp only
  by_cases h : 160 > n + 1
  · rw [if_pos h]
    split <;> omega
  rw [if_neg h, if_pos (by decide)]
  omega

theorem encode_payload_eq (m : Mark) : encode_payload m =
    (fields m ++ text m.info.chars (info_limit (fields m).length)).set 1
      (UInt8.ofNat ((fields m ++ text m.info.chars (info_limit (fields m).length)).length - 2)) := rfl

theorem length_fields (m : Mark) : 19 ≤ (fields m).length ∧ (fields m).length ≤ 113 := by
  have hlen : (fields m).length = 17 + (text m.name.chars 47).length + (text m.gauge_name.chars 47).length := by
    simp [fields, word]
    omega
  rw [hlen, length_text, length_text]
  omega

/-- The payload keeps its limit, and its length fits the length byte. -/
theorem length_encode_payload (m : Mark) :
    20 ≤ (encode_payload m).length ∧ (encode_payload m).length ≤ kMaxPayload := by
  have hfields := length_fields m
  rw [encode_payload_eq, length_set, length_append, length_text, info_limit_eq]
  unfold kMaxPayload
  omega

def Printable (s : List UInt8) : Prop := ∀ c ∈ s, 32 ≤ c ∧ c ≤ 126

instance (s : List UInt8) : Decidable (Printable s) :=
  inferInstanceAs (Decidable (∀ c ∈ s, 32 ≤ c ∧ c ≤ 126))

/-- A text as a string of the script. -/
def units (s : List UInt8) : List UInt16 := s.map UInt8.toUInt16

variable {s : List UInt8} {size : Nat}

theorem ascii_loop_agrees (hs : Printable s) (limit : Nat) (out : List UInt8) :
    taxi_cam_marks.ascii_loop limit (units s) (nums out) = nums (out ++ s.take (limit - out.length)) := by
  induction s generalizing out with
  | nil => simp [taxi_cam_marks.ascii_loop, units]
  | cons c rest ih =>
    obtain ⟨hlow, hhigh⟩ := hs c mem_cons_self
    have hlow : 32 ≤ c.toNat := hlow
    have hhigh : c.toNat ≤ 126 := hhigh
    rw [units, map_cons, taxi_cam_marks.ascii_loop, length_nums]
    by_cases hroom : out.length < limit
    · have hchar : ((c.toUInt16.toNat : Int) ≥ 32 ∧ (c.toUInt16.toNat : Int) ≤ 126) := by
        rw [UInt8.toNat_toUInt16]
        omega
      have hnext := ih (fun x hx => hs x (mem_cons_of_mem _ hx)) (out ++ [c])
      rw [if_pos (by omega)]
      dsimp only
      rw [if_pos hchar, UInt8.toNat_toUInt16]
      rw [nums_append] at hnext
      rw [units] at hnext
      apply hnext.trans
      rw [length_append, length_singleton, append_assoc,
        show limit - out.length = limit - (out.length + 1) + 1 by omega, take_succ_cons,
        singleton_append]
    · rw [if_neg (by omega), show limit - out.length = 0 by omega, take_zero, append_nil]

theorem ascii_agrees (hs : Printable s) (limit : Nat) :
    taxi_cam_marks.ascii (some (units s)) limit = nums (s.take limit) :=
  ascii_loop_agrees hs limit []

theorem put_chars (h : 0 < size) (hs : Printable s) : (Text.put h s).chars = s.take (size - 1) := by
  unfold Text.put
  dsimp only
  congr 1
  rw [takeWhile_eq_self_iff]
  intro c hc
  have hlow : 32 ≤ c.toNat := (hs c hc).1
  apply decide_eq_true
  intro hzero
  rw [hzero] at hlow
  exact absurd hlow (by decide)

theorem num_ofNat {n : Nat} (h : n < 256) : num (UInt8.ofNat n) = n := by
  rw [num, UInt8.toNat_ofNat', Nat.mod_eq_of_lt h]

theorem text_agrees (h : 0 < size) (hs : Printable s) {limit : Nat} (hlimit : limit ≤ size - 1) (hsize : size ≤ 256) :
    taxi_cam_marks.text (some (units s)) limit = nums (text (Text.put h s).chars limit) := by
  have hlen : (if (s.take (size - 1)).length > limit then limit else (s.take (size - 1)).length) =
      (s.take limit).length := by
    rw [length_take, length_take]
    split <;> omega
  have hshort : (s.take limit).length < 256 := by
    rw [length_take]
    omega
  have hself : (s.take (size - 1)).take (s.take limit).length = s.take limit := by
    rw [length_take, take_take]
    rcases Nat.le_total limit s.length with hle | hle
    · rw [Nat.min_eq_left hle, Nat.min_eq_left hlimit]
    rw [Nat.min_eq_right hle, take_of_length_le hle, take_of_length_le]
    omega
  unfold taxi_cam_marks.text text
  rw [put_chars h hs]
  dsimp only
  rw [ascii_agrees hs, hlen, hself, length_nums, nums, nums, map_cons, num_ofNat hshort]

/-! ## The words -/

theorem round_natCast (n : Nat) : taxi_cam_marks.round n = n := by
  unfold taxi_cam_marks.round
  apply le_antisymm
  · have hlt : ((n : Rat) + 1 / 2).floor < (n : Int) + 1 := by
      rw [Rat.floor_lt_iff]
      push_cast
      linarith
    omega
  · rw [Rat.le_floor_iff]
    push_cast
    linarith

theorem word_agrees (v : UInt16) : taxi_cam_marks.word v.toNat = nums (word v) := by
  have hlt : v.toNat < 65536 := v.toNat_lt
  have hclamp : max 0 (min 65535 (v.toNat : Int)) = v.toNat := by omega
  have hhigh : shr v.toNat 8 = num (v >>> 8).toUInt8 := by
    have hnum : (v >>> 8).toUInt8.toNat = v.toNat >>> 8 := by
      simp
      omega
    rw [num, hnum]
    exact shr_natCast (in_range_word v) (by decide : 8 < 32)
  have hlow : band v.toNat 255 = num v.toUInt8 := by
    have hmask : v.toNat &&& 255 = v.toNat % 256 := Nat.and_two_pow_sub_one_eq_mod v.toNat 8
    rw [num, UInt16.toNat_toUInt8, ← hmask]
    exact band_natCast (in_range_word v) (by decide : InRange 255)
  unfold taxi_cam_marks.word
  dsimp only
  rw [round_natCast, hclamp, hhigh, hlow]
  simp [nums, word]

/-! ## One mark for both -/

/-- What a mark is made from: bytes, 16-bit words and texts of any length. -/
structure Label where
  kind : UInt8
  cell : UInt8
  gauge : UInt8
  x : UInt16
  y : UInt16
  width : UInt16
  height : UInt16
  panel_width : UInt16
  panel_height : UInt16
  name : List UInt8
  gauge_name : List UInt8
  info : List UInt8

/-- The mark of the bridge: every text is cut to its field. -/
def Label.mark (l : Label) : Mark where
  kind := ⟨l.kind⟩
  cell := l.cell
  gauge := l.gauge
  x := l.x
  y := l.y
  width := l.width
  height := l.height
  panel_width := l.panel_width
  panel_height := l.panel_height
  name := .put name_room l.name
  gauge_name := .put name_room l.gauge_name
  info := .put info_room l.info

/-- The mark of the script. -/
def Label.script (l : Label) : taxi_cam_marks.Mark where
  kind := num l.kind
  cell := num l.cell
  gauge := num l.gauge
  x := l.x.toNat
  y := l.y.toNat
  width := l.width.toNat
  height := l.height.toNat
  panelWidth := l.panel_width.toNat
  panelHeight := l.panel_height.toNat
  name := some (units l.name)
  gaugeName := some (units l.gauge_name)
  info := some (units l.info)

structure Label.Plain (l : Label) : Prop where
  name : Printable l.name
  gauge_name : Printable l.gauge_name
  info : Printable l.info

theorem payload_agrees (l : Label) (h : l.Plain) :
    taxi_cam_marks.encode_payload l.script = nums (encode_payload l.mark) := by
  have hname : taxi_cam_marks.text l.script.name 47 = nums (text l.mark.name.chars (48 - 1)) :=
    text_agrees (by decide) h.name (by decide) (by decide)
  have hgauge : taxi_cam_marks.text l.script.gaugeName 47 = nums (text l.mark.gauge_name.chars (48 - 1)) :=
    text_agrees (by decide) h.gauge_name (by decide) (by decide)
  have hfields : [taxi_cam_marks.VERSION, 0, l.script.kind, l.script.cell, l.script.gauge] ++
      [l.script.x, l.script.y, l.script.width, l.script.height, l.script.panelWidth,
        l.script.panelHeight].flatMap taxi_cam_marks.word ++ taxi_cam_marks.text l.script.name 47 ++
      taxi_cam_marks.text l.script.gaugeName 47 = nums (fields l.mark) := by
    unfold fields
    rw [nums_append, nums_append, nums_append]
    rw [← hname, ← hgauge]
    dsimp only [Label.script, Label.mark]
    simp only [flatMap_cons, flatMap_nil, word_agrees]
    simp [nums, num, taxi_cam_marks.VERSION, kVersion]
  have hroom : min (max 0 (taxi_cam_marks.MAX_PAYLOAD - ((nums (fields l.mark)).length : Int) - 1)) 111 =
      (info_limit (fields l.mark).length : Nat) := by
    rw [length_nums, info_limit_eq]
    unfold taxi_cam_marks.MAX_PAYLOAD
    omega
  have hlimit : info_limit (fields l.mark).length ≤ 112 - 1 := by
    rw [info_limit_eq]
    omega
  have hinfo : taxi_cam_marks.text l.script.info (info_limit (fields l.mark).length : Nat) =
      nums (text l.mark.info.chars (info_limit (fields l.mark).length)) :=
    text_agrees (by decide) h.info hlimit (by decide)
  have hsize := length_encode_payload l.mark
  rw [encode_payload_eq, length_set] at hsize
  obtain ⟨hleast, hmost⟩ := hsize
  unfold kMaxPayload at hmost
  unfold taxi_cam_marks.encode_payload
  dsimp only
  rw [hfields, hroom, hinfo, ← nums_append, length_nums, encode_payload_eq]
  generalize fields l.mark ++ text l.mark.info.chars (info_limit (fields l.mark).length) = out at *
  have hlast : (out.length : Int) - 2 = num (UInt8.ofNat (out.length - 2)) := by
    rw [num_ofNat (by omega)]
    omega
  rw [hlast, nums, nums, map_set]

/-! ## The cells -/

theorem bit_at_cases (bytes : List UInt8) (bit : Nat) : bit_at bytes bit = 0 ∨ bit_at bytes bit = 1 := by
  unfold bit_at
  split
  · rename_i byte _
    generalize byte.toUInt32 >>> (7 - bit % 8).toUInt32 = v
    have hbit : (v &&& 1).toNat = v.toNat % 2 := by
      rw [UInt32.toNat_and]
      exact Nat.and_one_is_mod v.toNat
    rcases Nat.mod_two_eq_zero_or_one v.toNat with hzero | hone
    · left
      apply UInt32.toNat_inj.mp
      rw [hbit, hzero]
      rfl
    right
    apply UInt32.toNat_inj.mp
    rw [hbit, hone]
    rfl
  · exact .inl rfl

theorem bit_at_agrees (bytes : List UInt8) (bit : Nat) (hbit : InRange bit) :
    taxi_cam_marks.bit_at (nums bytes) bit = ((bit_at bytes bit).toNat : Int) := by
  have hindex : (shr bit 3).toNat = bit / 8 := by
    rw [show shr bit 3 = (bit >>> 3 : Nat) from shr_natCast hbit (by decide : 3 < 32)]
    rw [Int.toNat_natCast, Nat.shiftRight_eq_div_pow]
  have hcount : (7 : Int) - band bit 7 = (7 - bit % 8 : Nat) := by
    have hmask : bit &&& 7 = bit % 8 := Nat.and_two_pow_sub_one_eq_mod bit 3
    rw [show band bit 7 = (bit &&& 7 : Nat) from band_natCast hbit (by decide : InRange 7), hmask]
    omega
  have hfew : 7 - bit % 8 < 32 := by omega
  unfold taxi_cam_marks.bit_at bit_at
  rw [hindex, hcount, nums, List.getElem?_map]
  rcases bytes[bit / 8]? with _ | byte
  · rfl
  simp only [Option.map_some]
  have hsmall : InRange (byte.toNat >>> (7 - bit % 8)) :=
    Nat.lt_of_le_of_lt (Nat.shiftRight_le ..) (in_range_byte byte)
  rw [num, shr_natCast (in_range_byte byte) hfew]
  rw [show band (byte.toNat >>> (7 - bit % 8) : Nat) 1 =
    (byte.toNat >>> (7 - bit % 8) &&& 1 : Nat) from band_natCast hsmall (by decide : InRange 1)]
  rw [UInt32.toNat_and, UInt32.toNat_shiftRight, UInt8.toNat_toUInt32]
  have hshift : (7 - bit % 8).toUInt32.toNat % 32 = 7 - bit % 8 := by
    simp
    omega
  rw [hshift]
  rfl

theorem cell_agrees (bytes : List UInt8) {bit : Nat} (hbit : InRange (bit + 2)) :
    taxi_cam_marks.cell_bits (nums bytes) taxi_cam_marks.BITS.toNat 0 bit =
      (((cell_bits bytes kBitsPerCell 0 bit).1.toUInt8.toNat : Int), (bit : Int) + 3) := by
  have hfirst := bit_at_agrees bytes bit (Nat.lt_of_le_of_lt (by omega) hbit)
  have hsecond := bit_at_agrees bytes (bit + 1) (Nat.lt_of_le_of_lt (by omega) hbit)
  have hthird := bit_at_agrees bytes (bit + 2) hbit
  change taxi_cam_marks.cell_bits (nums bytes) 3 0 bit =
    (((cell_bits bytes 3 0 bit).1.toUInt8.toNat : Int), (bit : Int) + 3)
  simp only [taxi_cam_marks.cell_bits, cell_bits]
  rw [show (bit : Int) + 1 + 1 = ((bit + 2 : Nat) : Int) by omega,
    show (bit : Int) + 1 = ((bit + 1 : Nat) : Int) by omega, hfirst, hsecond, hthird]
  have hnext : ((bit + 2 : Nat) : Int) + 1 = (bit : Int) + 3 := by omega
  rw [hnext]
  congr 1
  rcases bit_at_cases bytes bit with h | h <;> rcases bit_at_cases bytes (bit + 1) with h1 | h1 <;>
    rcases bit_at_cases bytes (bit + 1 + 1) with h2 | h2 <;> rw [h, h1, h2] <;> decide

theorem cell_bits_next (bytes : List UInt8) (n : Nat) (v : UInt32) (bit : Nat) :
    (cell_bits bytes n v bit).2 = bit + n := by
  induction n generalizing v bit with
  | zero => rfl
  | succ n ih =>
    rw [cell_bits, ih]
    omega

theorem row_cells_next (bytes : List UInt8) (n : Nat) (cells : List UInt8) (bit : Nat) :
    (row_cells bytes n cells bit).2 = bit + 3 * n := by
  induction n generalizing cells bit with
  | zero => rfl
  | succ n ih =>
    rw [row_cells, ih, cell_bits_next]
    unfold kBitsPerCell
    omega

theorem row_agrees (bytes : List UInt8) (n : Nat) (cells : List UInt8) (bit : Nat) (hbit : InRange (bit + 3 * n)) :
    taxi_cam_marks.row_cells (nums bytes) n (nums cells) bit =
      (nums (row_cells bytes n cells bit).1, (bit : Int) + 3 * n) := by
  induction n generalizing cells bit with
  | zero => simp [taxi_cam_marks.row_cells, row_cells]
  | succ n ih =>
    rw [taxi_cam_marks.row_cells, row_cells, cell_agrees bytes (Nat.lt_of_le_of_lt (by omega) hbit)]
    have hnext := ih (cells ++ [(cell_bits bytes kBitsPerCell 0 bit).1.toUInt8]) (bit + 3)
      (Nat.lt_of_le_of_lt (by omega) hbit)
    rw [nums_append, show ((bit + 3 : Nat) : Int) = (bit : Int) + 3 by omega] at hnext
    rw [cell_bits_next]
    apply hnext.trans
    congr 1
    omega

theorem rows_agree (bytes : List UInt8) (n r : Nat) (cells : List UInt8) (bit : Nat)
    (hr : InRange (r + n)) (hbit : InRange (bit + 45 * n)) :
    taxi_cam_marks.data_rows (nums bytes) n r (nums cells) bit = nums (data_rows bytes n r cells bit) := by
  induction n generalizing r cells bit with
  | zero => rfl
  | succ n ih =>
    have htiming : (if band r 1 ≠ 0 then (0 : Int) else 7) = num (if r % 2 = 1 then 0 else 7) := by
      have hband : band r 1 = (r % 2 : Nat) := by
        rw [← Nat.and_one_is_mod]
        exact band_natCast (Nat.lt_of_le_of_lt (by omega) hr) (by decide : InRange 1)
      rw [hband]
      rcases Nat.mod_two_eq_zero_or_one r with hzero | hone
      · rw [hzero]
        rfl
      rw [hone]
      rfl
    rw [taxi_cam_marks.data_rows, data_rows, htiming]
    rw [show nums cells ++ [num (if r % 2 = 1 then 0 else 7)] =
      nums (cells ++ [if r % 2 = 1 then 0 else 7]) by rw [nums_append]; rfl]
    rw [show (taxi_cam_marks.COLUMNS - 1).toNat = kColumns - 1 from rfl,
      row_agrees bytes (kColumns - 1) _ _ (Nat.lt_of_le_of_lt (by unfold kColumns; omega) hbit),
      row_cells_next]
    have hnext := ih (r + 1) (row_cells bytes (kColumns - 1) (cells ++ [if r % 2 = 1 then 0 else 7]) bit).1
      (bit + 45) (Nat.lt_of_le_of_lt (by omega) hr) (Nat.lt_of_le_of_lt (by omega) hbit)
    have hlast : (bit : Int) + 3 * (kColumns - 1 : Nat) = (bit + 45 : Nat) := by
      unfold kColumns
      omega
    rw [hlast, show bit + 3 * (kColumns - 1) = bit + 45 from rfl, show (r : Int) + 1 = (r + 1 : Nat) by omega]
    exact hnext

theorem cells_agree {payload : List UInt8} (hsize : payload.length ≤ kMaxPayload) :
    taxi_cam_marks.encode_cells (nums payload) =
      { rows := rows_for payload.length, cells := nums (encode_cells payload) } := by
  have hword : [shr (crc16 payload).toNat 8, band (crc16 payload).toNat 255] = nums (word (crc16 payload)) := by
    have h := word_agrees (crc16 payload)
    unfold taxi_cam_marks.word at h
    rw [round_natCast] at h
    have hlt : (crc16 payload).toNat < 65536 := (crc16 payload).toNat_lt
    rwa [show max 0 (min 65535 ((crc16 payload).toNat : Int)) = (crc16 payload).toNat by omega] at h
  have hrows : rows_for payload.length ≤ 30 := by
    unfold kMaxPayload at hsize
    rw [rows_for_eq]
    omega
  unfold taxi_cam_marks.encode_cells encode_cells
  dsimp only
  rw [crc16_agrees, length_nums, rows_for_agrees, hword, ← nums_append]
  have h := rows_agree (payload ++ word (crc16 payload)) (rows_for payload.length - 1) 1 kFinder
    0 (in_range_of_lt (b := 100) (by omega) (by decide))
    (in_range_of_lt (b := 2000) (by omega) (by decide))
  rw [show ((rows_for payload.length : Int) - 1).toNat = rows_for payload.length - 1 by omega]
  congr 1

theorem length_row_cells (bytes : List UInt8) (n : Nat) (cells : List UInt8) (bit : Nat) :
    (row_cells bytes n cells bit).1.length = cells.length + n := by
  induction n generalizing cells bit with
  | zero => rfl
  | succ n ih =>
    rw [row_cells, ih, length_append, length_singleton]
    omega

theorem length_data_rows (bytes : List UInt8) (n r : Nat) (cells : List UInt8) (bit : Nat) :
    (data_rows bytes n r cells bit).length = cells.length + kColumns * n := by
  induction n generalizing r cells bit with
  | zero => rfl
  | succ n ih =>
    rw [data_rows, ih, length_row_cells, length_append, length_singleton]
    unfold kColumns
    omega

theorem length_encode_cells (payload : List UInt8) :
    (encode_cells payload).length = kColumns * rows_for payload.length := by
  have hrows : rows_for payload.length = 1 + (rows_for payload.length - 1) := by
    rw [rows_for_eq]
    omega
  rw [encode_cells, length_data_rows]
  conv_rhs => rw [hrows, Nat.mul_add]
  rfl

theorem encoders_agree (l : Label) (h : l.Plain) :
    taxi_cam_marks.encode_payload l.script = nums (encode_payload l.mark) ∧
      taxi_cam_marks.encode_cells (taxi_cam_marks.encode_payload l.script) =
        { rows := rows_for (encode_payload l.mark).length
          cells := nums (encode_cells (encode_payload l.mark)) } ∧
      (encode_cells (encode_payload l.mark)).length = kColumns * rows_for (encode_payload l.mark).length := by
  have hpayload := payload_agrees l h
  refine ⟨hpayload, ?_, length_encode_cells _⟩
  rw [hpayload]
  exact cells_agree (length_encode_payload l.mark).2

/-- An inboard display whose info text has more characters than the payload has room for. -/
def inboard : Label where
  kind := 0
  cell := 10
  gauge := 1
  x := 1058
  y := 33
  width := 958
  height := 971
  panel_width := 2048
  panel_height := 2048
  name := [68, 85, 83]
  gauge_name := [68, 85, 95, 76, 101, 102, 116, 73, 110, 98, 111, 97, 114, 100]
  info := List.replicate 200 107

theorem inboard_plain : inboard.Plain where
  name := by decide +kernel
  gauge_name := by decide +kernel
  info c hc := by
    rw [eq_of_mem_replicate hc]
    decide

theorem inboard_agrees : inboard.Plain ∧
    taxi_cam_marks.encode_payload inboard.script = nums (encode_payload inboard.mark) ∧
      taxi_cam_marks.encode_cells (taxi_cam_marks.encode_payload inboard.script) =
        { rows := rows_for (encode_payload inboard.mark).length
          cells := nums (encode_cells (encode_payload inboard.mark)) } ∧
      (encode_cells (encode_payload inboard.mark)).length =
        kColumns * rows_for (encode_payload inboard.mark).length :=
  ⟨inboard_plain, encoders_agree inboard inboard_plain⟩

end taxi_camera.panel_marks
