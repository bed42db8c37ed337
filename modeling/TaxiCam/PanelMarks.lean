-- Panel marks: what a mark says, and the encoder of its payload bytes and its
-- cells. `Mark`, `crc16`, `encode_payload` and `encode_cells` of
-- src/shared/panel_marks.hpp.
import Mathlib.Data.List.TakeWhile

namespace taxi_camera

namespace panel_marks

/-! ## Marks -/

def kColumns : Nat := 16
def kDataColumns : Nat := kColumns - 1
def kBitsPerCell : Nat := 3
def kRowBits : Nat := kDataColumns * kBitsPerCell
def kVersion : UInt8 := 1
def kMaxPayload : Nat := 160

def kFinder : List UInt8 := [7, 0, 7, 0, 4, 2, 1, 6, 3, 5, 0, 7, 4, 0, 1, 7]

/-- A byte. Two values have names. -/
structure Kind where
  value : UInt8
deriving DecidableEq

def Kind.gauge : Kind := ⟨0⟩
def Kind.panel : Kind := ⟨1⟩

/-- The text in an array of `size` characters: what stands before its first 0. -/
structure Text (size : Nat) where
  chars : List UInt8
  fits : chars.length < size
  terminated : ∀ c ∈ chars, c ≠ 0
deriving DecidableEq

def Text.empty {size : Nat} (h : 0 < size) : Text size := ⟨[], h, fun _ hc => (nomatch hc)⟩

/-- A text put into an array, and cut to it. -/
def Text.put {size : Nat} (h : 0 < size) (s : List UInt8) : Text size where
  chars := (s.takeWhile (· ≠ 0)).take (size - 1)
  fits := by
    rw [List.length_take]
    omega
  terminated c hc := by
    have h := List.mem_takeWhile_imp (List.mem_of_mem_take hc)
    exact of_decide_eq_true h

/-- The arrays of a mark have room for the 0. -/
theorem name_room : 0 < 48 := Nat.succ_pos 47

theorem info_room : 0 < 112 := Nat.succ_pos 111

/-- The last five fields say where the block was found. -/
structure Mark where
  kind : Kind := .gauge
  cell : UInt8 := 0
  gauge : UInt8 := 0
  x : UInt16 := 0
  y : UInt16 := 0
  width : UInt16 := 0
  height : UInt16 := 0
  panel_width : UInt16 := 0
  panel_height : UInt16 := 0
  name : Text 48 := .empty name_room
  gauge_name : Text 48 := .empty name_room
  info : Text 112 := .empty info_room
  left : Nat := 0
  top : Nat := 0
  rows : Nat := 0
  pitch_x : Rat := 0
  pitch_y : Rat := 0
deriving DecidableEq

/-! ## The CRC -/

/-- One bit of the CRC: the shift is in an `int`, the result in 16 bits. -/
def crc_bit (crc : UInt16) : UInt16 :=
  let shifted := crc.toUInt32 <<< 1
  if crc &&& 0x8000 ≠ 0 then (shifted ^^^ 0x1021).toUInt16 else shifted.toUInt16

def crc_bits : Nat → UInt16 → UInt16
  | 0, crc => crc
  | n + 1, crc => crc_bits n (crc_bit crc)

def crc_byte (crc : UInt16) (byte : UInt8) : UInt16 :=
  crc_bits 8 (crc ^^^ (byte.toUInt32 <<< 8).toUInt16)

def crc16 (bytes : List UInt8) : UInt16 := bytes.foldl crc_byte 0xffff

def rows_for (payload : Nat) : Nat := 1 + ((payload + 2) * 8 + kRowBits - 1) / kRowBits

/-! ## The payload -/

def word (v : UInt16) : List UInt8 := [(v >>> 8).toUInt8, v.toUInt8]

def text (s : List UInt8) (limit : Nat) : List UInt8 :=
  let n := if s.length > limit then limit else s.length
  UInt8.ofNat n :: s.take n

def encode_payload (m : Mark) : List UInt8 :=
  let out := [kVersion, 0, m.kind.value, m.cell, m.gauge]
  let out := out ++ [m.x, m.y, m.width, m.height, m.panel_width, m.panel_height].flatMap word
  let out := out ++ text m.name.chars (48 - 1)
  let out := out ++ text m.gauge_name.chars (48 - 1)
  -- The info text gives way first.
  let room := if kMaxPayload > out.length + 1 then kMaxPayload - out.length - 1 else 0
  let out := out ++ text m.info.chars (if room < 112 - 1 then room else 112 - 1)
  out.set 1 (UInt8.ofNat (out.length - 2))

/-! ## The cells -/

/-- The bit after the bytes is 0. -/
def bit_at (bytes : List UInt8) (bit : Nat) : UInt32 :=
  match bytes[bit / 8]? with
  | some byte => (byte.toUInt32 >>> (7 - bit % 8).toUInt32) &&& 1
  | none => 0

/-- The next bits of a cell, and the bit after them. -/
def cell_bits (bytes : List UInt8) : (n : Nat) → (v : UInt32) → (bit : Nat) → UInt32 × Nat
  | 0, v, bit => (v, bit)
  | n + 1, v, bit => cell_bits bytes n (v <<< 1 ||| bit_at bytes bit) (bit + 1)

/-- The next cells of a row. -/
def row_cells (bytes : List UInt8) :
    (n : Nat) → (cells : List UInt8) → (bit : Nat) → List UInt8 × Nat
  | 0, cells, bit => (cells, bit)
  | n + 1, cells, bit =>
    let v := cell_bits bytes kBitsPerCell 0 bit
    row_cells bytes n (cells ++ [v.1.toUInt8]) v.2

/-- The rows from `r` on. -/
def data_rows (bytes : List UInt8) :
    (n r : Nat) → (cells : List UInt8) → (bit : Nat) → List UInt8
  | 0, _, cells, _ => cells
  | n + 1, r, cells, bit =>
    let timing := if r % 2 = 1 then 0 else 7
    let row := row_cells bytes (kColumns - 1) (cells ++ [timing]) bit
    data_rows bytes n (r + 1) row.1 row.2

/-- Cell colours, row by row. -/
def encode_cells (payload : List UInt8) : List UInt8 :=
  let bytes := payload ++ word (crc16 payload)
  data_rows bytes (rows_for payload.length - 1) 1 kFinder 0

end panel_marks

end taxi_camera
