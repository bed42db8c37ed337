-- The decoder of a panel mark: what `decode_at` does with the cells it samples,
-- and `parse`, both of src/shared/panel_marks.hpp.
import TaxiCam.PanelMarks

namespace taxi_camera.panel_marks

/-! ## The fields of a payload -/

namespace Decoder

/-- The byte at a position, and the position behind it. -/
def u8 (b : List UInt8) (start : Nat) : Option (UInt8 × Nat) :=
  match b[start]? with
  | some v => some (v, start + 1)
  | none => none

def u16 (b : List UInt8) (start : Nat) : Option (UInt16 × Nat) :=
  match b[start]?, b[start + 1]? with
  | some high, some low => some (((high.toUInt32 <<< 8) ||| low.toUInt32).toUInt16, start + 2)
  | _, _ => none

/-- A text goes into an array of `size` characters, with a 0 behind it. -/
def text {size : Nat} (h : 0 < size) (b : List UInt8) (start : Nat) : Option (Text size × Nat) := do
  let (n, start) ← u8 b start
  if start + n.toNat > b.length ∨ n.toNat ≥ size then none
  else
    let s := (b.drop start).take n.toNat
    if s.any fun c => c < 32 ∨ c > 126 then none else some (.put h s, start + n.toNat)

/-- The mark of a payload. The first two bytes are its version and its length. -/
def parse (b : List UInt8) : Option Mark := do
  let (kind, start) ← u8 b 2
  if kind > 1 then none
  else
    let (cell, start) ← u8 b start
    let (gauge, start) ← u8 b start
    let (x, start) ← u16 b start
    let (y, start) ← u16 b start
    let (width, start) ← u16 b start
    let (height, start) ← u16 b start
    let (panel_width, start) ← u16 b start
    let (panel_height, start) ← u16 b start
    let (name, start) ← text name_room b start
    let (gauge_name, start) ← text name_room b start
    let (info, start) ← text info_room b start
    if start = b.length then
      some { kind := ⟨kind⟩, cell, gauge, x, y, width, height, panel_width, panel_height, name, gauge_name
             info }
    else none

/-! ## The bits of the cells -/

/-- The bytes collected so far, and the next bit. -/
structure Bits where
  bytes : List UInt8 := List.replicate (kMaxPayload + 2) 0
  bit : Nat := 0
deriving DecidableEq

/-- A bit behind the array is dropped. -/
def read_bit (v shift : Nat) (s : Bits) : Bits where
  bytes :=
    match s.bytes[s.bit / 8]? with
    | some byte =>
      if (v >>> shift) &&& 1 ≠ 0 then s.bytes.set (s.bit / 8) (byte ||| UInt8.ofNat (0x80 >>> (s.bit % 8)))
      else s.bytes
    | none => s.bytes
  bit := s.bit + 1

/-- The last `n` bits of a cell, from the most significant one. -/
def read_cell (v : Nat) : Nat → Bits → Bits
  | 0, s => s
  | n + 1, s => read_cell v n (read_bit v n s)

/-- The next `n` cells of a row, from column `c` on. A cell without a class is negative. -/
def read_row (sample : Nat → Int) : (n c : Nat) → Bits → Option Bits
  | 0, _, s => some s
  | n + 1, c, s =>
    let v := sample c
    if v < 0 then none else read_row sample n (c + 1) (read_cell v.toNat kBitsPerCell s)

/-- The next `n` rows, from `r` on. -/
def read_rows (sample : Nat → Nat → Int) : (n r : Nat) → Bits → Option Bits
  | 0, _, s => some s
  | n + 1, r, s =>
    match read_row (sample r) (kColumns - 1) 1 s with
    | some s => read_rows sample n (r + 1) s
    | none => none

/-- `decode_at` from where it has found the finder row and `timing` cells of column 0: `first` samples
row 1 at the pitch of its own height, `sample` every row at the pitch of all of them, and `fits` says
whether that pitch and the height suit so many rows. Where the block lies is left out. -/
def decode_at (timing : Nat) (first : Nat → Int) (fits : Nat → Bool) (sample : Nat → Nat → Int) :
    Option Mark := do
  if timing < 2 then none
  else
    let head ← read_row first (kColumns - 1) 1 {}
    if head.bytes.getD 0 0 ≠ kVersion then none
    else
      let payload := (head.bytes.getD 1 0).toNat + 2
      if payload > kMaxPayload then none
      else
        let rows := rows_for payload
        if timing < rows - 1 then none
        else if !fits rows then none
        else
          let read ← read_rows sample (rows - 1) 1 {}
          let crc := (read.bytes.getD payload 0).toNat <<< 8 ||| (read.bytes.getD (payload + 1) 0).toNat
          if (crc16 (read.bytes.take payload)).toNat ≠ crc then none
          else
            let mark ← parse (read.bytes.take payload)
            some { mark with rows }

end Decoder

end taxi_camera.panel_marks
