-- The encoder of the page script. `crc16`, `rowsFor`, `ascii`, `encodePayload`
-- and `encodeCells` of src/panel_marks/taxi-cam-marks.js. A number that the
-- script keeps whole is an integer, any other one a rational; a string is its
-- code units.
import TaxiCam.ScriptNumbers

namespace taxi_camera

namespace taxi_cam_marks

open script

def COLUMNS : Int := 16
def DATA_COLUMNS : Int := 15
def BITS : Int := 3
def ROW_BITS : Int := DATA_COLUMNS * BITS
def VERSION : Int := 1
def MAX_PAYLOAD : Int := 160

def FINDER : List Int := [7, 0, 7, 0, 4, 2, 1, 6, 3, 5, 0, 7, 4, 0, 1, 7]

structure Mark where
  kind : Int
  cell : Int
  gauge : Int
  x : Rat
  y : Rat
  width : Rat
  height : Rat
  panelWidth : Rat
  panelHeight : Rat
  name : Option (List UInt16)
  gaugeName : Option (List UInt16)
  info : Option (List UInt16)

/-! ## The CRC -/

def crc_bit (crc : Int) : Int :=
  band (if band crc 0x8000 ≠ 0 then bxor (shl crc 1) 0x1021 else shl crc 1) 0xffff

def crc_bits : Nat → Int → Int
  | 0, crc => crc
  | n + 1, crc => crc_bits n (crc_bit crc)

def crc_byte (crc byte : Int) : Int := crc_bits 8 (bxor crc (shl byte 8))

def crc16 (bytes : List Int) : Int := bytes.foldl crc_byte 0xffff

def rows_for (payload : Int) : Int := 1 + ((((payload + 2) * 8 : Int) : Rat) / ROW_BITS).ceil

/-! ## The payload -/

def ascii_loop (limit : Int) : List UInt16 → List Int → List Int
  | [], out => out
  | c :: rest, out =>
    if out.length < limit then
      let c : Int := c.toNat
      ascii_loop limit rest (out ++ [if c ≥ 32 ∧ c ≤ 126 then c else 63])
    else out

/-- `null` is the empty text. -/
def ascii (s : Option (List UInt16)) (limit : Int) : List Int := ascii_loop limit (s.getD []) []

def text (s : Option (List UInt16)) (limit : Int) : List Int :=
  let bytes := ascii s limit
  (bytes.length : Int) :: bytes

/-- `Math.round`: halves go up. -/
def round (v : Rat) : Int := (v + 1 / 2).floor

def word (v : Rat) : List Int :=
  let v := max 0 (min 65535 (round v))
  [shr v 8, band v 255]

def encode_payload (m : Mark) : List Int :=
  let out := [VERSION, 0, m.kind, m.cell, m.gauge]
  let out := out ++ [m.x, m.y, m.width, m.height, m.panelWidth, m.panelHeight].flatMap word
  let out := out ++ text m.name 47
  let out := out ++ text m.gaugeName 47
  let room := max 0 (MAX_PAYLOAD - out.length - 1)
  let out := out ++ text m.info (min room 111)
  out.set 1 (out.length - 2)

/-! ## The cells -/

def bit_at (bytes : List Int) (bit : Int) : Int :=
  match bytes[(shr bit 3).toNat]? with
  | some byte => band (shr byte (7 - band bit 7)) 1
  | none => 0

def cell_bits (bytes : List Int) : (n : Nat) → (v bit : Int) → Int × Int
  | 0, v, bit => (v, bit)
  | n + 1, v, bit => cell_bits bytes n (bor (shl v 1) (bit_at bytes bit)) (bit + 1)

def row_cells (bytes : List Int) : (n : Nat) → (cells : List Int) → (bit : Int) → List Int × Int
  | 0, cells, bit => (cells, bit)
  | n + 1, cells, bit =>
    let v := cell_bits bytes BITS.toNat 0 bit
    row_cells bytes n (cells ++ [v.1]) v.2

def data_rows (bytes : List Int) : (n : Nat) → (r : Int) → (cells : List Int) → (bit : Int) → List Int
  | 0, _, cells, _ => cells
  | n + 1, r, cells, bit =>
    let timing := if band r 1 ≠ 0 then 0 else 7
    let row := row_cells bytes (COLUMNS - 1).toNat (cells ++ [timing]) bit
    data_rows bytes n (r + 1) row.1 row.2

structure Encoded where
  rows : Int
  cells : List Int
deriving DecidableEq

def encode_cells (payload : List Int) : Encoded :=
  let crc := crc16 payload
  let bytes := payload ++ [shr crc 8, band crc 255]
  let rows := rows_for payload.length
  { rows, cells := data_rows bytes (rows - 1).toNat 1 FINDER 0 }

end taxi_cam_marks

end taxi_camera
