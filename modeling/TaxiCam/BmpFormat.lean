-- The BMP format as a reader has it: an uncompressed picture of 24 bits a pixel,
-- its rows from the bottom up, each on a multiple of four bytes.
import TaxiCam.ZipFormat

namespace bmp_format

open zip_format

/-- The bytes of the pixels are those of the rows from the top down, blue, green and red. -/
structure Bitmap where
  width : Nat
  height : Nat
  bgr : List UInt8
deriving DecidableEq

/-- The bytes of a row, with what fills its last four. -/
def row_pitch (width : Nat) : Nat := (width * 24 + 31) / 32 * 4

/-- The row `y` from the top. -/
def read_row (file : List UInt8) (offset width height y : Nat) : Option (List UInt8) :=
  stretch file (offset + (height - 1 - y) * row_pitch width) (3 * width)

def read_bmp (file : List UInt8) : Option Bitmap := do
  let signature ← number file 0 2
  let size ← number file 2 4
  let reserved ← number file 6 4
  let offset ← number file 10 4
  let header ← number file 14 4
  let width ← number file 18 4
  let height ← number file 22 4
  let planes ← number file 26 2
  let bits ← number file 28 2
  let compression ← number file 30 4
  let image ← number file 34 4
  if signature ≠ 0x4d42 ∨ size ≠ file.length ∨ reserved ≠ 0 ∨ header ≠ 40 ∨ offset < 14 + header then none
  -- A height of 2^31 on is negative: rows from the top down.
  else if width = 0 ∨ width ≥ 0x80000000 ∨ height = 0 ∨ height ≥ 0x80000000 then none
  else if planes ≠ 1 ∨ bits ≠ 24 ∨ compression ≠ 0 ∨ (image ≠ 0 ∧ image ≠ row_pitch width * height) then none
  else
    let rows ← (List.range height).mapM (read_row file offset width height)
    some ⟨width, height, rows.flatten⟩

end bmp_format
