-- The picture of a display texture, shrunk and written as a file:
-- src/shared/display_snapshot.hpp.
import TaxiCam.Buffers

namespace taxi_camera.standalone.display_snapshot

open buffers

/-- Base mip only: the largest accepted copy. -/
def kDisplaySnapshotMaxBytes : Nat := 4096 * 4096 * 4

/-- Tight rows, top-down, 3 bytes per pixel. -/
structure SnapshotImage where
  width : UInt32 := 0
  height : UInt32 := 0
  bgr : List UInt8 := []

/-! ## Shrinking -/

/-- `std::max` -/
def larger_of (a b : UInt32) : UInt32 := if a < b then b else a

/-- The smaller edge for the larger one's limit, rounded to the nearest, and never empty. -/
def fit_edge (smaller larger max_edge : UInt32) : UInt32 :=
  larger_of 1 ((smaller.toUInt64 * max_edge.toUInt64 + (larger / 2).toUInt64) / larger.toUInt64).toUInt32

def fit_snapshot (width height max_edge : UInt32) : UInt32 × UInt32 :=
  if width = 0 ∨ height = 0 ∨ max_edge = 0 ∨ larger_of width height ≤ max_edge then (width, height)
  else if width ≥ height then (max_edge, fit_edge height width max_edge)
  else (fit_edge width height max_edge, max_edge)

/-- `y0` of a row and `x0` of a column: `i` of `count` over `size` source pixels. -/
def box_begin (i count size : UInt32) : UInt32 := (i.toUInt64 * size.toUInt64 / count.toUInt64).toUInt32

/-- `y1` of a row and `x1` of a column. -/
def box_end (i count size : UInt32) : UInt32 :=
  larger_of (box_begin i count size + 1) ((i + 1).toUInt64 * size.toUInt64 / count.toUInt64).toUInt32

/-- The place of a source pixel's byte. -/
def byte_offset (row_pitch : UInt64) (sx sy channel : Nat) : UInt64 :=
  UInt64.ofNat sy * row_pitch + UInt64.ofNat sx * 4 + UInt64.ofNat channel

def read (pixels : List UInt8) (offset : UInt64) : UInt8 := pixels.getD offset.toNat 0

/-- The loop over a box, for one of its three sums. -/
def box_sum (pixels : List UInt8) (row_pitch : UInt64) (x0 x1 y0 y1 : UInt32) (channel : Nat) : UInt64 :=
  (List.range' y0.toNat (y1.toNat - y0.toNat)).foldl (fun sum sy =>
    (List.range' x0.toNat (x1.toNat - x0.toNat)).foldl (fun sum sx =>
      sum + (read pixels (byte_offset row_pitch sx sy channel)).toUInt64) sum) 0

/-- The mean of a box, rounded. -/
def box_mean (sum n : UInt64) : UInt8 := ((sum + n / 2) / n).toUInt8

/-- The three bytes of a pixel: blue, green and red. -/
def pixel (pixels : List UInt8) (row_pitch : UInt64) (x0 x1 y0 y1 : UInt32) (bgra : Bool) : List UInt8 :=
  let red := if bgra then 2 else 0
  let blue := if bgra then 0 else 2
  let n := (y1 - y0).toUInt64 * (x1 - x0).toUInt64
  [box_mean (box_sum pixels row_pitch x0 x1 y0 y1 blue) n, box_mean (box_sum pixels row_pitch x0 x1 y0 y1 1) n,
    box_mean (box_sum pixels row_pitch x0 x1 y0 y1 red) n]

/-- The loops write the pixels one behind the other. An empty `pixels` is the null pointer. -/
def downsample_snapshot (pixels : List UInt8) (row_pitch : UInt64) (width height : UInt32) (bgra : Bool)
    (max_edge : UInt32) : SnapshotImage :=
  if pixels = [] ∨ width = 0 ∨ height = 0 ∨ row_pitch < width.toUInt64 * 4 then {}
  else
    let size := fit_snapshot width height max_edge
    { width := size.1
      height := size.2
      bgr := (List.range size.2.toNat).flatMap fun y =>
        let y0 := box_begin (UInt32.ofNat y) size.2 height
        let y1 := box_end (UInt32.ofNat y) size.2 height
        (List.range size.1.toNat).flatMap fun x =>
          let x0 := box_begin (UInt32.ofNat x) size.1 width
          let x1 := box_end (UInt32.ofNat x) size.1 width
          pixel pixels row_pitch x0 x1 y0 y1 bgra }

/-! ## The file -/

/-- A number in memory, from its least significant byte. -/
def memory : Nat → Nat → List UInt8
  | 0, _ => []
  | bytes + 1, v => UInt8.ofNat v :: memory bytes (v / 256)

/-- `BITMAPFILEHEADER`: type, size, two reserved fields and where the pixels are. -/
def file_header (bfSize bfOffBits : UInt32) : List UInt8 :=
  memory 2 0x4d42 ++ memory 4 bfSize.toNat ++ memory 2 0 ++ memory 2 0 ++ memory 4 bfOffBits.toNat

/-- `BITMAPINFOHEADER`: its size, the picture's, planes, bits, compression, the bytes of the pixels,
and four fields left zero. -/
def info_header (width height biSizeImage : UInt32) : List UInt8 :=
  memory 4 40 ++ memory 4 width.toNat ++ memory 4 height.toNat ++ memory 2 1 ++ memory 2 24 ++ memory 4 0 ++
    memory 4 biSizeImage.toNat ++ memory 4 0 ++ memory 4 0 ++ memory 4 0 ++ memory 4 0

def bmp_stride (width : UInt32) : UInt32 := (width * 3 + 3) &&& ~~~3

def header_bytes : UInt32 := 14 + 40

/-- The row `y` of the picture. -/
def image_row (image : SnapshotImage) (y : Nat) : List UInt8 :=
  (image.bgr.drop (y * image.width.toNat * 3)).take (image.width.toNat * 3)

/-- 24-bit bottom-up BMP. -/
def encode_snapshot_bmp (image : SnapshotImage) : List UInt8 :=
  if image.width = 0 ∨ image.height = 0 ∨ image.bgr.length ≠ image.width.toNat * image.height.toNat * 3 then []
  else
    let stride := bmp_stride image.width
    let pixels := stride * image.height
    let size := header_bytes + pixels
    let file := List.replicate size.toNat 0
    let file := write file 0 (file_header size header_bytes)
    let file := write file 14 (info_header image.width image.height pixels)
    (List.range image.height.toNat).foldl (fun file y =>
      write file (header_bytes.toNat + (image.height.toNat - 1 - y) * stride.toNat) (image_row image y)) file

end taxi_camera.standalone.display_snapshot
