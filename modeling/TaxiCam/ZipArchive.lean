-- The bug report's archive. `zip_crc32` and `zip_archive` of
-- src/app/report_bundle.hpp.
import TaxiCam.Deflate

namespace taxi_camera.standalone

/-- Each file is one fixed-Huffman deflate block, or stored when that is not smaller. -/
structure ZipEntry where
  name : List UInt8
  data : List UInt8

/-! ## `zip_crc32` -/

def crc_turn (c : Nat) : Nat := if c &&& 1 ≠ 0 then 0xEDB88320 ^^^ (c >>> 1) else c >>> 1

def crc_turns : Nat → Nat → Nat
  | 0, c => c
  | k + 1, c => crc_turns k (crc_turn c)

def crc_table : List Nat := (List.range 256).map fun i => crc_turns 8 i

def crc_byte (c : Nat) (b : UInt8) : Nat :=
  crc_table.getD ((c ^^^ b.toNat) &&& 0xFF) 0 ^^^ (c >>> 8)

def zip_crc32 (data : List UInt8) : Nat := data.foldl crc_byte 0xFFFFFFFF ^^^ 0xFFFFFFFF

/-! ## `zip_archive` -/

def u16 (s : List UInt8) (v : Nat) : List UInt8 :=
  s ++ [UInt8.ofNat (v &&& 0xFF), UInt8.ofNat (v >>> 8 &&& 0xFF)]

def u32 (s : List UInt8) (v : Nat) : List UInt8 := u16 (u16 s (v &&& 0xFFFF)) (v >>> 16 &&& 0xFFFF)

def deflated (entry : ZipEntry) : Bool := (deflate_fixed entry.data).length < entry.data.length

def body (entry : ZipEntry) : List UInt8 :=
  if deflated entry then deflate_fixed entry.data else entry.data

/-- The fields that the local and the central header share. -/
def common (dos_time dos_date : Nat) (entry : ZipEntry) (s : List UInt8) : List UInt8 :=
  let s := u16 s 20
  let s := u16 s 0
  let s := u16 s (if deflated entry then 8 else 0)
  let s := u16 s dos_time
  let s := u16 s dos_date
  let s := u32 s (zip_crc32 entry.data)
  let s := u32 s (body entry).length
  let s := u32 s entry.data.length
  let s := u16 s entry.name.length
  u16 s 0

/-- The files so far, and the directory. -/
structure Archive where
  out : List UInt8 := []
  directory : List UInt8 := []

def add_local (dos_time dos_date : Nat) (out : List UInt8) (entry : ZipEntry) : List UInt8 :=
  common dos_time dos_date entry (u32 out 0x04034B50) ++ entry.name ++ body entry

def add_central (dos_time dos_date offset : Nat) (directory : List UInt8) (entry : ZipEntry) :
    List UInt8 :=
  let s := u16 (u32 directory 0x02014B50) 20
  let s := common dos_time dos_date entry s
  let s := u16 (u16 (u16 s 0) 0) 0
  let s := u32 s 0
  u32 s offset ++ entry.name

/-- The loop over the entries; none where the archive would need larger fields. -/
def add_entries (dos_time dos_date : Nat) : List ZipEntry → Archive → Option Archive
  | [], s => some s
  | entry :: rest, s =>
    if entry.name.length > 0xFFFF ∨ entry.data.length > 0xFFFFFFFF then none
    else
      let out := add_local dos_time dos_date s.out entry
      let directory := add_central dos_time dos_date s.out.length s.directory entry
      if out.length > 0xFFFFFFFF then none
      else add_entries dos_time dos_date rest { out, directory }

def add_end (count : Nat) (s : Archive) : List UInt8 :=
  let out := u32 (s.out ++ s.directory) 0x06054B50
  let out := u16 (u16 (u16 (u16 out 0) 0) count) count
  let out := u32 (u32 out s.directory.length) s.out.length
  u16 out 0

/-- Empty when the archive would need ZIP64. -/
def zip_archive (entries : List ZipEntry) (dos_time dos_date : Nat) : List UInt8 :=
  if entries.length > 0xFFFF then []
  else
    match add_entries dos_time dos_date entries {} with
    | none => []
    | some s =>
      let out := add_end entries.length s
      if out.length > 0xFFFFFFFF then [] else out

end taxi_camera.standalone
