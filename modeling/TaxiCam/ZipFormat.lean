-- The ZIP format as a reader has it: the checksum by its polynomial, the three
-- records by their fields, and the way from the end of an archive to its files.
import TaxiCam.Rfc1951

namespace zip_format

open bit_streams

/-! ## The checksum -/

/-- The generator without its highest term, from the coefficient of `x^31` down. -/
def generator : List Bool :=
  (List.range 32).map fun k => (31 - k) ∈ [26, 23, 22, 16, 12, 11, 10, 8, 7, 5, 4, 2, 1, 0]

/-- One step of the division by the generator: the next coefficient of the message comes in above
the remainder. -/
def divide (remainder : List Bool) (bit : Bool) : List Bool :=
  let shifted := remainder.tail ++ [false]
  if remainder.headD false ≠ bit then shifted.zipWith xor generator else shifted

/-- The message goes byte by byte from its least significant bit, after a register of ones; the
result is complemented and read from `x^31` as the least significant bit. -/
def crc32 (data : List UInt8) : Nat :=
  of_lsb (((data.flatMap byte_bits).foldl divide (List.replicate 32 true)).map not)

/-! ## Fields -/

/-- A number from its least significant byte. -/
def little_endian : List UInt8 → Nat
  | [] => 0
  | b :: rest => b.toNat + 256 * little_endian rest

def number (bytes : List UInt8) (start width : Nat) : Option Nat :=
  let field := (bytes.drop start).take width
  if field.length = width then some (little_endian field) else none

def stretch (bytes : List UInt8) (start length : Nat) : Option (List UInt8) :=
  let field := (bytes.drop start).take length
  if field.length = length then some field else none

/-! ## Records -/

/-- The end record, at the very end: an archive of one disk and without a comment. -/
structure End where
  count : Nat
  size : Nat
  offset : Nat
deriving DecidableEq

def read_end (archive : List UInt8) : Option End := do
  if archive.length < 22 then none
  else
    let bytes := archive.drop (archive.length - 22)
    let signature ← number bytes 0 4
    let disk ← number bytes 4 2
    let first_disk ← number bytes 6 2
    let here ← number bytes 8 2
    let count ← number bytes 10 2
    let size ← number bytes 12 4
    let offset ← number bytes 16 4
    let comment ← number bytes 20 2
    if signature = 0x06054B50 ∧ disk = 0 ∧ first_disk = 0 ∧ here = count ∧ comment = 0 then
      some { count, size, offset }
    else none

/-- What the central directory and the local header both say of a file. -/
structure Header where
  method : Nat
  crc : Nat
  packed : Nat
  size : Nat
  name : List UInt8
deriving DecidableEq

/-- A central header: its file, the offset of the local header, and its own length. -/
def read_central (bytes : List UInt8) : Option (Header × Nat × Nat) := do
  let signature ← number bytes 0 4
  let method ← number bytes 10 2
  let crc ← number bytes 16 4
  let packed ← number bytes 20 4
  let size ← number bytes 24 4
  let name_length ← number bytes 28 2
  let extra ← number bytes 30 2
  let comment ← number bytes 32 2
  let offset ← number bytes 42 4
  let name ← stretch bytes 46 name_length
  if signature = 0x02014B50 then
    some ({ method, crc, packed, size, name }, offset, 46 + name_length + extra + comment)
  else none

/-- A local header: its file, and its own length. -/
def read_local (bytes : List UInt8) : Option (Header × Nat) := do
  let signature ← number bytes 0 4
  let method ← number bytes 8 2
  let crc ← number bytes 14 4
  let packed ← number bytes 18 4
  let size ← number bytes 22 4
  let name_length ← number bytes 26 2
  let extra ← number bytes 28 2
  let name ← stretch bytes 30 name_length
  if signature = 0x04034B50 then
    some ({ method, crc, packed, size, name }, 30 + name_length + extra)
  else none

/-! ## Files -/

/-- A file as it is found: where its local header and its data start, and what it holds. -/
structure Found where
  header : Header
  offset : Nat
  start : Nat
  contents : List UInt8
deriving DecidableEq

/-- Method 0 stores the file, method 8 deflates it. -/
def unpack (method : Nat) (data : List UInt8) : Option (List UInt8) :=
  if method = 0 then some data else if method = 8 then rfc1951.inflate data else none

/-- The file of a central header: the local header says the same, and the contents have the size
and the checksum that the headers say. -/
def read_file (archive : List UInt8) (header : Header) (offset : Nat) : Option Found := do
  let (here, length) ← read_local (archive.drop offset)
  let data ← stretch archive (offset + length) header.packed
  let contents ← unpack header.method data
  if here = header ∧ contents.length = header.size ∧ crc32 contents = header.crc then
    some { header, offset, start := offset + length, contents }
  else none

def read_directory (archive : List UInt8) : Nat → Nat → Option (List Found)
  | 0, _ => some []
  | count + 1, position => do
    let (header, offset, length) ← read_central (archive.drop position)
    let file ← read_file archive header offset
    let rest ← read_directory archive count (position + length)
    some (file :: rest)

/-- The files of an archive, from its end record through the central directory. -/
def read_archive (archive : List UInt8) : Option (End × List Found) := do
  let last ← read_end archive
  let files ← read_directory archive last.count last.offset
  some (last, files)

end zip_format
