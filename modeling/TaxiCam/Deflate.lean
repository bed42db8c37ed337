-- The compression of the bug report's files: one block with fixed Huffman
-- codes. `BitWriter` and `deflate_fixed` of src/app/report_bundle.hpp.
import TaxiCam.Runs
import Mathlib.Data.Nat.Bitwise

namespace taxi_camera.standalone

namespace deflate_detail

def LengthBase : List Nat :=
  [3, 4, 5, 6, 7, 8, 9, 10, 11, 13, 15, 17, 19, 23, 27,
    31, 35, 43, 51, 59, 67, 83, 99, 115, 131, 163, 195, 227, 258]

def LengthExtra : List Nat :=
  [0, 0, 0, 0, 0, 0, 0, 0, 1, 1, 1, 1, 2, 2, 2,
    2, 3, 3, 3, 3, 4, 4, 4, 4, 5, 5, 5, 5, 0]

def DistanceBase : List Nat :=
  [1, 2, 3, 4, 5, 7, 9, 13, 17, 25,
    33, 49, 65, 97, 129, 193, 257, 385, 513, 769,
    1025, 1537, 2049, 3073, 4097, 6145, 8193, 12289, 16385, 24577]

def DistanceExtra : List Nat :=
  [0, 0, 0, 0, 1, 1, 2, 2, 3, 3, 4, 4, 5, 5, 6,
    6, 7, 7, 8, 8, 9, 9, 10, 10, 11, 11, 12, 12, 13, 13]

/-! ## `BitWriter` -/

/-- Deflate packs bits from the least significant end; Huffman codes go most significant bit
first. -/
structure BitWriter where
  out : List UInt8 := []
  buffer : Nat := 0
  count : Nat := 0

namespace BitWriter

/-- The whole bytes of the buffer. -/
def flush (w : BitWriter) : BitWriter :=
  if _h : w.count ≥ 8 then
    flush { out := w.out ++ [UInt8.ofNat (w.buffer &&& 0xFF)], buffer := w.buffer >>> 8, count := w.count - 8 }
  else w
termination_by w.count

def put (w : BitWriter) (value bits : Nat) : BitWriter :=
  flush { w with buffer := w.buffer ||| value <<< w.count, count := w.count + bits }

/-- The loop of `code`: `i` bits are reversed. -/
def reverse_bits (value bits : Nat) : Nat → Nat
  | 0 => 0
  | i + 1 => reverse_bits value bits i ||| ((value >>> i) &&& 1) <<< (bits - 1 - i)

def code (w : BitWriter) (value bits : Nat) : BitWriter := w.put (reverse_bits value bits bits) bits

def symbol (w : BitWriter) (value : Nat) : BitWriter :=
  if value < 144 then w.code (0x30 + value) 8
  else if value < 256 then w.code (0x190 + value - 144) 9
  else if value < 280 then w.code (value - 256) 7
  else w.code (0xC0 + value - 280) 8

def finish (w : BitWriter) : BitWriter :=
  { out := if w.count ≠ 0 then w.out ++ [UInt8.ofNat (w.buffer &&& 0xFF)] else w.out }

end BitWriter

end deflate_detail

open deflate_detail

/-! ## The matcher -/

def Window : Nat := 32768
def MinMatch : Nat := 3
def MaxMatch : Nat := 258
def HashBits : Nat := 15
def MaxChain : Nat := 48

/-- The newest position of each hash, and of each position of the window the one before it with the
same hash. No position is -1. -/
structure Chains where
  head : Nat → Int := fun _ => -1
  previous : Nat → Int := fun _ => -1

def byte (input : List UInt8) (i : Nat) : Nat := (input[i]?.getD 0).toNat

def hash (input : List UInt8) (i : Nat) : Nat :=
  ((byte input i ||| byte input (i + 1) <<< 8 ||| byte input (i + 2) <<< 16) * 2654435761 % 0x100000000)
    >>> (32 - HashBits)

def insert (input : List UInt8) (t : Chains) (i : Nat) : Chains :=
  if i + MinMatch > input.length then t
  else
    { previous := Function.update t.previous (i &&& (Window - 1)) (t.head (hash input i))
      head := Function.update t.head (hash input i) i }

/-- `length` counts up while the two stretches agree. -/
def match_length (input : List UInt8) (c i limit length : Nat) : Nat :=
  if length < limit ∧ input[c + length]? = input[i + length]? then
    match_length input c i limit (length + 1)
  else length
termination_by limit - length

/-- The candidates of one chain; the best length so far, and its distance. A chain entry is still
its own while within the window: the slot is reused only by the position one window later, not yet
inserted. -/
def search (input : List UInt8) (t : Chains) (i limit : Nat) : Nat → Int → Nat × Nat → Nat × Nat
  | 0, _, best => best
  | chain + 1, candidate, best =>
    if candidate < 0 then best
    else
      let c := candidate.toNat
      if i - c > Window then best
      else
        let candidate := t.previous (c &&& (Window - 1))
        if input[c + best.1]? = input[i + best.1]? ∨ best.1 = 0 then
          let length := match_length input c i limit 0
          if length > best.1 then
            if length = limit then (length, i - c)
            else search input t i limit chain candidate (length, i - c)
          else search input t i limit chain candidate best
        else search input t i limit chain candidate best

def best_match (input : List UInt8) (t : Chains) (i : Nat) : Nat × Nat :=
  if i + MinMatch ≤ input.length then
    search input t i (min MaxMatch (input.length - i)) MaxChain (t.head (hash input i)) (0, 0)
  else (0, 0)

/-! ## The stream -/

/-- The last entry of a table up to a value. -/
def last_at_most (table : List Nat) (value : Nat) : Nat → Nat
  | 0 => 0
  | l + 1 => if table.getD (l + 1) 0 > value then last_at_most table value l else l + 1

def put_match (w : BitWriter) (length distance : Nat) : BitWriter :=
  let l := last_at_most LengthBase length (LengthBase.length - 1)
  let w := w.symbol (257 + l)
  let w := w.put (length - LengthBase.getD l 0) (LengthExtra.getD l 0)
  let d := last_at_most DistanceBase distance (DistanceBase.length - 1)
  let w := w.code d 5
  w.put (distance - DistanceBase.getD d 0) (DistanceExtra.getD d 0)

/-- The positions of a match, each inserted. -/
def insert_all (input : List UInt8) (i : Nat) : Nat → Chains → Chains
  | 0, t => t
  | k + 1, t => insert input (insert_all input i k t) (i + k)

def deflate_from (input : List UInt8) (i : Nat) (t : Chains) (w : BitWriter) : BitWriter :=
  if _hi : i < input.length then
    let best := best_match input t i
    if _hbest : best.1 ≥ MinMatch then
      deflate_from input (i + best.1) (insert_all input i best.1 t) (put_match w best.1 best.2)
    else deflate_from input (i + 1) (insert input t i) (w.symbol (byte input i))
  else w
termination_by input.length - i
decreasing_by
  · have hlong : 3 ≤ (best_match input t i).1 := _hbest
    change input.length - (i + (best_match input t i).1) < _
    omega
  · omega

def deflate_fixed (input : List UInt8) : List UInt8 :=
  let w : BitWriter := {}
  let w := w.put 1 1
  let w := w.put 1 2
  let w := deflate_from input 0 {} w
  (w.symbol 256).finish.out

end taxi_camera.standalone
