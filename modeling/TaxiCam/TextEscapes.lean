-- What the two JSON readers have in common: white space, the digits of an escape and
-- the bytes of a code point. src/app/json_value.hpp and src/app/changelog.hpp.
import Mathlib.Data.List.Basic

namespace taxi_camera.standalone.text_escapes

abbrev Text := List UInt8

def text_of (s : String) : Text := s.toList.map fun c => UInt8.ofNat c.toNat

def is_space (c : UInt8) : Bool := c = 32 || c = 9 || c = 13 || c = 10

/-- `space()`. -/
def space (text : Text) : Text := text.dropWhile is_space

def hex_digit (c : UInt8) : Option Nat :=
  if 48 ≤ c ∧ c ≤ 57 then some (c.toNat - 48)
  else if 97 ≤ c ∧ c ≤ 102 then some (c.toNat - 97 + 10)
  else if 65 ≤ c ∧ c ≤ 70 then some (c.toNat - 65 + 10)
  else none

/-- The first `n` characters as a number in base sixteen, behind the one that stands there already. -/
def hex_digits : Nat → Nat → Text → Option (Nat × Text)
  | 0, value, text => some (value, text)
  | _ + 1, _, [] => none
  | n + 1, value, c :: text =>
    match hex_digit c with
    | some digit => hex_digits n (value * 16 + digit) text
    | none => none

def hex4 (text : Text) : Option (Nat × Text) := hex_digits 4 0 text

/-- The bytes that `append_utf8` adds. The bits it joins are apart, so they add up. -/
def append_utf8 (cp : Nat) : Text :=
  if cp < 0x80 then [UInt8.ofNat cp]
  else if cp < 0x800 then [UInt8.ofNat (0xc0 + cp / 64), UInt8.ofNat (0x80 + cp % 64)]
  else if cp < 0x10000 then
    [UInt8.ofNat (0xe0 + cp / 4096), UInt8.ofNat (0x80 + cp / 64 % 64), UInt8.ofNat (0x80 + cp % 64)]
  else
    [UInt8.ofNat (0xf0 + cp / 262144), UInt8.ofNat (0x80 + cp / 4096 % 64), UInt8.ofNat (0x80 + cp / 64 % 64),
      UInt8.ofNat (0x80 + cp % 64)]

/-- Two halves of a code point beyond the sixteen bits of an escape. -/
def joined_surrogates (high low : Nat) : Nat := 0x10000 + (high - 0xd800) * 1024 + (low - 0xdc00)

/-- The character of an escape that is one character. -/
def simple_escape (e : UInt8) : Option UInt8 :=
  if e = 34 ∨ e = 92 ∨ e = 47 then some e
  else if e = 98 then some 8
  else if e = 102 then some 12
  else if e = 110 then some 10
  else if e = 114 then some 13
  else if e = 116 then some 9
  else none

def bom : Text := [0xef, 0xbb, 0xbf]

def strip_bom (text : Text) : Text := if bom.isPrefixOf text then text.drop 3 else text

/-! ## Lengths -/

theorem length_space (text : Text) : (space text).length ≤ text.length := (List.dropWhile_suffix _).length_le

theorem length_hex_digits {n value v : Nat} {text rest : Text} (h : hex_digits n value text = some (v, rest)) :
    rest.length + n = text.length := by
  induction n generalizing value text with
  | zero =>
    cases h
    rfl
  | succ n ih =>
    cases text with
    | nil => cases h
    | cons c text =>
      rw [hex_digits] at h
      split at h
      · have := ih h
        rw [List.length_cons]
        omega
      · cases h

end taxi_camera.standalone.text_escapes
