-- The JSON reader: src/app/json_value.hpp. The text is what is left of it; where the
-- source moves `at`, what was read is taken off the front.
import TaxiCam.Readers
import TaxiCam.TextEscapes

namespace taxi_camera.standalone.json.detail

open readers text_escapes
open Reader (fail unfinished)

inductive Value (δ : Type)
  | null
  | bool (boolean : Bool)
  | number (text : Text) (number : δ)
  | string (text : Text)
  | array (items : List (Value δ))
  | object (members : List (Text × Value δ))

def MaxDepth : Nat := 32

/-- What the reader calls: the number of a token, and the characters that so many bytes have as
UTF-8, which is 0 where a byte is invalid. -/
structure Host (δ : Type) where
  strtod : Text → δ
  isfinite : δ → Bool
  multi_byte_to_wide_char : Text → Int → Int

/-- `static_cast<int>` of a size. -/
def int_of (n : Nat) : Int := Int.bmod n 0x100000000

abbrev Read (α : Type) := Reader UInt8 Unit α

/-! ## Strings -/

def literal (word : Text) : Read Unit := fun text =>
  if word.isPrefixOf text then .ok () (text.drop word.length) else .failed ()

def hex4 : Read Nat := fun text =>
  match text_escapes.hex4 text with
  | some (value, rest) => .ok value rest
  | none => .failed ()

/-- The second half behind the first. -/
def low_surrogate (high : Nat) : Read Nat := do
  literal (text_of "\\u")
  let low ← hex4
  if low < 0xdc00 ∨ low > 0xdfff then fail () else pure (joined_surrogates high low)

/-- The code point of an escape, behind its letter. -/
def code_point : Read Nat := do
  let cp ← hex4
  if 0xd800 ≤ cp ∧ cp ≤ 0xdbff then low_surrogate cp
  else if 0xdc00 ≤ cp ∧ cp ≤ 0xdfff then fail ()
  else pure cp

/-- The bytes of an escape, behind its backslash. -/
def escape : Read Text := fun text =>
  match text with
  | [] => .failed ()
  | e :: rest =>
    match simple_escape e with
    | some c => .ok [c] rest
    | none =>
      if e ≠ 117 then .failed ()
      else
        (do
          let cp ← code_point
          pure (append_utf8 cp)) rest

section
variable {δ : Type} (host : Host δ) (turns : Nat)

/-- The loop over the characters of a string. -/
def string_loop : Nat → Text → Read Text
  | 0, _ => unfinished
  | turns + 1, out => fun text =>
    match text with
    | [] => .failed ()
    | c :: rest =>
      if c = 34 then
        if out = [] ∨ host.multi_byte_to_wide_char out (int_of out.length) > 0 then .ok out rest else .failed ()
      else if c < 0x20 then .failed ()
      else if c ≠ 92 then string_loop turns (out ++ [c]) rest
      else
        (do
          let bytes ← escape
          string_loop turns (out ++ bytes)) rest

def string : Read Text := fun text =>
  match text with
  | [] => .failed ()
  | c :: rest => if c ≠ 34 then .failed () else string_loop host turns [] rest

/-! ## Numbers -/

def is_digit (c : UInt8) : Bool := 48 ≤ c && c ≤ 57

/-- Each of the following gives the text that it went over. -/
def digits : Read Text := fun text =>
  if text.takeWhile is_digit = [] then .failed () else .ok (text.takeWhile is_digit) (text.dropWhile is_digit)

def minus : Read Text := fun text => if text.head? = some 45 then .ok [45] (text.drop 1) else .ok [] text

def integer : Read Text := fun text => if text.head? = some 48 then .ok [48] (text.drop 1) else digits text

def fraction_digits : Read Text := do
  let read ← digits
  pure (46 :: read)

def fraction : Read Text := fun text => if text.head? = some 46 then fraction_digits (text.drop 1) else .ok [] text

def sign : Read Text := fun text =>
  match text with
  | [] => .ok [] []
  | c :: rest => if c = 43 ∨ c = 45 then .ok [c] rest else .ok [] (c :: rest)

def exponent_digits (e : UInt8) : Read Text := do
  let sign ← sign
  let read ← digits
  pure (e :: sign ++ read)

def exponent : Read Text := fun text =>
  match text with
  | [] => .ok [] []
  | c :: rest => if c = 101 ∨ c = 69 then exponent_digits c rest else .ok [] (c :: rest)

def token : Read Text := do
  let minus ← minus
  let integer ← integer
  let fraction ← fraction
  let exponent ← exponent
  pure (minus ++ integer ++ fraction ++ exponent)

def number : Read (Value δ) := do
  let text ← token
  if host.isfinite (host.strtod text) then pure (.number text (host.strtod text)) else fail ()

/-! ## Values -/

/-- White space, and the next character. -/
def next_character : Read UInt8 := fun text =>
  match space text with
  | [] => .failed ()
  | c :: rest => .ok c rest

variable {α : Type}

/-- The loop over the members or the items. -/
def parts (closing : UInt8) (part : List α → Read (List α)) : Nat → List α → Read (List α)
  | 0, _ => unfinished
  | turns + 1, parsed => do
    let parsed ← part parsed
    let next ← next_character
    if next = 44 then parts closing part turns parsed
    else if next ≠ closing then fail ()
    else pure parsed

/-- What stands behind the opening bracket. -/
def container (closing : UInt8) (part : List α → Read (List α)) : Read (List α) := fun text =>
  if (space text).head? = some closing then .ok [] ((space text).drop 1)
  else parts closing part turns [] (space text)

def item (value : Read (Value δ)) (parsed : List (Value δ)) : Read (List (Value δ)) := do
  let item ← value
  pure (parsed ++ [item])

/-- The colon and the value of a member. -/
def member_value (value : Read (Value δ)) (parsed : List (Text × Value δ)) (key : Text) :
    Read (List (Text × Value δ)) := do
  let colon ← next_character
  if colon ≠ 58 then fail ()
  else do
    let item ← value
    pure (parsed ++ [(key, item)])

def key : Read Text := fun text => string host turns (space text)

def member (value : Read (Value δ)) (parsed : List (Text × Value δ)) : Read (List (Text × Value δ)) := do
  let key ← key host turns
  if parsed.any fun member => member.1 = key then fail () else member_value value parsed key

def object (value : Read (Value δ)) : Read (Value δ) := do
  let members ← container turns 125 (member host turns value)
  pure (.object members)

def array (value : Read (Value δ)) : Read (Value δ) := do
  let items ← container turns 93 (item value)
  pure (.array items)

def string_value : Read (Value δ) := do
  let text ← string host turns
  pure (.string text)

/-- A value that is no array and no object. -/
def scalar : Read (Value δ) := fun text =>
  if text.head? = some 34 then string_value host turns text
  else if (text_of "true").isPrefixOf text then .ok (.bool true) (text.drop 4)
  else if (text_of "false").isPrefixOf text then .ok (.bool false) (text.drop 5)
  else if (text_of "null").isPrefixOf text then .ok .null (text.drop 4)
  else number host text

/-- `value`, with the number of levels that `depth` may still go up. -/
def value : Nat → Read (Value δ)
  | 0 => fun text =>
    match space text with
    | [] => .failed ()
    | c :: rest => if c = 123 ∨ c = 91 then .failed () else scalar host turns (c :: rest)
  | levels + 1 => fun text =>
    match space text with
    | [] => .failed ()
    | c :: rest =>
      if c = 123 then object host turns (value levels) rest
      else if c = 91 then array turns (value levels) rest
      else scalar host turns (c :: rest)

/-- The text behind the value. -/
def finish : Read Unit := fun text =>
  match space text with
  | [] => .ok () []
  | _ :: _ => .failed ()

def document : Read (Value δ) := do
  let parsed ← value host turns MaxDepth
  finish
  pure parsed

end

/-- `json::parse`: whether the text is accepted, and what is in the caller's value then. None stands
for a run that does not end in the turns that the text's length gives its loops. -/
def parse {δ : Type} (host : Host δ) (text : Text) (out : Value δ) : Option (Bool × Value δ) :=
  match document host (text.length + 1) (strip_bom text) with
  | .ok parsed _ => some (true, parsed)
  | .failed _ => some (false, out)
  | .unfinished => none

end taxi_camera.standalone.json.detail
