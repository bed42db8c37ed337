-- What a bug report takes out of the text that it shares. `redact` of
-- src/app/report_bundle.hpp and `report_redactions` of src/app/bug_report.hpp.
import TaxiCam.Splices
import TaxiCam.Runs
import Mathlib.Data.List.DropRight

namespace taxi_camera.standalone

open splices

/-- The bytes of an ASCII text. -/
def ascii (s : String) : List UInt8 := s.toList.map fun c => UInt8.ofNat c.toNat

structure Redaction where
  value : List UInt8
  replacement : List UInt8
  whole_word : Bool := false
deriving DecidableEq

namespace report_bundle

/-! ## `redact` -/

def lower (c : UInt8) : UInt8 := if 65 ≤ c ∧ c ≤ 90 then c + 32 else c

def word (c : UInt8) : Bool :=
  (97 ≤ c && c ≤ 122) || (65 ≤ c && c ≤ 90) || (48 ≤ c && c ≤ 57) || c = 95 || 128 ≤ c

/-- No word character stands there. -/
def edge (c : Option UInt8) : Bool := !c.any word

/-- The value of the rule stands at the start of the rest of a text. -/
def matches_at (rule : Redaction) (previous : Option UInt8) (rest : List UInt8) : Bool :=
  (rest.take rule.value.length).map lower = rule.value.map lower &&
    (!rule.whole_word || edge previous && edge (rest.drop rule.value.length).head?)

/-- One rule, from a place in the text on. -/
def redact_from (rule : Redaction) : Option UInt8 → List UInt8 → List UInt8
  | _, [] => []
  | previous, c :: rest =>
    if matches_at rule previous (c :: rest) then
      rule.replacement ++ redact_from rule ((c :: rest).take rule.value.length).getLast?
        (rest.drop (rule.value.length - 1))
    else c :: redact_from rule (some c) rest
termination_by _ text => text.length
decreasing_by
  · rw [List.length_drop, List.length_cons]
    omega
  · exact Nat.lt_succ_self _

def redact_rule (text : List UInt8) (rule : Redaction) : List UInt8 :=
  if rule.value = [] then text else redact_from rule none text

def redact (text : List UInt8) (rules : List Redaction) : List UInt8 := rules.foldl redact_rule text

/-! ## `report_redactions` -/

def backslash : UInt8 := 92
def slash : UInt8 := 47

def user_profile : List UInt8 := ascii "%USERPROFILE%"
def user_mark : List UInt8 := ascii "<user>"
def computer_mark : List UInt8 := ascii "<computer>"

/-- The rules for a profile folder, an account name and a computer name. -/
def report_redactions (profile user computer : List UInt8) : List Redaction :=
  let escaped := profile.flatMap fun c => if c = backslash then [backslash, backslash] else [c]
  let forward := profile.map fun c => if c = backslash then slash else c
  let folder := profile.rtakeWhile (· ≠ backslash)
  [{ value := escaped, replacement := user_profile }, { value := profile, replacement := user_profile },
      { value := forward, replacement := user_profile }] ++
    -- A very short name would also match ordinary words in the logs.
    (if user.length ≥ 3 then [{ value := user, replacement := user_mark, whole_word := true }] else []) ++
    (if backslash ∈ profile ∧ folder.length ≥ 3 then
      [{ value := folder, replacement := user_mark, whole_word := true }] else []) ++
    (if computer.length ≥ 3 then
      [{ value := computer, replacement := computer_mark, whole_word := true }] else [])

/-! ## What is private in a text -/

/-- The value of a rule between two parts of a text, as a whole word where the rule asks for one. -/
structure Stands (rule : Redaction) (before found after : List UInt8) : Prop where
  same : found.map lower = rule.value.map lower
  whole : rule.whole_word = true → edge before.getLast? = true ∧ edge after.head? = true

def Occurs (rule : Redaction) (text : List UInt8) : Prop :=
  ∃ before found after, text = before ++ found ++ after ∧ Stands rule before found after

/-- The text, and the rules that it has been through. -/
structure Redacted where
  seen : List Redaction := []
  text : List UInt8

def pass (s : Redacted) (rule : Redaction) : Redacted :=
  { seen := s.seen ++ [rule], text := redact_rule s.text rule }

/-! ## What a pass must not meet -/

/-- Every way to cut a list in two. -/
def cuts {α : Type} (l : List α) : List (List α × List α) :=
  (List.range (l.length + 1)).map fun i => (l.take i, l.drop i)

/-- The value runs into the replacement or out of it, or lies inside it. -/
def meets (value replacement : List UInt8) : Bool :=
  ((cuts value).any fun c => c.1 ≠ [] && c.2 ≠ [] &&
      (c.2.isPrefixOf replacement || replacement.isPrefixOf c.2 || c.1.isSuffixOf replacement)) ||
    (cuts replacement).any fun c => value.isPrefixOf c.2

/-- The pass replaces something that starts, or that ends, where the text is cut. -/
def starts_at (rule : Redaction) (before after : List UInt8) : Bool :=
  matches_at rule before.getLast? after

def ends_at (rule : Redaction) (before after : List UInt8) : Bool :=
  rule.value.length ≤ before.length &&
    starts_at rule (before.take (before.length - rule.value.length))
      (before.drop (before.length - rule.value.length) ++ after)

/-- A value that stands between word boundaries and replaced occurrences stands between word
boundaries already. -/
def bounded (rule other : Redaction) (before rest : List UInt8) : Bool :=
  let found := rest.take other.value.length
  let after := rest.drop other.value.length
  found.map lower ≠ other.value.map lower ||
    !((edge before.getLast? || ends_at rule before rest) &&
      (edge after.head? || starts_at rule (before ++ found) after)) ||
    edge before.getLast? && edge after.head?

/-- No value of a rule so far meets the replacement, if there is something to replace, and none
touches an occurrence whose end there was a word character. -/
def clear (s : Redacted) (rule : Redaction) : Bool :=
  rule.value = [] || (s.seen ++ [rule]).all fun other =>
    other.value = [] ||
      ((!((cuts s.text).any fun c => starts_at rule c.1 c.2) ||
          !meets (other.value.map lower) (rule.replacement.map lower)) &&
        (!other.whole_word || (cuts s.text).all fun c => bounded rule other c.1 c.2))

end report_bundle

end taxi_camera.standalone
