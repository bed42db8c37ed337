-- The notes of the releases and their two readers, strict and lenient:
-- src/app/changelog.hpp.
import TaxiCam.Readers
import TaxiCam.TextEscapes

namespace taxi_camera.standalone.changelog

open readers text_escapes
open Reader (fail unfinished)

def kChangelogMaxBytes : Nat := 64 * 1024

def kChangelogMaxReleases : Nat := 64

def kChangelogMaxChanges : Nat := 32

def kChangelogMaxText : Nat := 400

def kChangelogMaxFeatures : Nat := 8

def kChangelogMaxTitle : Nat := 80

def kChangelogMaxImagePath : Nat := 120

structure ChangelogVersion where
  major : Nat := 0
  minor : Nat := 0
  patch : Nat := 0
deriving DecidableEq

/-- The order of the three numbers. -/
def ChangelogVersion.older (a b : ChangelogVersion) : Prop :=
  a.major < b.major ∨ a.major = b.major ∧ (a.minor < b.minor ∨ a.minor = b.minor ∧ a.patch < b.patch)

instance (a b : ChangelogVersion) : Decidable (a.older b) :=
  inferInstanceAs (Decidable (a.major < b.major ∨ a.major = b.major ∧
    (a.minor < b.minor ∨ a.minor = b.minor ∧ a.patch < b.patch)))

structure ChangelogFeature where
  title : Text := []
  text : Text := []
  image : Text := []
deriving DecidableEq

structure ChangelogRelease where
  version : ChangelogVersion := {}
  date : Text := []
  features : List ChangelogFeature := []
  fixes : List Text := []
  changes : List Text := []
deriving DecidableEq

/-! ## Fields -/

def image_folder : Text := text_of "docs/whats-new/"

def image_character (c : UInt8) : Bool :=
  (97 ≤ c && c ≤ 122) || (65 ≤ c && c ≤ 90) || (48 ≤ c && c ≤ 57) || c = 46 || c = 45 || c = 95 || c = 47

def contains (needle text : Text) : Bool := text.tails.any needle.isPrefixOf

/-- `ends` of `valid_whats_new_image`: a suffix that is not all of the path. -/
def ends_in (suffix path : Text) : Bool := decide (path.length > suffix.length) && suffix.isSuffixOf path

def valid_whats_new_image (path : Text) : Bool :=
  if path.length > kChangelogMaxImagePath ∨ path.length ≤ image_folder.length ∨ !image_folder.isPrefixOf path ∨
      contains (text_of "..") path ∨ contains (text_of "//") path then false
  else path.all image_character &&
    (ends_in (text_of ".png") path || ends_in (text_of ".jpg") path || ends_in (text_of ".jpeg") path)

def is_digit (c : UInt8) : Bool := 48 ≤ c && c ≤ 57

/-- The loop over the digits of one part. -/
def part_digits : Text → Nat → Option (Nat × Text)
  | [], number => some (number, [])
  | c :: text, number =>
    if is_digit c then
      if number * 10 + (c.toNat - 48) > 65535 then none else part_digits text (number * 10 + (c.toNat - 48))
    else some (number, c :: text)

def version_part (text : Text) : Option (Nat × Text) :=
  match part_digits text 0 with
  | none => none
  | some (number, rest) =>
    let read := text.length - rest.length
    if read = 0 ∨ read > 1 ∧ text.head? = some 48 then none else some (number, rest)

/-- A part with the dot in front of it. -/
def next_part : Text → Option (Nat × Text)
  | c :: text => if c = 46 then version_part text else none
  | [] => none

def parse_changelog_version (text : Text) : Option ChangelogVersion := do
  let (major, text) ← version_part text
  let (minor, text) ← next_part text
  let (patch, text) ← next_part text
  if text = [] then some { major := major, minor := minor, patch := patch } else none

def digit_at (d : Text) (i : Nat) : Nat := (d.getD i 0).toNat - 48

def valid_date (d : Text) : Bool :=
  if d.length ≠ 10 ∨ d.getD 4 0 ≠ 45 ∨ d.getD 7 0 ≠ 45 then false
  else if [0, 1, 2, 3, 5, 6, 8, 9].any fun i => !is_digit (d.getD i 0) then false
  else
    let month := digit_at d 5 * 10 + digit_at d 6
    let day := digit_at d 8 * 10 + digit_at d 9
    decide (month ≥ 1) && decide (month ≤ 12) && decide (day ≥ 1) && decide (day ≤ 31)

/-- `find_first_not_of(" \t\r\n") == npos`. -/
def is_blank (text : Text) : Bool := text.all is_space

/-! ## The reader -/

/-- What the readers call: whether the system takes a text as UTF-8, and the turns that a loop may
take. -/
structure Host where
  valid_utf8 : Text → Bool
  turns : Nat

abbrev Read (α : Type) := Reader UInt8 String α

/-- White space, and the character if it is there. -/
def take (c : UInt8) : Read Bool := fun text =>
  match space text with
  | [] => .ok false []
  | x :: rest => if x = c then .ok true rest else .ok false (x :: rest)

def expect (c : UInt8) (message : String) : Read Unit := do
  let found ← take c
  if found then pure () else fail message

/-- The bytes of an escape, behind its backslash. -/
def escape : Read Text := fun text =>
  match text with
  | [] => .failed "Unterminated string."
  | e :: rest =>
    match simple_escape e with
    | some c => .ok [c] rest
    | none =>
      if e ≠ 117 then .failed "Invalid escape in text."
      else match hex4 rest with
        | none => .failed "Invalid \\u escape."
        | some (cp, rest) =>
          if 0xdc00 ≤ cp ∧ cp ≤ 0xdfff then .failed "Unpaired surrogate escape."
          else if 0xd800 ≤ cp ∧ cp ≤ 0xdbff then
            match rest with
            | 92 :: 117 :: rest =>
              match hex4 rest with
              | none => .failed "Unpaired surrogate escape."
              | some (low, rest) =>
                if low < 0xdc00 ∨ low > 0xdfff then .failed "Unpaired surrogate escape."
                else .ok (append_utf8 (joined_surrogates cp low)) rest
            | _ => .failed "Unpaired surrogate escape."
          else .ok (append_utf8 cp) rest

section
variable (host : Host)

/-- The loop over the characters of a string. -/
def string_loop (limit : Nat) : Nat → Text → Read Text
  | 0, _ => unfinished
  | turns + 1, out => fun text =>
    match text with
    | [] => .failed "Unterminated string."
    | c :: rest =>
      if c = 34 then
        -- Invalid UTF-8 is rejected here so display conversion cannot drop text.
        if out ≠ [] ∧ !host.valid_utf8 out then .failed "Text is not valid UTF-8." else .ok out rest
      else if c < 0x20 then .failed "Control character in text."
      else
        let added : Read Text := if c ≠ 92 then pure [c] else escape
        (do
          let bytes ← added
          if (out ++ bytes).length > limit then fail "Text is too long."
          else string_loop limit turns (out ++ bytes)) rest

def string (limit : Nat) : Read Text := fun text =>
  match space text with
  | 34 :: rest => string_loop host limit host.turns [] rest
  | _ => .failed "Expected a string."

variable {σ : Type}

/-- The loop over the members. -/
def members (member : σ → Text → Read σ) : Nat → σ → Read σ
  | 0, _ => unfinished
  | turns + 1, s => do
    let key ← string host 32
    expect 58 "Expected ':'."
    let s ← member s key
    let more ← take 44
    if more then members member turns s
    else do
      expect 125 "Expected ',' or '\x7d'."
      pure s

def object (member : σ → Text → Read σ) (s : σ) : Read σ := do
  expect 123 "Expected an object."
  let empty ← take 125
  if empty then pure s else members host member host.turns s

/-- The loop over the items. -/
def items (item : σ → Read σ) : Nat → σ → Read σ
  | 0, _ => unfinished
  | turns + 1, s => do
    let s ← item s
    let more ← take 44
    if more then items item turns s
    else do
      expect 93 "Expected ',' or ']'."
      pure s

def array (item : σ → Read σ) (s : σ) : Read σ := do
  expect 91 "Expected an array."
  let empty ← take 93
  if empty then pure s else items item host.turns s

/-- `true`, `false`, `null` or a number. -/
def scalar_character (c : UInt8) : Bool :=
  (97 ≤ c && c ≤ 122) || is_digit c || c = 45 || c = 43 || c = 46 || c = 69

/-- One value of any kind. The number is that of the levels still allowed, nine at first. -/
def skip : Nat → Read Unit
  | 0 => fail "Expected a value."
  | levels + 1 => fun text =>
    match space text with
    | [] => .failed "Expected a value."
    | c :: rest =>
      if c = 34 then (do let _ ← string host kChangelogMaxBytes; pure ()) (c :: rest)
      else if c = 123 then object host (fun _ _ => skip levels) () (c :: rest)
      else if c = 91 then array host (fun _ => skip levels) () (c :: rest)
      else if scalar_character c then .ok () (rest.dropWhile scalar_character)
      else .failed "Expected a value."

/-! ## The notes -/

inductive ChangelogParse
  | strict
  | lenient
deriving DecidableEq

variable (mode : ChangelogParse)

def unknown (message : String) : Read Unit :=
  match mode with
  | .lenient => skip host 9
  | .strict => fail message

/-- One of the notes of a list. -/
def note (out : List Text) : Read (List Text) :=
  if out.length ≥ kChangelogMaxChanges then fail "Too many changes in one release."
  else do
    let value ← string host kChangelogMaxText
    if is_blank value then fail "Change text is empty." else pure (out ++ [value])

def notes (out : List Text) : Read (List Text) := array host (note host) out

structure FeatureFields where
  item : ChangelogFeature := {}
  have_title : Bool := false
  have_text : Bool := false
  have_image : Bool := false

def feature_member (s : FeatureFields) (key : Text) : Read FeatureFields :=
  if key = text_of "title" ∧ !s.have_title then do
    let title ← string host kChangelogMaxTitle
    pure { s with have_title := true, item := { s.item with title := title } }
  else if key = text_of "text" ∧ !s.have_text then do
    let text ← string host kChangelogMaxText
    pure { s with have_text := true, item := { s.item with text := text } }
  else if key = text_of "image" ∧ !s.have_image then do
    let image ← string host kChangelogMaxImagePath
    if valid_whats_new_image image then pure { s with have_image := true, item := { s.item with image := image } }
    else fail "A feature image is a .png or .jpg path under docs/whats-new/."
  else do
    unknown host mode "Unknown or repeated feature field."
    pure s

def feature (features : List ChangelogFeature) : Read (List ChangelogFeature) :=
  if features.length ≥ kChangelogMaxFeatures then fail "Too many features in one release."
  else do
    let s ← object host (feature_member host mode) {}
    if is_blank s.item.title ∨ is_blank s.item.text then fail "Each feature needs a title and text."
    else pure (features ++ [s.item])

structure ReleaseFields where
  entry : ChangelogRelease := {}
  have_version : Bool := false
  have_date : Bool := false
  have_features : Bool := false
  have_fixes : Bool := false
  have_changes : Bool := false

def release_member (s : ReleaseFields) (key : Text) : Read ReleaseFields :=
  if key = text_of "version" ∧ !s.have_version then do
    let value ← string host 32
    match parse_changelog_version value with
    | some version => pure { s with have_version := true, entry := { s.entry with version := version } }
    | none => fail "Version must be major.minor.patch."
  else if key = text_of "date" ∧ !s.have_date then do
    let date ← string host 10
    if valid_date date then pure { s with have_date := true, entry := { s.entry with date := date } }
    else fail "Date must be YYYY-MM-DD."
  else if key = text_of "features" ∧ !s.have_features then do
    let features ← array host (feature host mode) s.entry.features
    pure { s with have_features := true, entry := { s.entry with features := features } }
  else if key = text_of "fixes" ∧ !s.have_fixes then do
    let fixes ← notes host s.entry.fixes
    pure { s with have_fixes := true, entry := { s.entry with fixes := fixes } }
  else if key = text_of "changes" ∧ !s.have_changes then do
    let changes ← notes host s.entry.changes
    pure { s with have_changes := true, entry := { s.entry with changes := changes } }
  else do
    unknown host mode "Unknown or repeated release field."
    pure s

def release (parsed : List ChangelogRelease) : Read (List ChangelogRelease) :=
  if parsed.length ≥ kChangelogMaxReleases then fail "Too many releases."
  else do
    let s ← object host (release_member host mode) {}
    if !s.have_version ∨ s.entry.features = [] ∧ s.entry.fixes = [] ∧ s.entry.changes = [] then
      fail "Each release needs a version and at least one feature, fix or change."
    else if parsed.getLast?.any fun last => !decide (s.entry.version.older last.version) then
      fail "Releases must be newest first with unique versions."
    else pure (parsed ++ [s.entry])

structure ChangelogFields where
  parsed : List ChangelogRelease := []
  have_releases : Bool := false

/-- A member that is not the list of releases, or is it again. -/
def other_member (s : ChangelogFields) (key : Text) : Read Unit :=
  if s.have_releases ∧ key = text_of "releases" then fail "Unknown or repeated top-level field."
  else unknown host mode "Unknown or repeated top-level field."

def top_member (s : ChangelogFields) (key : Text) : Read ChangelogFields :=
  if key ≠ text_of "releases" ∨ s.have_releases then do
    other_member host mode s key
    pure s
  else do
    let parsed ← array host (release host mode) s.parsed
    pure { parsed := parsed, have_releases := true }

/-- The text behind the last member. -/
def finish : Read Unit := fun text =>
  match space text with
  | [] => .ok () []
  | _ :: _ => .failed "Unexpected text after the changelog."

def read_changelog (text : Text) : Outcome UInt8 String (List ChangelogRelease) :=
  if text.length > kChangelogMaxBytes then .failed "Changelog is too large."
  else
    (do
      let s ← object host (top_member host mode) {}
      finish
      if s.parsed = [] then fail "Changelog has no releases." else pure s.parsed) (strip_bom text)

end

/-- Whether the text is accepted, what is in the caller's list then, and the error. None stands for
a run that does not end in the turns that the text's length gives its loops. -/
def parse_changelog (valid_utf8 : Text → Bool) (mode : ChangelogParse) (text : Text)
    (releases : List ChangelogRelease) : Option (Bool × List ChangelogRelease × Option String) :=
  match read_changelog { valid_utf8 := valid_utf8, turns := text.length + 1 } mode text with
  | .ok parsed _ => some (true, parsed, none)
  | .failed error => some (false, releases, some error)
  | .unfinished => none

end taxi_camera.standalone.changelog
