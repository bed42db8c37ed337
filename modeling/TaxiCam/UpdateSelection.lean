-- Which installer an update check selects: release versions, the release's
-- assets and its checksum file. src/app/updater.cpp, and the values of
-- src/app/json_value.hpp.
import Mathlib.Data.Rat.Defs
import Mathlib.Data.List.TakeWhile

namespace taxi_camera.standalone

/-! ## JSON -/

namespace json

/-- A parsed document. A number has its value. -/
inductive Value where
  | null
  | boolean (value : Bool)
  | number (value : Rat)
  | string (text : List Char)
  | array (items : List Value)
  | object (members : List (List Char × Value))

/-- None when this is not an object or the member is absent. -/
def Value.find (v : Value) (key : String) : Option Value :=
  match v with
  | .object members => (members.find? fun m => m.1 = key.toList).map (·.2)
  | _ => none

/-- An integral number within the bounds. -/
def Value.integer (v : Value) (minimum maximum : Int) : Option Int :=
  match v with
  | .number value => if value.den = 1 ∧ minimum ≤ value.num ∧ value.num ≤ maximum then some value.num else none
  | _ => none

end json

namespace updater

open json

/-! ## Texts -/

def DownloadLimit : Int := 256 * 1024 * 1024
def MetadataLimit : Int := 1024 * 1024
def Repository : List Char := "rthoms334/taxi-cam".toList

def ascii (s : List Char) : Bool := s.all fun c => 0x20 ≤ c.toNat ∧ c.toNat ≤ 0x7e

def is_hex (c : Char) : Bool := ('0' ≤ c ∧ c ≤ '9') ∨ ('a' ≤ c ∧ c ≤ 'f') ∨ ('A' ≤ c ∧ c ≤ 'F')

def hex_hash (hash : List Char) : Bool := hash.length = 64 ∧ hash.all is_hex

def lower_char (c : Char) : Char := if 'A' ≤ c ∧ c ≤ 'Z' then Char.ofNat (c.toNat - 65 + 97) else c

def lower (text : List Char) : List Char := text.map lower_char

/-- `std::to_string` of an unsigned number. -/
def to_string (n : Nat) : List Char := (toString n).toList

/-! ## Versions -/

structure UpdateVersion where
  major : Nat := 0
  minor : Nat := 0
  patch : Nat := 0
  build : Nat := 0
deriving DecidableEq

def is_digit (c : Char) : Bool := '0' ≤ c ∧ c ≤ '9'

/-- The digits at the front, after a number that is read already. -/
def digits : Nat → List Char → Option (Nat × List Char)
  | n, [] => some (n, [])
  | n, c :: rest =>
    if is_digit c then
      let n := n * 10 + (c.toNat - '0'.toNat)
      if n > 0xFFFFFFFF then none else digits n rest
    else some (n, c :: rest)

/-- A number without leading zeros. -/
def number (tag : List Char) : Option (Nat × List Char) := do
  let (n, rest) ← digits 0 tag
  let count := tag.length - rest.length
  if count = 0 ∨ (count > 1 ∧ tag.head? = some '0') then none else some (n, rest)

/-- What is behind a text at the front. -/
def behind (word tag : List Char) : Option (List Char) :=
  if tag.take word.length = word then some (tag.drop word.length) else none

def parse_update_version (tag : List Char) : Option UpdateVersion := do
  if tag.length > 64 then none
  else
    let tag ← behind ['v'] tag
    let (major, tag) ← number tag
    let tag ← behind ['.'] tag
    let (minor, tag) ← number tag
    let tag ← behind ['.'] tag
    let (patch, tag) ← number tag
    let tag ← behind "-build.".toList tag
    let (build, tag) ← number tag
    if tag = [] then some { major, minor, patch, build } else none

/-- The order of the four numbers, one after the other. -/
def newer_update (candidate current : UpdateVersion) : Bool :=
  if candidate.major ≠ current.major then candidate.major > current.major
  else if candidate.minor ≠ current.minor then candidate.minor > current.minor
  else if candidate.patch ≠ current.patch then candidate.patch > current.patch
  else candidate.build > current.build

/-! ## `select_update_asset` -/

def string_member (object : Value) (key : String) : Option (List Char) :=
  match object.find key with
  | some (.string text) => some text
  | _ => none

def named_assets (assets : List Value) (name : List Char) : List Value :=
  assets.filter fun asset => string_member asset "name" = some name

structure UpdateAsset where
  tag : List Char
  name : List Char
  url : List Char
  size : Int
  digest : List Char := []
  sums_url : List Char := []
deriving DecidableEq

inductive UpdateSelection where
  | Current
  | Selected (asset : UpdateAsset)
  | Invalid
deriving DecidableEq

/-- Neither a draft nor a prerelease. -/
def stable (release : Value) : Bool :=
  match release.find "draft", release.find "prerelease" with
  | some (.boolean draft), some (.boolean prerelease) => !draft && !prerelease
  | _, _ => false

def release_version (release : Value) : Option (List Char × UpdateVersion) := do
  let tag ← string_member release "tag_name"
  if tag.length > 64 ∨ !ascii tag then none
  else
    let version ← parse_update_version tag
    some (tag, version)

def clean_name (version : UpdateVersion) : List Char :=
  "taxi-cam-".toList ++ to_string version.major ++ ['.'] ++ to_string version.minor ++ ['.'] ++
    to_string version.patch ++ "-windows-x64-setup.exe".toList

def legacy_name (tag : List Char) : List Char :=
  "taxi-cam-".toList ++ tag.drop 1 ++ "-windows-x64-setup.exe".toList

/-- The one installer and its name. An advertised clean name is authoritative. -/
def installer_asset (assets : List Value) (tag : List Char) (version : UpdateVersion) :
    Option (List Char × Value) :=
  let found := named_assets assets (clean_name version)
  let legacy := named_assets assets (legacy_name tag)
  if found.length > 1 ∨ legacy.length > 1 then none
  else
    match found with
    | asset :: _ => some (clean_name version, asset)
    | [] => legacy.head?.map fun asset => (legacy_name tag, asset)

def release_base (tag : List Char) : List Char :=
  "https://github.com/".toList ++ Repository ++ "/releases/download/".toList ++ tag ++ ['/']

/-- The size of an uploaded asset at a certain place. -/
def uploaded (asset : Value) (url : List Char) (limit : Int) : Option Int := do
  let found ← string_member asset "browser_download_url"
  let state ← string_member asset "state"
  let size ← asset.find "size"
  let bytes ← size.integer 1 limit
  if found = url ∧ state = "uploaded".toList then some bytes else none

/-- What the asset says of its digest. -/
inductive Digest where
  | given (digest : List Char)
  | absent
  | malformed
deriving DecidableEq

def metadata_digest (asset : Value) : Digest :=
  match asset.find "digest" with
  | none => .absent
  | some .null => .absent
  | some (.string text) =>
    if text = [] then .absent
    else if text.take 7 = "sha256:".toList ∧ ascii (text.drop 7) ∧ hex_hash (text.drop 7) then
      .given (lower (text.drop 7))
    else .malformed
  | some _ => .malformed

/-- The place of the one checksum file. -/
def checksum_url (assets : List Value) (tag : List Char) : Option (List Char) := do
  let sums := named_assets assets "SHA256SUMS.txt".toList
  if sums.length ≠ 1 then none
  else
    let sums ← sums.head?
    let url := release_base tag ++ "SHA256SUMS.txt".toList
    let _ ← uploaded sums url MetadataLimit
    some url

/-- The one exact Windows installer of a stable, newer release. -/
def select_update_asset (trusted : List Char → Bool) (release : Value) (current : UpdateVersion) :
    UpdateSelection :=
  if !stable release then .Invalid
  else
    match release_version release with
    | none => .Invalid
    | some (tag, version) =>
      if !newer_update version current then .Current
      else
        match release.find "assets" with
        | some (.array assets) =>
          match installer_asset assets tag version with
          | none => .Invalid
          | some (name, found) =>
            let url := release_base tag ++ name
            match uploaded found url DownloadLimit with
            | none => .Invalid
            | some size =>
              if !trusted url then .Invalid
              else
                match metadata_digest found with
                | .given digest => .Selected { tag, name, url, size, digest }
                | .malformed => .Invalid
                | .absent =>
                  match checksum_url assets tag with
                  | some sums_url => .Selected { tag, name, url, size, sums_url }
                  | none => .Invalid
        | _ => .Invalid

/-! ## `read_installer_checksum` -/

/-- What a line says: the digest of a file, and the file's name. -/
def checksum_line (line : List Char) : Option (List Char × List Char) :=
  let line := if line.getLast? = some '\r' then line.dropLast else line
  if line.length > 66 ∧ ascii (line.take 64) ∧ hex_hash (line.take 64) ∧ (line)[64]? = some ' ' ∧
      ((line)[65]? = some ' ' ∨ (line)[65]? = some '*') then
    some (lower (line.take 64), line.drop 66)
  else none

/-- The lines of the text, and what was found in those before. -/
def checksum_loop (name : List Char) : Nat → List Char → List Char × Nat → List Char × Nat
  | 0, _, found => found
  | fuel + 1, text, (found, count) =>
    if text = [] then (found, count)
    else
      let line := text.takeWhile (· ≠ '\n')
      let rest := text.drop (line.length + 1)
      match checksum_line line with
      | some (digest, file) =>
        if file = name then checksum_loop name fuel rest (digest, count + 1)
        else checksum_loop name fuel rest (found, count)
      | none => checksum_loop name fuel rest (found, count)

/-- The digest of the single line for a name. Every turn of the loop takes a line off the text. -/
def read_installer_checksum (text name : List Char) : Option (List Char) :=
  let (found, count) := checksum_loop name text.length text ([], 0)
  if count = 1 then some found else none

end updater

end taxi_camera.standalone
