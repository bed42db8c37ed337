-- The texts of the Community package: the stock page and script with the helper
-- added, the manifest, the layout and the marker.
-- src/setup/marks_package.hpp.
import TaxiCam.Decimal

namespace taxi_camera.standalone.marks_package

open List

/-! ## Texts -/

abbrev Text := List UInt8

def text_of (s : String) : Text := s.toList.map fun c => UInt8.ofNat c.toNat

/-- The bytes of a literal, from its characters. -/
theorem text_of_chars (l : List Char) : text_of (.ofList l) = l.map fun c => UInt8.ofNat c.toNat := by
  rw [text_of, String.toList_ofList]

/-- `std::string_view::find`. -/
def find (needle : Text) : Text → Option Nat
  | [] => if needle = [] then some 0 else none
  | c :: rest =>
    if needle.isPrefixOf (c :: rest) then some 0 else (find needle rest).map (· + 1)

def find_from (needle text : Text) (start : Nat) : Option Nat :=
  (find needle (text.drop start)).map (· + start)

def FormatVersion : Text := text_of "3"

inductive Mode
  | page
  | script
deriving DecidableEq

def mode_name : Mode → Text
  | .script => text_of "script"
  | .page => text_of "page"

def HelperName : Text := text_of "taxi-cam-marks.js"

/-! ## The page -/

/-- The lines of a text, and whether a line feed ends them. -/
def lines : Text → List (Text × Bool)
  | [] => []
  | c :: rest =>
    if c = 10 then ([], true) :: lines rest
    else match lines rest with
      | [] => [([c], false)]
      | (line, ended) :: more => (c :: line, ended) :: more

structure ScriptLine where
  count : Nat := 0
  next : Nat := 0
  indent : Text := []
  ending : Text := []

def is_blank (c : UInt8) : Bool := decide (c = 32 ∨ c = 9)

def Script : Text := text_of "<script type=\"text/javascript\" src=\"VCockpit.js\"></script>"

def crlf : Text := [13, 10]

/-- One turn of the loop over the lines. The number is where the line starts. -/
def script_line (out : ScriptLine × Nat) (line : Text × Bool) : ScriptLine × Nat :=
  let cr := decide (line.1.getLast? = some 13)
  let body := if cr then line.1.dropLast else line.1
  let content := ((body.dropWhile is_blank).reverse.dropWhile is_blank).reverse
  let size := line.1.length + (if line.2 then 1 else 0)
  if content = Script then
    ({ count := out.1.count + 1
       next := out.2 + size
       indent := body.takeWhile is_blank
       ending := if line.2 then (if cr then crlf else [10]) else crlf }, out.2 + size)
  else (out.1, out.2 + size)

/-- A page's lines that load the script: how many, and of the last one where the next line starts,
its indent and its line ending. -/
def script_lines (stock : Text) : ScriptLine := ((lines stock).foldl script_line ({}, 0)).1

def loads_script (page : Text) : Bool := decide ((script_lines page).count = 1)

/-- The stock page with the helper's script line after the script line; empty when the page has no
or several such lines, or names the helper. -/
def patch_page (stock : Text) : Text :=
  if find HelperName stock ≠ none then []
  else
    let line := script_lines stock
    if line.count ≠ 1 then []
    else
      let out := stock.take line.next
      let out := if line.next = stock.length ∧ out ≠ [] ∧ out.getLast? ≠ some 10
        then out ++ line.ending else out
      out ++ line.indent ++ text_of "<script type=\"text/javascript\" src=\"/Pages/VCockpit/Core/" ++
        HelperName ++ text_of "\"></script>" ++ line.ending ++ stock.drop line.next

/-! ## The script -/

def ScriptBanner : Text := text_of "// Taxi Cam panel marks (taxi-cam-marks.js), added by Taxi Cam."

def end_line (out : Text) : Text := if out.getLast? ≠ some 10 then out ++ crlf else out

/-- The stock script with the helper at its end; empty when it is empty or has the helper. -/
def patch_script (stock helper : Text) : Text :=
  if stock = [] ∨ helper = [] ∨ find ScriptBanner stock ≠ none then []
  else end_line (end_line stock ++ ScriptBanner ++ crlf ++ helper)

def bom : Text := [0xef, 0xbb, 0xbf]

def strip_bom (text : Text) : Text := if bom.isPrefixOf text then text.drop 3 else text

/-- What is written for a stock file; the page keeps its byte order mark. -/
def patched_of (mode : Mode) (source helper : Text) : Text :=
  match mode with
  | .page =>
    let patched := patch_page (strip_bom source)
    if patched ≠ [] ∧ (strip_bom source).length ≠ source.length then bom ++ patched else patched
  | .script => patch_script source helper

/-! ## Manifests -/

/-- `"minimum_game_version"` from a package manifest, or empty. Without a colon the search for the
quotes starts at the front. -/
def minimum_game_version (manifest : Text) : Text :=
  match find (text_of "\"minimum_game_version\"") manifest with
  | none => []
  | some key =>
    let start := match find_from [58] manifest key with
      | some colon => colon + 1
      | none => 0
    match find_from [34] manifest start with
    | none => []
    | some opening =>
      match find_from [34] manifest (opening + 1) with
      | none => []
      | some closing =>
        let value := (manifest.drop (opening + 1)).take (closing - opening - 1)
        if value.all fun c => decimal.is_digit c || decide (c = 46) then value else []

def fold (text : Text) : Text :=
  (text.filter fun c => decide (c ≠ 92 ∧ c ≠ 47)).map fun c => if 65 ≤ c ∧ c ≤ 90 then c + 32 else c

/-- Whether a manifest lists the path among its globally overridden files. -/
def lists_file (manifest relative : Text) : Bool :=
  match find (text_of "\"globally_overriden_base_sim_files\"") manifest with
  | none => false
  | some key =>
    match find_from [91] manifest key with
    | none => false
    | some opening =>
      match find_from [93] manifest opening with
      | none => false
      | some closing =>
        (find (fold relative) (fold ((manifest.drop opening).take (closing - opening)))).isSome

def OwnOrderHint : Text := text_of "PANEL_PATCH"

/-- The package's manifest, overriding the page or the script. -/
def manifest_json (minimum_version : Text) (mode : Mode) : Text :=
  text_of "\x7b\r\n  \"dependencies\": [],\r\n  \"content_type\": \"MISC\",\r\n" ++
  text_of "  \"title\": \"Taxi Cam panel marks\",\r\n" ++
  text_of "  \"manufacturer\": \"\",\r\n  \"creator\": \"Taxi Cam\",\r\n" ++
  text_of "  \"package_version\": \"1.0.0\",\r\n  \"minimum_game_version\": \"" ++
  (if minimum_version = [] then text_of "1.0.0" else minimum_version) ++
  text_of "\",\r\n  \"release_notes\": \x7b \"neutral\": \x7b \"LastUpdate\": \"\", " ++
  text_of "\"OlderHistory\": \"\" \x7d \x7d,\r\n" ++
  text_of "  \"export_type\": \"Community\",\r\n  \"package_order_hint\": \"" ++ OwnOrderHint ++
  text_of "\",\r\n  \"globally_overriden_base_sim_files\": [ " ++
  text_of "\"\\\\html_ui\\\\pages\\\\VCockpit\\\\Core\\\\" ++
  (match mode with | .script => text_of "VCockpit.js" | .page => text_of "VCockpit.html") ++
  text_of "\" ]\r\n\x7d\r\n"

structure LayoutEntry where
  path : Text
  size : Nat
  date : Nat

def layout_entry (entry : LayoutEntry) : Text :=
  text_of "\r\n    \x7b \"path\": \"" ++ entry.path ++ text_of "\", \"size\": " ++
  decimal.print entry.size ++ text_of ", \"date\": " ++ decimal.print entry.date ++ text_of " \x7d"

def layout_json (entries : List LayoutEntry) : Text :=
  text_of "\x7b\r\n  \"content\": [" ++
  [44].intercalate (entries.map layout_entry) ++ text_of "\r\n  ]\r\n\x7d\r\n"

/-! ## The marker -/

/-- What the marker file records: the mode, the stock file the package was made from and the
helper. -/
def marker_text (stock_hash helper_hash : Text) (mode : Mode) : Text :=
  text_of "format=" ++ FormatVersion ++ text_of "\r\nmode=" ++ mode_name mode ++
  text_of "\r\nstock=" ++ stock_hash ++ text_of "\r\nhelper=" ++ helper_hash ++ crlf

/-- What the marker says until everything is written. -/
def Incomplete : Text := text_of "incomplete\n"

/-- Markers say which mode, stock file and helper they are of. -/
theorem marker_text_inj {stock stock' helper helper' : Text} {mode mode' : Mode}
    (hstock : stock.length = 64) (hstock' : stock'.length = 64)
    (h : marker_text stock helper mode = marker_text stock' helper' mode') :
    mode = mode' ∧ stock = stock' ∧ helper = helper' := by
  unfold marker_text at h
  simp only [append_assoc] at h
  have hmode := append_cancel_left (append_cancel_left (append_cancel_left h))
  have hpage (rest : Text) : (mode_name .page ++ rest).head? = some 112 := rfl
  have hscript (rest : Text) : (mode_name .script ++ rest).head? = some 115 := rfl
  have hsame : mode = mode' := by
    have hhead := congrArg head? hmode
    cases mode with
    | page =>
      cases mode' with
      | page => rfl
      | script => rw [hpage, hscript] at hhead; cases hhead
    | script =>
      cases mode' with
      | page => rw [hpage, hscript] at hhead; cases hhead
      | script => rfl
  subst hsame
  have hrest := append_cancel_left (append_cancel_left hmode)
  obtain ⟨hs, hrest⟩ := append_inj hrest (hstock.trans hstock'.symm)
  have hh := append_cancel_left hrest
  exact ⟨rfl, hs, append_cancel_right hh⟩

/-- A marker is never the text of a package that is not complete. -/
theorem marker_text_ne (stock helper : Text) (mode : Mode) :
    marker_text stock helper mode ≠ [] ∧ marker_text stock helper mode ≠ Incomplete := by
  have hhead : (marker_text stock helper mode).head? = some 102 := by
    unfold marker_text
    rfl
  constructor
  · intro h
    rw [h] at hhead
    cases hhead
  · intro h
    rw [h] at hhead
    exact absurd hhead (by decide +kernel)

end taxi_camera.standalone.marks_package
