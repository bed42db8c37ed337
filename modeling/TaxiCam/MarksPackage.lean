-- The Community package that loads the helper into the cockpit pages: writing it
-- and removing it, as the file operations that are done one after another.
-- src/setup/marks_package.hpp: `remove_named`, `remove`, `takers`, `ensure`.
-- Every operation succeeds here; what is done after one that fails is left out.
import TaxiCam.FileTree
import TaxiCam.PackageTexts

namespace taxi_camera.standalone.marks_package

open file_tree

/-! ## Names -/

/-- The names of files and folders; the first two are folders of the Community folder. -/
inductive Name
  | package
  | late_package
  | html_ui
  | pages
  | vcockpit
  | core
  | page
  | helper
  | script
  | marker
  | manifest
  | layout
  | other (name : Nat)
deriving DecidableEq

def PackageName : List Name := [.package]
def LatePackageName : List Name := [.late_package]
def Core : List Name := [.html_ui, .pages, .vcockpit, .core]
def PageRelative : List Name := Core ++ [.page]
def HelperRelative : List Name := Core ++ [.helper]
def ScriptRelative : List Name := Core ++ [.script]
def Marker : List Name := PackageName ++ [.marker]
def Manifest : List Name := PackageName ++ [.manifest]
def Layout : List Name := PackageName ++ [.layout]

/-- The path of a stock file as it is written in the texts. -/
def relative_text (relative : List Name) : Text :=
  if relative = ScriptRelative then text_of "html_ui/Pages/VCockpit/Core/VCockpit.js"
  else if relative = HelperRelative then text_of "html_ui/Pages/VCockpit/Core/taxi-cam-marks.js"
  else text_of "html_ui/Pages/VCockpit/Core/VCockpit.html"

/-! ## What a call is given -/

/-- The stock package, as far as it can be read. -/
structure Stock where
  page : Option Text
  script : Option Text
  manifest : Option Text

/-- Another folder of the Community folder. -/
structure Folder where
  marker : Bool
  page : Option Text
  script : Bool
  manifest : Option Text

structure Call where
  simulator : Option Stock
  community : Bool
  helper : Text
  others : List Folder
  started : Nat

/-- The hash of a text in hexadecimal. -/
structure Hash where
  sha256 : Text → Text
  length_sha256 : ∀ text, (sha256 text).length = 64

inductive Outcome
  | current
  | written
  | removed
  | no_community
  | no_simulator
  | page_changed
  | failed
  | conflict
deriving DecidableEq

/-- The operations that a call does, and what it returns. -/
structure Done (α : Type) where
  ops : List (Op Name)
  result : α

/-! ## Removing -/

def remove_named (order : Order Name) (name : List Name) (t : Disk Name) : Done Bool :=
  if has t (name ++ [.marker]) then ⟨remove_all order t name, true⟩ else ⟨[], !has t name⟩

def remove (order : Order Name) (t : Disk Name) : Done Bool :=
  let first := remove_named order PackageName t
  let late := remove_named order LatePackageName (run t first.ops)
  ⟨first.ops ++ late.ops, late.result && first.result⟩

/-! ## The other packages -/

/-- A folder of one of our names, as another package is looked at. -/
def as_folder (t : Disk Name) (name : List Name) : Folder where
  marker := has t (name ++ [.marker])
  page := read_file t (name ++ PageRelative)
  script := has t (name ++ ScriptRelative)
  manifest := read_file t (name ++ [.manifest])

/-- The packages that replace the page, and those that replace the script. -/
structure Takers where
  page : List Folder
  script : List Folder

def listing (folders : List Folder) (relative : List Name) : List Folder :=
  folders.filter fun folder =>
    match folder.manifest with
    | some manifest => lists_file manifest (relative_text relative)
    | none => false

/-- The folders with our marker are left out. -/
def takers (folders : List Folder) : Takers where
  page := listing (folders.filter fun f => !f.marker && f.page.isSome) PageRelative
  script := listing (folders.filter fun f => !f.marker && f.script) ScriptRelative

def community_folders (call : Call) (t : Disk Name) : List Folder :=
  call.others ++ ([PackageName, LatePackageName].filter (has t)).map (as_folder t)

def mode_for (taken : Takers) : Mode := if taken.page = [] then .page else .script

/-! ## The package -/

structure Patch where
  mode : Mode
  source : Text
  patched : Text

/-- What is written, or why the package is left out. -/
def prepare (call : Call) (stock : Stock) (page : Text) (taken : Takers) : Except Outcome Patch :=
  match mode_for taken with
  | .page =>
    let patched := patched_of .page page call.helper
    if patched = [] then .error .page_changed else .ok ⟨.page, page, patched⟩
  | .script =>
    let loaded := decide (taken.script = []) && taken.page.all fun folder =>
      match folder.page with
      | some other => loads_script (strip_bom other)
      | none => false
    if loaded = false then .error .conflict
    else match stock.script with
      | none => .error .page_changed
      | some source =>
        let patched := patched_of .script source call.helper
        if patched = [] then .error .page_changed else .ok ⟨.script, source, patched⟩

/-- What a package is made from. -/
structure Made where
  mode : Mode
  source : Text
  helper : Text
  version : Text
deriving DecidableEq

namespace Made

def files (m : Made) : List (List Name × Text) :=
  match m.mode with
  | .page => [(PageRelative, patched_of m.mode m.source m.helper), (HelperRelative, m.helper)]
  | .script => [(ScriptRelative, patched_of m.mode m.source m.helper)]

def marker (hash : Hash) (m : Made) : Text :=
  marker_text (hash.sha256 m.source) (hash.sha256 m.helper) m.mode

def manifest (m : Made) : Text := manifest_json m.version m.mode

/-- Our files that this mode does not use. -/
def unused (m : Made) : List (List Name) :=
  [PageRelative, HelperRelative, ScriptRelative].filter fun relative =>
    m.files.all fun file => decide (file.1 ≠ relative)

end Made

def clear_unused (m : Made) (t : Disk Name) : List (Op Name) :=
  ((m.unused.map (PackageName ++ ·)).filter (has t)).map .delete

/-- The folders on the way to the files. -/
def core_folders : List (List Name) :=
  [PackageName, PackageName ++ [.html_ui], PackageName ++ [.html_ui, .pages],
    PackageName ++ [.html_ui, .pages, .vcockpit], PackageName ++ Core]

/-- The entries of `layout.json`, from the sizes and dates of the files. -/
def layout_entries (m : Made) (t : Disk Name) : List LayoutEntry :=
  m.files.map fun file =>
    { path := relative_text file.1
      size := ((read_file t (PackageName ++ file.1)).getD []).length
      date := file_time t (PackageName ++ file.1) }

/-- The files of a package and its manifest. -/
def write_contents (clock : List Name → Nat) (m : Made) : List (Op Name) :=
  (m.files.flatMap fun file =>
    write_file (PackageName ++ file.1) file.2 (clock (PackageName ++ file.1))) ++
  write_file Manifest m.manifest (clock Manifest)

/-- The package written anew. `clock` says when a file is written. -/
def rewrite (hash : Hash) (clock : List Name → Nat) (call : Call) (m : Made) (t : Disk Name) :
    List (Op Name) :=
  let begun := make_dirs t core_folders ++ write_file Marker Incomplete (clock Marker)
  let cleared := if call.started = 0 then clear_unused m (run t begun) else []
  let contents := write_contents clock m
  let layout := layout_json (layout_entries m (run t (begun ++ cleared ++ contents)))
  begun ++ cleared ++ contents ++ write_file Layout layout (clock Layout) ++
    write_file Marker (m.marker hash) (clock Marker)

/-- A simulator may run, from an unknown time. -/
def StartUnknown : Nat := 0xffffffffffffffff

def leave_out (order : Order Name) (had : Bool) (why : Outcome) (t : Disk Name) : Done Outcome :=
  let gone := remove order t
  ⟨gone.ops, if gone.result = false then .failed
    else if why = .page_changed ∧ had = true then .removed else why⟩

/-- From the patch on: the later-named folder goes, and the package is current or is written. -/
def bring_up (hash : Hash) (order : Order Name) (clock : List Name → Nat) (call : Call) (m : Made)
    (t : Disk Name) : Done Outcome :=
  let late := remove_named order LatePackageName t
  let t1 := run t late.ops
  if late.result = false then ⟨late.ops, .failed⟩
  else if has t Marker = true ∧ read_file t1 Marker = some (m.marker hash) then
    let settled := decide (call.started = 0) ||
      (decide (call.started ≠ StartUnknown) && decide (file_time t1 Marker < call.started))
    ⟨late.ops ++ (if settled then clear_unused m t1 else []), .current⟩
  else ⟨late.ops ++ rewrite hash clock call m t1, .written⟩

/-- What the package is made from, for a patch. -/
def made_of (call : Call) (stock : Stock) (patch : Patch) : Made where
  mode := patch.mode
  source := patch.source
  helper := call.helper
  version := minimum_game_version (stock.manifest.getD [])

def ensure (hash : Hash) (order : Order Name) (clock : List Name → Nat) (call : Call)
    (t : Disk Name) : Done Outcome :=
  if call.helper = [] then ⟨[], .failed⟩
  else if call.community = false then ⟨[], .no_community⟩
  else match call.simulator with
  | none => ⟨[], .no_simulator⟩
  | some stock =>
    match stock.page with
    | none => ⟨[], .failed⟩
    | some page =>
      if has t PackageName = true ∧ has t Marker = false then ⟨[], .failed⟩
      else
        let had := has t Marker || has t (LatePackageName ++ [.marker])
        match prepare call stock page (takers (community_folders call t)) with
        | .error why => leave_out order had why t
        | .ok patch => bring_up hash order clock call (made_of call stock patch) t

end taxi_camera.standalone.marks_package
