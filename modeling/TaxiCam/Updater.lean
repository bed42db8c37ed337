-- The updater: its calls, the check that its worker makes, and the files they
-- share with every other program. `Updater` of src/app/updater.cpp.
import TaxiCam.UpdateSelection
import TaxiCam.Runs

namespace taxi_camera.standalone.updater

open json

/-! ## Files -/

/-- A file, and whether it is neither a directory nor a link. -/
structure File where
  bytes : List UInt8
  plain : Bool
deriving DecidableEq

abbrev Path := List Char

/-- What the code relies on outside: the hash of the operating system, the test of a download place,
the running version's tag. -/
structure Outside where
  sha256 : List UInt8 → List UInt8
  trusted : List Char → Bool
  running : List Char

def hex_digit (n : Nat) : Char := "0123456789abcdef".toList.getD n '0'

def hex (digest : List UInt8) : List Char :=
  digest.flatMap fun c => [hex_digit (c.toNat >>> 4), hex_digit (c.toNat &&& 15)]

/-- Whether the file of a handle that denies writing is the one of the hash. -/
def verified_update_file (e : Outside) (file : Option File) (sha256 : List Char) : Bool :=
  match file with
  | some file =>
    hex_hash sha256 && file.plain && decide (0 < file.bytes.length ∧ file.bytes.length ≤ DownloadLimit) &&
      decide (lower (hex (e.sha256 file.bytes)) = lower sha256)
  | none => false

def installer_path (cache : Path) : Path := cache ++ "\\setup.exe".toList

def partial_path (cache : Path) : Path := cache ++ "\\setup.exe.partial".toList

def update_installer_arguments (directory : Path) (pid : Nat) : List Char :=
  if pid = 0 ∨ directory = [] ∨ directory.any (fun c => c = '"' ∨ c = '\r' ∨ c = '\n') ∨
      directory.getLast? = some '\\' ∨ directory.getLast? = some '/' then []
  else "/DIR=\"".toList ++ directory ++ "\" /UPDATEFROMPID=".toList ++ to_string pid

/-! ## The state -/

structure UpdateResult where
  available : Bool := false
  manual : Bool := false
  tag : List Char := []
  sha256 : List Char := []
  installer : Path := []
  error : String := ""
deriving DecidableEq

/-- What the worker's check does next. -/
inductive Stage where
  | release
  | sums (asset : UpdateAsset)
  | download (asset : UpdateAsset) (digest : List Char)
  | verify (asset : UpdateAsset) (digest : List Char)
  | move (asset : UpdateAsset) (digest : List Char)
  | verify_again
  | publish
  | finish
deriving DecidableEq

/-- What a check has read: the release that it selected from, and the checksum file. -/
structure Source where
  release : Value
  sums : Option (List Char) := none

structure Check where
  cache : Path
  result : UpdateResult
  stage : Stage := .release
  source : Option Source := none

/-- A launch that has verified the installer and holds it. -/
structure Pending where
  result : UpdateResult
  file : File

/-- A program that was started: its path, the cache directory then, the file that was verified, and
the file that is there when it starts. -/
structure Start where
  path : Path
  cache : Path
  sha256 : List Char
  verified : File
  file : Option File

/-- `error` is what the last launch said, `kept` are the results that were taken, `completed` what the checks have read whose results were
published as available, with the digest that they took from it. -/
structure Updater where
  cancelled : Bool := false
  busy : Bool := false
  worker : Option Check := none
  result : UpdateResult := {}
  ready : Bool := false
  cache : Path := []
  files : Path → Option File
  pending : Option Pending := none
  error : String := ""
  kept : List UpdateResult := []
  completed : List (Source × List Char) := []
  starts : List Start := []

/-- The installer that a launch holds against writing, renaming and deleting. -/
def Updater.held (s : Updater) (path : Path) : Bool :=
  match s.pending with
  | some p => path = p.result.installer
  | none => false

def put (files : Path → Option File) (path : Path) (file : Option File) : Path → Option File :=
  fun other => if other = path then file else files other

/-- Another program, or the updater itself, changes a file that is not held. -/
def Updater.change (path : Path) (file : Option File) (s : Updater) : Updater :=
  if s.held path then s else { s with files := put s.files path file }

/-! ## The worker -/

/-- What the world answers the worker: whether its request or file operation succeeds, whether the
partial file can be created, and what a download brings. -/
structure Answer where
  ok : Bool
  created : Bool := true
  release : Option Value := none
  text : List Char := []
  bytes : List UInt8 := []

def check_failed : String := "Could not check for updates. Please try again later."

def Check.stop (c : Check) : Check := { c with stage := .publish }

/-- A download fails when the check is cancelled, and when it brings nothing. -/
def Updater.downloads (a : Answer) (length : Nat) (s : Updater) : Bool :=
  a.ok && !s.cancelled && decide (0 < length)

def Check.read_release (e : Outside) (release : Option Value) (c : Check) : Check :=
  match parse_update_version e.running, release with
  | some current, some release =>
    match select_update_asset e.trusted release current with
    | .Current => { c with result := { c.result with error := "" }, stage := .publish }
    | .Invalid => c.stop
    | .Selected asset =>
      if asset.digest = [] then { c with stage := .sums asset, source := some { release } }
      else { c with stage := .download asset asset.digest, source := some { release } }
  | _, _ => c.stop

def Check.read_sums (asset : UpdateAsset) (text : List Char) (c : Check) : Check :=
  match read_installer_checksum text asset.name with
  | some digest =>
    { c with
      stage := .download asset digest
      source := c.source.map fun source => { source with sums := some text } }
  | none => c.stop

def Updater.with_check (s : Updater) (c : Check) : Updater := { s with worker := some c }

/-- One step of the worker. -/
def Updater.work (e : Outside) (a : Answer) (s : Updater) : Updater :=
  match s.worker with
  | none => s
  | some c =>
    match c.stage with
    | .release =>
      s.with_check (if s.downloads a 1 then c.read_release e a.release else c.stop)
    | .sums asset =>
      s.with_check (if s.downloads a a.text.length then c.read_sums asset a.text else c.stop)
    | .download asset digest =>
      -- The partial file is created anew, and nobody else can open it before the download ends.
      if s.files (partial_path c.cache) ≠ none ∨ !a.created then s.with_check c.stop
      else
        let s := { s with files := put s.files (partial_path c.cache) (some { bytes := a.bytes, plain := true }) }
        if s.downloads a a.bytes.length ∧ (a.bytes.length : Int) = asset.size then
          s.with_check { c with stage := .verify asset digest }
        else s.with_check c.stop
    | .verify asset digest =>
      if a.ok ∧ verified_update_file e (s.files (partial_path c.cache)) digest then
        s.with_check { c with stage := .move asset digest }
      else s.with_check c.stop
    | .move asset digest =>
      if a.ok ∧ s.files (partial_path c.cache) ≠ none ∧ s.files (installer_path c.cache) = none ∧
          !s.held (partial_path c.cache) then
        let file := s.files (partial_path c.cache)
        let files := put (put s.files (partial_path c.cache) none) (installer_path c.cache) file
        { s with files }.with_check { c with
          result := { c.result with tag := asset.tag, sha256 := digest, installer := installer_path c.cache }
          stage := .verify_again }
      else s.with_check c.stop
    | .verify_again =>
      if a.ok ∧ verified_update_file e (s.files c.result.installer) c.result.sha256 then
        s.with_check { c with result := { c.result with available := true, error := "" }, stage := .publish }
      else s.with_check c.stop
    | .publish =>
      { s with
        result := c.result
        ready := !s.cancelled
        completed := match c.result.available, c.source with
          | true, some source => (source, c.result.sha256) :: s.completed
          | _, _ => s.completed }.with_check { c with stage := .finish }
    | .finish => { s with busy := false, worker := none }

/-! ## The calls -/

def Updater.clean_cache (s : Updater) : Updater :=
  if s.cache = [] then s
  else (s.change (installer_path s.cache) none).change (partial_path s.cache) none

/-- `directory` is the new cache directory, or empty where it cannot be made. -/
def Updater.begin (manual : Bool) (directory : Path) (s : Updater) : Updater :=
  if s.busy then s
  else if manual ∧ s.result.available ∧ s.cache ≠ [] ∧ s.result.installer = installer_path s.cache then
    { s with result := { s.result with manual := true }, ready := true }
  else
    let s := { s with ready := false }.clean_cache
    { s with
      cache := directory
      cancelled := false
      busy := true
      worker := some
        { cache := directory
          result := { manual, error := check_failed }
          stage := if directory = [] then .publish else .release } }

def Updater.take (s : Updater) : Updater :=
  if s.ready then { s with kept := s.result :: s.kept, ready := false } else s

def launch_failed : String :=
  "The installer could not be verified or started. Please check for updates again."

def launch_blocked : String :=
  "Close Microsoft Flight Simulator before installing this update, then check for updates again."

/-- A launch up to the point where it holds the verified installer. `opens` says whether the file can
be opened and read. -/
def Updater.launch (e : Outside) (result : UpdateResult) (blocked : Bool) (installation : Path)
    (pid : Nat) (opens : Bool) (s : Updater) : Updater :=
  let s := { s with result := { s.result with available := false }, error := launch_failed }
  if !result.available ∨ s.cache = [] ∨ result.installer ≠ installer_path s.cache then s
  else if blocked then { s with error := launch_blocked }
  else if update_installer_arguments installation pid = [] then s
  else
    match s.files result.installer with
    | some file =>
      if opens ∧ verified_update_file e (some file) result.sha256 then
        { s with pending := some { result, file } }
      else s
    | none => s

/-- The rest of a launch: the program starts or not, and the system gives its process or not. -/
def Updater.execute (runs process : Bool) (s : Updater) : Updater :=
  match s.pending with
  | none => s
  | some p =>
    let start : Start :=
      { path := p.result.installer, cache := s.cache, sha256 := p.result.sha256, verified := p.file
        file := s.files p.result.installer }
    { s with
      pending := none
      starts := if runs then start :: s.starts else s.starts
      cache := if runs ∧ process then [] else s.cache }

/-! ## Steps -/

/-- One thread makes the calls, and a launch is over before the next one. A launch is given a result
that was taken, at whatever time. -/
inductive Op where
  | begin (manual : Bool) (directory : Path)
  | take
  | launch (kept : Nat) (blocked : Bool) (installation : Path) (pid : Nat) (opens : Bool)
  | execute (runs process : Bool)
  | stop
  | work (a : Answer)
  | change (path : Path) (file : Option File)

def step (e : Outside) (s : Updater) : Op → Updater
  | .begin manual directory => if s.pending.isSome then s else s.begin manual directory
  | .take => if s.pending.isSome then s else s.take
  | .launch i blocked installation pid opens =>
    if s.pending.isSome then s
    else
      match s.kept[i]? with
      | some result => s.launch e result blocked installation pid opens
      | none => s
  | .execute runs process => s.execute runs process
  | .stop => if s.pending.isSome then s else { s with cancelled := true }
  | .work a => s.work e a
  | .change path file => s.change path file

end taxi_camera.standalone.updater
