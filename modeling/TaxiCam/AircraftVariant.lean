-- The variant key of an aircraft path, the layout that carries it and the folder its
-- settings are in: src/profiles/aircraft_variant.hpp, src/profiles/discovered.hpp and
-- src/app/settings_store.hpp.
import TaxiCam.Discovered

namespace taxi_camera.profiles

def MaxVariantKey : Nat := 200

def MaxVariantComponent : Nat := 64

/-- The array that a key is put into, with zeros behind it. -/
abbrev VariantKey := Vector UInt8 MaxVariantKey

/-- A `std::string_view` of the characters before the first zero. -/
def key_text (key : VariantKey) : List UInt8 := key.toList.takeWhile (· ≠ 0)

def key_of (text : List UInt8) : VariantKey := Vector.ofFn fun i => text.getD i.val 0

namespace variant_detail

def fold (c : UInt8) : UInt8 := if 65 ≤ c ∧ c ≤ 90 then c + 32 else c

def same_text (a b : List UInt8) : Bool := decide (a.map fold = b.map fold)

/-- `<>:"/\|?*`. -/
def PathCharacters : List UInt8 := [60, 62, 58, 34, 47, 92, 124, 63, 42]

/-- A name of a folder in the settings tree. -/
def file_component (c : List UInt8) : Bool :=
  if c = [] ∨ c.length > MaxVariantComponent ∨ c = [46] ∨ c = [46, 46] ∨ c.getLast? = some 46 ∨
      c.getLast? = some 32 then false
  else c.all fun ch => !(ch < 32 || ch > 126 || PathCharacters.contains ch)

end variant_detail

open variant_detail

def bytes_of (s : String) : List UInt8 := s.toList.map fun c => UInt8.ofNat c.toNat

/-! ## The key of a path -/

/-- The size of the array of parts. -/
def MaxParts : Nat := 16

def separator (c : UInt8) : Bool := c = 47 || c = 92

/-- What stands between the separators of a path. -/
def parts_of (path : List UInt8) : List (List UInt8) := (path.splitOnP separator).filter (· ≠ [])

/-- Without the last part when that has the name. -/
def strip (name : List UInt8) (parts : List (List UInt8)) : List (List UInt8) :=
  match parts.getLast? with
  | some last => if same_text last name then parts.dropLast else parts
  | none => parts

/-- The loop that writes the parts, each behind a slash but the first. -/
def write_parts : List UInt8 → List (List UInt8) → Option (List UInt8)
  | out, [] => some out
  | out, part :: rest =>
    if !file_component part ∨ out.length + part.length + 1 ≥ MaxVariantKey then none
    else write_parts (out ++ (if out = [] then [] else [47]) ++ part) rest

def variant_key (path : List UInt8) : Option VariantKey :=
  let parts := parts_of path
  if parts.length > MaxParts then none
  else
    let first := parts.findIdx fun part => same_text part (bytes_of "SimObjects")
    let parts := strip (bytes_of "config") (strip (bytes_of "aircraft.cfg") parts)
    if first + 3 > parts.length then none
    else (write_parts [] (parts.drop first)).map key_of

def same_variant (path key : List UInt8) : Bool :=
  match variant_key path with
  | some own => key ≠ [] && same_text (key_text own) key
  | none => false

/-- The text before its slash number `n`, counted from zero. -/
def before_slash : Nat → List UInt8 → List UInt8
  | _, [] => []
  | n, c :: rest =>
    if c = 47 then match n with
      | 0 => []
      | n + 1 => c :: before_slash n rest
    else c :: before_slash n rest

def variant_family (key : List UInt8) : List UInt8 := before_slash 2 key

/-! ## The layout of an aircraft -/

structure Shape where
  width : UInt32
  height : UInt32
  mips : UInt32

structure DiscoveredLayout where
  key : VariantKey
  sides : UInt32
  textures : Fin MaxDisplaySides → PanelName
  shapes : Fin MaxDisplaySides → Shape
  padding : DisplayInsets

def DiscoveredFormat : Nat := 28

open discovered_detail in
/-- The check that a layout's key is one. -/
def valid_key (key : VariantKey) : Bool :=
  terminated_name key.toList false && match variant_key (key_text key) with
    | some own => key_text own = key_text key
    | none => false

open discovered_detail in
/-- One turn of the loop of `valid_layout`. -/
def valid_layout_side (l : DiscoveredLayout) (side : Fin MaxDisplaySides) : Bool :=
  let shape := l.shapes side
  if side.val ≥ l.sides.toNat then
    (l.textures side).toList.headD 0 = 0 && shape.width = 0 && shape.height = 0 && shape.mips = 0 &&
      terminated_name (l.textures side).toList true
  else
    -- The camera inset must fit the panel the side was set up on.
    let content := inset_rect { right := shape.width, bottom := shape.height } l.padding
    terminated_name (l.textures side).toList false &&
      panel_texture_shape shape.width.toNat shape.height.toNat shape.mips.toNat DiscoveredFormat &&
      !(content.right ≤ content.left || content.bottom ≤ content.top)

def valid_layout (l : DiscoveredLayout) : Bool :=
  valid_key l.key && !(l.sides < 2 || l.sides.toNat > MaxDisplaySides) &&
    (List.finRange MaxDisplaySides).all (valid_layout_side l)

/-! ## The folder of a key -/

/-- `L"..."`. -/
def wide (s : String) : List UInt16 := s.toList.map fun c => UInt16.ofNat c.toNat

/-- The components after the first. Nothing follows a slash at the end. -/
def components_below (key : List UInt8) : List (List UInt8) :=
  let rest := if 47 ∈ key then (key.dropWhile (· ≠ 47)).drop 1 else key
  let pieces := rest.splitOn 47
  if pieces.getLast? = some [] then pieces.dropLast else pieces

/-- Empty for what is no key. -/
def discovered_folder (settings_directory : List UInt16) (key : List UInt8) (family : Bool) : List UInt16 :=
  match variant_key key with
  | none => []
  | some own =>
    if key_text own ≠ key then []
    else if settings_directory = [] then []
    else settings_directory ++ wide "\\profiles\\discovered" ++
      (components_below (if family then variant_family key else key)).flatMap fun part =>
        92 :: part.map UInt8.toUInt16

end taxi_camera.profiles
