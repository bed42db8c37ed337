-- The JSON records that setup writes: src/setup/json_writer.hpp, the record of
-- `configure` and what `read_record` reads of it (src/setup/setup_commands.cpp).
import TaxiCam.JsonValue
import TaxiCam.Decimal

namespace taxi_camera.setup.json_out

open standalone.json.detail (Value Host parse)
open standalone.text_escapes (Text text_of)

abbrev Wide := List UInt16

/-- What the writer calls: UTF-16 as UTF-8, and conversions from and to numbers. -/
structure Conversions (δ : Type) where
  wide_char_to_multi_byte : Wide → Text
  to_double : Int64 → δ
  print_double : δ → Text

variable {δ : Type} (system : Conversions δ)

def narrow (text : Wide) : Text := if text = [] then [] else system.wide_char_to_multi_byte text

/-- `std::to_string` of a whole number. -/
def to_string (n : Int) : Text := if n < 0 then 45 :: decimal.print n.natAbs else decimal.print n.natAbs

/-! ## Values -/

def text (value : Wide) : Value δ := .string (narrow system value)

def text_or_null (value : Wide) : Value δ := if value = [] then .null else text system value

def boolean (value : Bool) : Value δ := .bool value

def number (value : Int64) : Value δ := .number (to_string value.toInt) (system.to_double value)

def array : Value δ := .array []

def object : Value δ := .object []

/-- The members of the object: the value takes the place of the key's, or comes last. -/
def set : List (Text × Value δ) → Text → Value δ → List (Text × Value δ)
  | [], key, value => [(key, value)]
  | member :: members, key, value =>
    if member.1 = key then (member.1, value) :: members else member :: set members key value

/-! ## Text -/

def hex_character (n : Nat) : UInt8 := (text_of "0123456789abcdef").getD n 0

/-- One character of `escape`. -/
def escaped (c : UInt8) : Text :=
  if c = 34 then text_of "\\\""
  else if c = 92 then text_of "\\\\"
  else if c = 10 then text_of "\\n"
  else if c = 13 then text_of "\\r"
  else if c = 9 then text_of "\\t"
  else if c < 0x20 then text_of "\\u00" ++ [hex_character (c.toNat / 16), hex_character (c.toNat % 16)]
  else [c]

def escape (text : Text) : Text := 34 :: text.flatMap escaped ++ [34]

def indentation (n : Nat) : Text := List.replicate n 32

/-- The loop over the parts of an array or an object, each on a line of its own. -/
def lines (indent : Text) : List Text → Text
  | [] => []
  | part :: parts => indent ++ part ++ text_of (if parts = [] then "\r\n" else ",\r\n") ++ lines indent parts

mutual

def write : Value δ → Nat → Text
  | .null, _ => text_of "null"
  | .bool boolean, _ => text_of (if boolean then "true" else "false")
  | .number text number, _ => if text = [] then system.print_double number else text
  | .string text, _ => escape text
  | .array items, depth =>
    if items.isEmpty then text_of "[]"
    else text_of "[\r\n" ++ lines (indentation (2 * (depth + 1))) (write_items items (depth + 1)) ++
      indentation (2 * depth) ++ text_of "]"
  | .object members, depth =>
    if members.isEmpty then text_of "\x7b\x7d"
    else text_of "\x7b\r\n" ++ lines (indentation (2 * (depth + 1))) (write_members members (depth + 1)) ++
      indentation (2 * depth) ++ text_of "\x7d"

def write_items : List (Value δ) → Nat → List Text
  | [], _ => []
  | item :: items, depth => write item depth :: write_items items depth

def write_members : List (Text × Value δ) → Nat → List Text
  | [], _ => []
  | (name, value) :: members, depth =>
    (escape name ++ text_of ": " ++ write value depth) :: write_members members depth

end

def serialize (value : Value δ) : Text := write system value 0 ++ text_of "\r\n"

/-! ## The record of the installation -/

structure Installation where
  version : Wide
  build_number : Int64
  installed_utc : Wide
  destination : Wide
  simulator_exe : Wide
  exe_xml : Wide
  backup : Wide
  legacy_backup : Wide
  startup : Wide
  status : Wide
  startup_paths : List Wide
  warning : Wide
  error : Wide
  updated : Bool
  written : Wide

/-- What `configure` sets, one member after the other. -/
def installation_members (i : Installation) : List (Text × Value δ) :=
  [(text_of "version", text system i.version),
    (text_of "buildNumber", number system i.build_number),
    (text_of "installedUtc", text system i.installed_utc),
    (text_of "destination", text system i.destination),
    (text_of "simulator", text system i.simulator_exe),
    (text_of "exeXml", text_or_null system i.exe_xml),
    (text_of "exeXmlBackup", text_or_null system i.backup),
    (text_of "legacyBackup", text_or_null system i.legacy_backup),
    (text_of "startupRequested", text system i.startup),
    (text_of "startupStatus", text system i.status),
    (text_of "startupPaths", .array (i.startup_paths.map (text system))),
    (text_of "startupWarning", text system i.warning),
    (text_of "startupError", text system i.error),
    (text_of "startupUpdated", boolean i.updated),
    (text_of "exeXmlInstalledHash", text system i.written)]

def installation_record (i : Installation) : Value δ :=
  .object ((installation_members system i).foldl (fun members member => set members member.1 member.2) [])

/-- What `read_record` goes on with. None stands for "Cannot read the previous installation
settings. Check installation.json." -/
def read_settings (host : Host δ) (bytes : Text) : Option (Value δ) :=
  match parse host bytes .null with
  | some (true, .object members) => some (.object members)
  | _ => none

end taxi_camera.setup.json_out
