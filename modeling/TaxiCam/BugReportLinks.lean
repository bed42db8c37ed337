-- The link that opens a bug report: `bug_report_query_value`, `bug_report_fit` and
-- `bug_report_url` of src/app/bug_report.hpp, and `report_text` of
-- src/app/system_details.hpp. A text is the list of its bytes.
import Mathlib.Algebra.Order.BigOperators.Group.List
import Mathlib.Algebra.Order.Group.Nat
import Mathlib.Data.Bool.AllAny
import Mathlib.Data.List.DropRight

namespace taxi_camera.standalone.bug_report

open List

/-- The bytes of a literal. -/
def text (literal : String) : List UInt8 := literal.toList.map fun c => c.toNat.toUInt8

def BugReportPage : List UInt8 := text "https://github.com/rthoms334/taxi-cam/issues/new?template=bug_report.yml"
def BugReportUrlLimit : Nat := 7500

/-! ## The values -/

def unreserved (c : UInt8) : Bool :=
  (97 ≤ c && c ≤ 122) || (65 ≤ c && c ≤ 90) || (48 ≤ c && c ≤ 57) || c == 45 || c == 95 || c == 46 || c == 126

def hex (digit : UInt8) : UInt8 := if digit < 10 then 48 + digit else 55 + digit

def encoded (c : UInt8) : List UInt8 := if unreserved c then [c] else [37, hex (c >>> 4), hex (c &&& 15)]

def bug_report_query_value (value : List UInt8) : List UInt8 := value.flatMap encoded

def query_bytes (value : List UInt8) : Nat := (bug_report_query_value value).length

/-- What `report_text` puts for a byte. -/
def printed (newlines : Bool) (c : UInt8) : List UInt8 :=
  if c == 10 && newlines then [10]
  else if 32 ≤ c && c < 127 then [c]
  else if c != 13 && c != 0 then [if c == 9 || c == 10 then 32 else 63]
  else []

/-- The loop of `report_text`. -/
def printed_from (limit : Nat) (newlines : Bool) : List UInt8 → List UInt8 → List UInt8
  | out, [] => out
  | out, c :: rest => if limit ≤ out.length then out else printed_from limit newlines (out ++ printed newlines c) rest

def report_text (value : List UInt8) (limit : Nat) (newlines : Bool) : List UInt8 :=
  (printed_from limit newlines [] value).rdropWhile fun c => c == 32 || c == 10

/-! ## The snapshot -/

/-- The lines of a text, each with its line feed. -/
def lines : List UInt8 → List (List UInt8)
  | [] => []
  | c :: rest =>
    if c = 10 then [10] :: lines rest
    else match lines rest with
    | [] => [[c]]
    | line :: more => (c :: line) :: more

def suffix (report_saved : Bool) : List UInt8 :=
  if report_saved then text "[Snapshot shortened; the full snapshot is in report-info.txt.]"
  else text "[Snapshot shortened to fit the form.]"

/-- The leading lines that fit, where so much is used. -/
def leading (budget suffix_bytes used : Nat) : List (List UInt8) → List UInt8
  | [] => []
  | line :: rest =>
    let bytes := query_bytes line
    if budget < used + bytes + suffix_bytes then []
    else line ++ leading budget suffix_bytes (used + bytes) rest

def bug_report_fit (snapshot : List UInt8) (budget : Nat) (report_saved : Bool) : List UInt8 :=
  if query_bytes snapshot ≤ budget then snapshot
  else
    let suffix_bytes := query_bytes (suffix report_saved)
    if budget < suffix_bytes then []
    else leading budget suffix_bytes 0 (lines snapshot) ++ suffix report_saved

/-! ## The link -/

structure BugReportForm where
  simulator : List UInt8 := []
  aircraft : List UInt8 := []
  environment : List UInt8 := []
  logs : List UInt8 := []

structure Field where
  id : List UInt8
  value : List UInt8
  limit : Nat
  lines : Bool

def BugReportForm.fields (form : BugReportForm) : List Field :=
  [⟨text "simulator_version", form.simulator, 120, false⟩, ⟨text "aircraft", form.aircraft, 240, false⟩,
    ⟨text "environment", form.environment, 1000, true⟩, ⟨text "logs", form.logs, 300, true⟩]

def Field.text (field : Field) : List UInt8 := report_text field.value field.limit field.lines

/-- A name and a value of the link. -/
abbrev Parameter := List UInt8 × List UInt8

def Parameter.written (p : Parameter) : List UInt8 := text "&" ++ p.1 ++ text "=" ++ bug_report_query_value p.2

def Field.parameters (field : Field) : List Parameter := if field.value.isEmpty then [] else [(field.id, field.text)]

variable (version snapshot : List UInt8) (form : BugReportForm) (report_saved : Bool)

/-- What stands before the snapshot. `version` is that of the build. -/
def parameters : List Parameter := (text "taxi_cam_version", version.take 64) :: form.fields.flatMap Field.parameters

def snapshot_field : List UInt8 := text "&runtime_snapshot="

/-- The link up to the snapshot. -/
def before_snapshot : List UInt8 := BugReportPage ++ (parameters version form).flatMap Parameter.written

/-- What the snapshot may take; the subtraction is one of `size_t`. -/
def budget : Nat := BugReportUrlLimit - (before_snapshot version form).length - snapshot_field.length

/-- `snapshot` is the text of the context. Widening the characters changes nothing in ASCII. -/
def bug_report_url : List UInt8 :=
  before_snapshot version form ++ snapshot_field ++
    bug_report_query_value (bug_report_fit snapshot (budget version form) report_saved)

/-! ## The values that are read back -/

def unhex (c : UInt8) : UInt8 := if c < 58 then c - 48 else c - 55

def percent_decode : List UInt8 → List UInt8
  | 37 :: high :: low :: rest => (unhex high <<< 4 ||| unhex low) :: percent_decode rest
  | c :: rest => c :: percent_decode rest
  | [] => []

/-- A byte of printable ASCII. -/
def Printable (c : UInt8) : Prop := 32 ≤ c ∧ c < 127

instance (c : UInt8) : Decidable (Printable c) := inferInstanceAs (Decidable (_ ∧ _))

/-- The first lines of a snapshot. -/
def first_lines (snapshot : List UInt8) (k : Nat) : List UInt8 := ((lines snapshot).take k).flatten

/-- What the form gets of a snapshot that does not fit: as many of its first lines as fit with the note, and the note. -/
def Shortened (snapshot : List UInt8) (budget : Nat) (note decoded : List UInt8) : Prop :=
  ∃ k, first_lines snapshot k <+: snapshot ∧ decoded = first_lines snapshot k ++ note ∧
    query_bytes decoded ≤ budget ∧ ∀ j, query_bytes (first_lines snapshot j ++ note) ≤ budget →
      (first_lines snapshot j).length ≤ (first_lines snapshot k).length

section
variable {value snapshot : List UInt8} {limit budget used suffix_bytes : Nat} {newlines : Bool}
  {ls : List (List UInt8)}

theorem printable_of_all (h : value.all (Printable ·) = true) : ∀ c ∈ value, Printable c :=
  fun c hc => of_decide_eq_true (all_eq_true.mp h c hc)

theorem every_byte {P : UInt8 → Prop} (h : ∀ n < 256, P (UInt8.ofNat n)) (c : UInt8) : P c :=
  UInt8.ofNat_toNat (x := c) ▸ h c.toNat c.toNat_lt

theorem encoded_printable : ∀ c, (∀ x ∈ encoded c, Printable x ∧ x ≠ 38 ∧ x ≠ 61) ∧ (encoded c).length ≤ 3 :=
  every_byte (by simp only [← all_iff_forall_prop]; decide +kernel)

theorem encoded_decodes : ∀ c, encoded c = [c] ∧ c ≠ 37 ∨ encoded c = [37, hex (c >>> 4), hex (c &&& 15)] ∧
    unhex (hex (c >>> 4)) <<< 4 ||| unhex (hex (c &&& 15)) = c :=
  every_byte (by decide +kernel)

theorem percent_decode_query_value (value : List UInt8) : percent_decode (bug_report_query_value value) = value := by
  induction value with
  | nil => rfl
  | cons c rest ih =>
    rw [bug_report_query_value, flatMap_cons]
    rcases encoded_decodes c with ⟨hself, hc⟩ | ⟨hthree, hbyte⟩
    · rw [hself, singleton_append, percent_decode.eq_2, ← bug_report_query_value, ih]
      exact fun _ _ _ heq => absurd heq hc
    rw [hthree, cons_append, cons_append, cons_append, nil_append, percent_decode, hbyte,
      ← bug_report_query_value, ih]

theorem query_bytes_append (value rest : List UInt8) : query_bytes (value ++ rest) = query_bytes value + query_bytes rest := by
  rw [query_bytes, bug_report_query_value, flatMap_append, length_append]
  rfl

theorem query_bytes_le (value : List UInt8) : query_bytes value ≤ 3 * value.length := by
  induction value with
  | nil => exact Nat.le_refl 0
  | cons c rest ih =>
    have hone : query_bytes [c] ≤ 3 := by
      rw [query_bytes, bug_report_query_value, flatMap_singleton]
      exact (encoded_printable c).2
    rw [← singleton_append, query_bytes_append, length_append, length_singleton]
    omega

/-! ## The text of a field -/

theorem printed_printable (newlines : Bool) : ∀ c,
    (∀ x ∈ printed newlines c, Printable x ∨ newlines = true ∧ x = 10) ∧ (printed newlines c).length ≤ 1 :=
  every_byte (by simp only [← all_iff_forall_prop]; cases newlines <;> decide +kernel)

theorem printed_from_spec {out : List UInt8} (hout : ∀ x ∈ out, Printable x ∨ newlines = true ∧ x = 10) (hlimit : out.length ≤ limit) :
    (∀ x ∈ printed_from limit newlines out value, Printable x ∨ newlines = true ∧ x = 10) ∧
      (printed_from limit newlines out value).length ≤ limit := by
  induction value generalizing out with
  | nil => exact ⟨hout, hlimit⟩
  | cons c rest ih =>
    unfold printed_from
    split
    · exact ⟨hout, hlimit⟩
    obtain ⟨hprinted, hone⟩ := printed_printable newlines c
    refine ih (forall_mem_append.mpr ⟨hout, hprinted⟩) ?_
    rw [length_append]
    omega

theorem report_text_spec (value : List UInt8) (limit : Nat) (newlines : Bool) :
    (report_text value limit newlines).length ≤ limit ∧
      ∀ c ∈ report_text value limit newlines, Printable c ∨ newlines = true ∧ c = 10 := by
  obtain ⟨hprinted, hlimit⟩ := @printed_from_spec value limit newlines [] nofun (Nat.zero_le _)
  have hfront := rdropWhile_prefix (fun c : UInt8 => c == 32 || c == 10) (printed_from limit newlines [] value)
  exact ⟨hfront.length_le.trans hlimit, fun c hc => hprinted c (hfront.subset hc)⟩

/-! ## The lines of a snapshot -/

theorem flatten_lines (snapshot : List UInt8) : (lines snapshot).flatten = snapshot := by
  induction snapshot with
  | nil => rfl
  | cons c rest ih =>
    unfold lines
    split
    · next h => simp [ih, h]
    split
    · next hnone => simpa [hnone] using ih
    next line more hlines =>
    rw [hlines] at ih
    simpa using ih

theorem leading_spec (hused : used + suffix_bytes ≤ budget) :
    ∃ k, leading budget suffix_bytes used ls = (ls.take k).flatten ∧
      used + query_bytes (ls.take k).flatten + suffix_bytes ≤ budget ∧
      ∀ j, used + query_bytes (ls.take j).flatten + suffix_bytes ≤ budget →
        (ls.take j).flatten.length ≤ (ls.take k).flatten.length := by
  induction ls generalizing used with
  | nil => exact ⟨0, rfl, hused, by simp⟩
  | cons line rest ih =>
    have hcons (j : Nat) : query_bytes ((line :: rest).take (j + 1)).flatten =
        query_bytes line + query_bytes (rest.take j).flatten := by
      rw [take_succ_cons, flatten_cons, query_bytes_append]
    unfold leading
    dsimp only
    split
    · next hfull =>
      refine ⟨0, rfl, hused, fun j hj => ?_⟩
      cases j with
      | zero => exact Nat.le_refl _
      | succ j =>
        rw [hcons] at hj
        omega
    next hroom =>
    obtain ⟨k, hleading, hfits, hmost⟩ := @ih (used + query_bytes line) (by omega)
    refine ⟨k + 1, by rw [hleading]; simp, by rw [hcons]; omega, fun j hj => ?_⟩
    cases j with
    | zero => exact Nat.zero_le _
    | succ j =>
      rw [hcons] at hj
      simpa using hmost j (by omega)

theorem fit_spec {report_saved : Bool} (hnote : query_bytes (suffix report_saved) ≤ budget) :
    query_bytes (bug_report_fit snapshot budget report_saved) ≤ budget ∧
      (bug_report_fit snapshot budget report_saved = snapshot ∨
        Shortened snapshot budget (suffix report_saved) (bug_report_fit snapshot budget report_saved)) := by
  unfold bug_report_fit
  split
  · next hfits => exact ⟨hfits, .inl rfl⟩
  rw [if_neg (Nat.not_lt.mpr hnote)]
  obtain ⟨k, hleading, hfits, hmost⟩ := @leading_spec budget 0 _ (lines snapshot) (by simpa using hnote)
  rw [Nat.zero_add] at hfits
  have hall : query_bytes (first_lines snapshot k ++ suffix report_saved) ≤ budget := by
    rwa [query_bytes_append]
  rw [hleading]
  have hprefix : first_lines snapshot k <+: snapshot :=
    ⟨((lines snapshot).drop k).flatten, by rw [first_lines, ← flatten_append, take_append_drop, flatten_lines]⟩
  refine ⟨hall, .inr ⟨k, hprefix, rfl, hall, fun j hj => hmost j ?_⟩⟩
  rwa [query_bytes_append, ← Nat.zero_add (query_bytes (first_lines _ _))] at hj

end

/-! ## The parameters -/

theorem length_written_le (name value : List UInt8) :
    (Parameter.written (name, value)).length ≤ 2 + name.length + 3 * value.length := by
  have hvalue : (bug_report_query_value value).length ≤ 3 * value.length := query_bytes_le value
  have hmarks : (text "&").length = 1 ∧ (text "=").length = 1 := ⟨rfl, rfl⟩
  simp only [Parameter.written, length_append]
  omega

theorem length_field_le (field : Field) :
    (field.parameters.flatMap Parameter.written).length ≤ 2 + field.id.length + 3 * field.limit := by
  unfold Field.parameters
  split
  · exact Nat.zero_le _
  have hwritten := length_written_le field.id field.text
  have hlimit : field.text.length ≤ field.limit := (report_text_spec ..).1
  rw [flatMap_singleton]
  omega

/-- The fields leave room for the note. -/
theorem note_fits : (before_snapshot version form).length + snapshot_field.length +
    query_bytes (suffix report_saved) ≤ BugReportUrlLimit := by
  have hversion := length_written_le (text "taxi_cam_version") (version.take 64)
  have htake := length_take_le 64 version
  have hnote : query_bytes (suffix report_saved) ≤ 186 := by cases report_saved <;> decide +kernel
  have hfields : ((form.fields.flatMap Field.parameters).flatMap Parameter.written).length ≤ 5028 := by
    rw [flatMap_assoc, length_flatMap]
    exact (sum_le_sum fun field _ => length_field_le field).trans (by simp [BugReportForm.fields, text])
  have hnames : BugReportPage.length = 72 ∧ (text "taxi_cam_version").length = 16 ∧ snapshot_field.length = 18 := ⟨rfl, rfl, rfl⟩
  rw [before_snapshot, parameters, flatMap_cons, length_append, length_append, BugReportUrlLimit]
  omega

theorem written_printable {p : Parameter} (hid : ∀ c ∈ p.1, Printable c) : ∀ c ∈ p.written, Printable c := by
  have hvalue : ∀ c ∈ bug_report_query_value p.2, Printable c := fun c hc => by
    obtain ⟨x, _, hx⟩ := mem_flatMap.mp hc
    exact ((encoded_printable x).1 c hx).1
  simp only [Parameter.written, forall_mem_append]
  exact ⟨⟨⟨printable_of_all rfl, hid⟩, printable_of_all rfl⟩, hvalue⟩

theorem bug_report_url_eq : bug_report_url version snapshot form report_saved = BugReportPage ++ (parameters version form ++
    [(text "runtime_snapshot", bug_report_fit snapshot (budget version form) report_saved)]).flatMap Parameter.written := by
  have hfield : snapshot_field = text "&" ++ text "runtime_snapshot" ++ text "=" := rfl
  rw [bug_report_url, hfield, before_snapshot, flatMap_append, flatMap_singleton, Parameter.written]
  simp only [append_assoc]

theorem names_printable : ∀ p ∈ parameters version form ++ [(text "runtime_snapshot", snapshot)], ∀ c ∈ p.1, Printable c := by
  have hfields : ∀ field ∈ form.fields, ∀ c ∈ field.id, Printable c := by
    simp only [BugReportForm.fields, forall_mem_cons]
    exact ⟨printable_of_all rfl, printable_of_all rfl, printable_of_all rfl, printable_of_all rfl, nofun⟩
  simp only [parameters, cons_append, forall_mem_cons, forall_mem_append]
  refine ⟨printable_of_all rfl, fun p hp => ?_, printable_of_all rfl, nofun⟩
  obtain ⟨field, hfield, hp⟩ := mem_flatMap.mp hp
  unfold Field.parameters at hp
  split at hp
  · cases hp
  rw [mem_singleton.mp hp]
  exact hfields field hfield

end taxi_camera.standalone.bug_report
