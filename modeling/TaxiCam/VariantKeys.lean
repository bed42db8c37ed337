-- A key is the key of itself, unless what is left of the path ends as what is
-- removed from it; and then its layout can be saved, in a folder of its own.
import TaxiCam.AircraftVariant

namespace taxi_camera.profiles

open variant_detail List

variable {path text a b : List UInt8} {front parts rest : List (List UInt8)} {k : VariantKey}
  {c x y z : List UInt8}

/-! ## Texts in an array -/

variable {ps qs : List (List UInt8)} {l name : List UInt8} {k' : VariantKey}

theorem takeWhile_zeros (h : ∀ c ∈ l, c ≠ 0) (n : Nat) : (l ++ List.replicate n 0).takeWhile (· ≠ 0) = l := by
  rw [takeWhile_append_of_pos fun c hc => decide_eq_true (h c hc), takeWhile_replicate,
    if_neg (by decide), append_nil]

theorem idxOf_zeros (h : ∀ c ∈ l, c ≠ 0) {n : Nat} (hn : 0 < n) :
    (l ++ List.replicate n 0).idxOf? 0 = some l.length := by
  induction l with
  | nil =>
    cases n with
    | zero => exact absurd hn (Nat.lt_irrefl 0)
    | succ n =>
      rfl
  | cons c l ih =>
    have hc : (c == 0) = false := beq_eq_false_iff_ne.mpr (h c mem_cons_self)
    rw [cons_append, List.idxOf?_cons, hc, if_neg Bool.false_ne_true, ih fun d hd => h d (mem_cons_of_mem _ hd)]
    rfl

theorem key_of_toList (h : text.length ≤ MaxVariantKey) :
    (key_of text).toList = text ++ List.replicate (MaxVariantKey - text.length) 0 := by
  rw [key_of, Vector.toList_ofFn]
  refine ext_getElem ?_ fun i hi hi' => ?_
  · rw [length_ofFn, length_append, length_replicate]
    omega
  · rw [List.getElem_ofFn, getElem_append]
    split
    · rename_i hlt
      rw [getD_eq_getElem?_getD, List.getElem?_eq_getElem hlt, Option.getD_some]
    rename_i hge
    rw [getElem_replicate, getD_eq_getElem?_getD, List.getElem?_eq_none (Nat.le_of_not_lt hge), Option.getD_none]

theorem key_text_of (hlength : text.length ≤ MaxVariantKey) (h : ∀ c ∈ text, c ≠ 0) :
    key_text (key_of text) = text := by
  rw [key_text, key_of_toList hlength, takeWhile_zeros h]

/-! ## Components -/

/-- A name of a folder: printable, without the characters of a path, and neither `.` nor `..` nor a
name that ends with a dot or a blank. -/
structure Ordinary (c : List UInt8) : Prop where
  ne_nil : c ≠ []
  short : c.length ≤ MaxVariantComponent
  not_dots : c ≠ [46] ∧ c ≠ [46, 46]
  ending : c.getLast? ≠ some 46 ∧ c.getLast? ≠ some 32
  printable : ∀ ch ∈ c, 32 ≤ ch ∧ ch ≤ 126 ∧ ch ∉ PathCharacters

theorem file_component_iff : file_component c = true ↔ Ordinary c := by
  unfold file_component
  constructor
  · intro h
    split at h
    · cases h
    rename_i hnone
    simp only [not_or, gt_iff_lt, Nat.not_lt] at hnone
    obtain ⟨hne, hshort, hdot, hdots, hend, hblank⟩ := hnone
    refine ⟨hne, hshort, ⟨hdot, hdots⟩, ⟨hend, hblank⟩, fun ch hch => ?_⟩
    have hall := all_eq_true.mp h ch hch
    simpa [not_or, and_assoc] using hall
  · rintro ⟨hne, hshort, ⟨hdot, hdots⟩, ⟨hend, hblank⟩, hall⟩
    rw [if_neg (by simp only [not_or, gt_iff_lt, Nat.not_lt]; exact ⟨hne, hshort, hdot, hdots, hend, hblank⟩),
      all_eq_true]
    intro ch hch
    simpa [not_or, and_assoc] using hall ch hch

theorem Ordinary.no_separator (h : Ordinary c) : ∀ ch ∈ c, separator ch = false := by
  intro ch hch
  obtain ⟨-, -, hnot⟩ := h.printable ch hch
  have hslash : ch ≠ 47 := by
    rintro rfl
    exact hnot (by decide)
  have hback : ch ≠ 92 := by
    rintro rfl
    exact hnot (by decide)
  simp [separator, hslash, hback]

theorem Ordinary.no_slash (h : Ordinary c) : 47 ∉ c := fun hmem => by
  cases h.no_separator 47 hmem

theorem Ordinary.nonzero (h : Ordinary c) : ∀ ch ∈ c, ch ≠ 0 := by
  rintro ch hch rfl
  have hlow := (h.printable 0 hch).1
  exact absurd hlow (by decide)

/-! ## Parts joined by slashes -/

/-- The parts, each behind a separator. -/
def behind {α : Type} (sep : α) (parts : List (List α)) : List α := parts.flatMap fun part => sep :: part

/-- The first part, and the others behind slashes. -/
def joined : List (List UInt8) → List UInt8
  | [] => []
  | part :: rest => part ++ behind 47 rest

section
variable {α : Type} {sep : α} {x : List α} {rest : List (List α)}

theorem behind_cons : behind sep (x :: rest) = sep :: (x ++ behind sep rest) := flatMap_cons

theorem splitOnP_behind {p : α → Bool} (hp : p sep = true) (h : ∀ c ∈ x :: rest, ∀ ch ∈ c, p ch = false) :
    (x ++ behind sep rest).splitOnP p = x :: rest := by
  induction rest generalizing x with
  | nil =>
    rw [behind, flatMap_nil, append_nil, splitOnP_eq_singleton (h x mem_cons_self)]
  | cons c rest ih =>
    rw [behind_cons, splitOnP_append_cons_of_forall_mem (h x mem_cons_self) sep hp,
      ih fun d hd => h d (mem_cons_of_mem _ hd)]

/-- Parts without the separator are read off their joined text. -/
theorem behind_injective [DecidableEq α] {ps qs : List (List α)} (hp : ∀ c ∈ ps, sep ∉ c) (hq : ∀ c ∈ qs, sep ∉ c)
    (h : behind sep ps = behind sep qs) : ps = qs := by
  have hsplit {parts : List (List α)} (hparts : ∀ c ∈ parts, sep ∉ c) :
      (behind sep parts).splitOnP (· == sep) = [] :: parts := by
    refine splitOnP_behind (p := fun ch => ch == sep) (x := []) (beq_self_eq_true sep) fun c hc ch hch =>
      beq_eq_false_iff_ne.mpr ?_
    rintro rfl
    rcases mem_cons.mp hc with rfl | hc
    · exact absurd hch not_mem_nil
    · exact hparts c hc hch
  exact tail_eq_of_cons_eq ((hsplit hp).symm.trans ((congrArg _ h).trans (hsplit hq)))

end

theorem parts_of_joined (h : ∀ c ∈ parts, Ordinary c) : parts_of (joined parts) = parts := by
  unfold parts_of
  cases parts with
  | nil => rfl
  | cons x rest =>
    rw [joined, splitOnP_behind rfl fun c hc => (h c hc).no_separator]
    exact filter_eq_self.mpr fun c hc => decide_eq_true (h c hc).ne_nil

theorem joined_nonzero (h : ∀ c ∈ parts, Ordinary c) : ∀ c ∈ joined parts, c ≠ 0 := by
  cases parts with
  | nil => exact fun c hc => absurd hc not_mem_nil
  | cons x rest =>
    intro c hc
    rcases mem_append.mp hc with hc | hc
    · exact (h x mem_cons_self).nonzero c hc
    obtain ⟨part, hpart, hc⟩ := mem_flatMap.mp hc
    rcases mem_cons.mp hc with rfl | hc
    · decide
    · exact (h part (mem_cons_of_mem _ hpart)).nonzero c hc

/-- What the loop writes is the parts joined, each a name of a folder, and it fits the array. -/
theorem write_parts_behind {out : List UInt8} (hout : out ≠ []) (h : write_parts out parts = some text) :
    text = out ++ behind 47 parts ∧ (∀ c ∈ parts, Ordinary c) ∧
      (out.length < MaxVariantKey → text.length < MaxVariantKey) := by
  induction parts generalizing out with
  | nil =>
    cases h
    exact ⟨(append_nil _).symm, fun c hc => absurd hc not_mem_nil, fun hlt => hlt⟩
  | cons c rest ih =>
    rw [write_parts, if_neg hout] at h
    split at h
    · cases h
    rename_i hfits
    simp only [not_or, Bool.not_eq_true', Bool.not_eq_false, ge_iff_le, Nat.not_le] at hfits
    have hne : out ++ [47] ++ c ≠ [] := append_ne_nil_of_left_ne_nil (by simp) _
    obtain ⟨htext, hall, hlength⟩ := ih hne h
    refine ⟨?_, ?_, fun _ => hlength ?_⟩
    · rw [htext, behind_cons]
      simp only [append_assoc, cons_append, nil_append]
    · rintro d (_ | ⟨_, hd⟩)
      · exact file_component_iff.mp hfits.1
      · exact hall d hd
    · rw [length_append, length_append, length_singleton]
      omega

theorem write_parts_spec (h : write_parts [] parts = some text) :
    text = joined parts ∧ (∀ c ∈ parts, Ordinary c) ∧ text.length < MaxVariantKey := by
  cases parts with
  | nil =>
    cases h
    exact ⟨rfl, fun c hc => absurd hc not_mem_nil, by decide⟩
  | cons c rest =>
    rw [write_parts] at h
    split at h
    · cases h
    rename_i hfits
    simp only [not_or, Bool.not_eq_true', Bool.not_eq_false, ge_iff_le, Nat.not_le, length_nil] at hfits
    have hc := file_component_iff.mp hfits.1
    obtain ⟨htext, hall, hlength⟩ := write_parts_behind hc.ne_nil h
    refine ⟨htext, ?_, hlength (by omega)⟩
    rintro d (_ | ⟨_, hd⟩)
    · exact hc
    · exact hall d hd

/-! ## Removed ends -/

abbrev ConfigFile : List UInt8 := bytes_of "aircraft.cfg"

abbrev ConfigFolder : List UInt8 := bytes_of "config"

/-- The last part has the name. -/
def EndsWith (name : List UInt8) (parts : List (List UInt8)) : Prop :=
  ∃ front x, parts = front ++ [x] ∧ same_text x name = true

theorem strip_of_ends (hx : same_text x name = true) : strip name (front ++ [x]) = front := by
  rw [strip, List.getLast?_concat]
  dsimp only
  rw [if_pos hx, dropLast_concat]

theorem strip_of_not_ends (h : ¬EndsWith name parts) : strip name parts = parts := by
  unfold strip
  cases hlast : parts.getLast? with
  | none => rfl
  | some x =>
    dsimp only
    rw [if_neg]
    exact fun hx => h ⟨parts.dropLast, x, (dropLast_append_getLast? x hlast).symm, hx⟩

theorem strip_initial (name : List UInt8) (parts : List (List UInt8)) : strip name parts <+: parts := by
  by_cases h : EndsWith name parts
  · obtain ⟨front, x, rfl, hx⟩ := h
    rw [strip_of_ends hx]
    exact prefix_append front [x]
  · exact ⟨[], by rw [strip_of_not_ends h, append_nil]⟩

theorem strip_length_lt (h : EndsWith name parts) : (strip name parts).length < parts.length := by
  obtain ⟨front, x, rfl, hx⟩ := h
  rw [strip_of_ends hx, length_append, length_singleton]
  exact Nat.lt_succ_self _

/-- What `variant_key` leaves of the parts. -/
def stripped (parts : List (List UInt8)) : List (List UInt8) := strip ConfigFolder (strip ConfigFile parts)

theorem stripped_initial (parts : List (List UInt8)) : stripped parts <+: parts :=
  (strip_initial ConfigFolder _).trans (strip_initial ConfigFile _)

/-- The last part has one of the names that are removed. -/
def EndsRemoved (parts : List (List UInt8)) : Prop := EndsWith ConfigFile parts ∨ EndsWith ConfigFolder parts

theorem stripped_eq_iff : stripped parts = parts ↔ ¬EndsRemoved parts := by
  constructor
  · intro h
    have hfile := (strip_initial ConfigFile parts).length_le
    have hfolder := (strip_initial ConfigFolder (strip ConfigFile parts)).length_le
    have hlength := congrArg List.length h
    rw [stripped] at hlength
    rintro (hends | hends)
    · have := strip_length_lt hends
      omega
    · by_cases hcfg : EndsWith ConfigFile parts
      · have := strip_length_lt hcfg
        omega
      rw [strip_of_not_ends hcfg] at hlength
      have := strip_length_lt hends
      omega
  · intro h
    obtain ⟨hfile, hfolder⟩ := not_or.mp h
    rw [stripped, strip_of_not_ends hfile, strip_of_not_ends hfolder]

/-- The path ends with a name that is removed, and in front of what is removed with such a name again. -/
inductive Doubled : List (List UInt8) → Prop
  | files (front : List (List UInt8)) {x y : List UInt8} (hx : same_text x ConfigFile = true)
    (hy : same_text y ConfigFile = true) : Doubled (front ++ [x, y])
  | file_folder (front : List (List UInt8)) {x y : List UInt8} (hx : same_text x ConfigFile = true)
    (hy : same_text y ConfigFolder = true) : Doubled (front ++ [x, y])
  | folders (front : List (List UInt8)) {x y : List UInt8} (hx : same_text x ConfigFolder = true)
    (hy : same_text y ConfigFolder = true) : Doubled (front ++ [x, y])
  | file_folder_file (front : List (List UInt8)) {x y z : List UInt8} (hx : same_text x ConfigFile = true)
    (hy : same_text y ConfigFolder = true) (hz : same_text z ConfigFile = true) : Doubled (front ++ [x, y, z])
  | folders_file (front : List (List UInt8)) {x y z : List UInt8} (hx : same_text x ConfigFolder = true)
    (hy : same_text y ConfigFolder = true) (hz : same_text z ConfigFile = true) : Doubled (front ++ [x, y, z])

theorem not_both (hfile : same_text x ConfigFile = true) (hfolder : same_text x ConfigFolder = true) : False := by
  have hsame := (of_decide_eq_true hfile).symm.trans (of_decide_eq_true hfolder)
  exact absurd hsame (by decide)

theorem ends_concat : EndsWith name (front ++ [x]) ↔ same_text x name = true := by
  constructor
  · rintro ⟨front', x', heq, hx⟩
    rw [append_inj_right' heq rfl |> singleton_inj.mp]
    exact hx
  · exact fun hx => ⟨front, x, rfl, hx⟩

theorem split_pair (front : List (List UInt8)) (x y : List UInt8) : front ++ [x, y] = front ++ [x] ++ [y] := by
  rw [append_assoc]
  rfl

theorem split_triple (front : List (List UInt8)) (x y z : List UInt8) :
    front ++ [x, y, z] = front ++ [x] ++ [y] ++ [z] := by
  rw [append_assoc, append_assoc]
  rfl

/-- What is left ends with a removed name exactly when the path ends with two of them. -/
theorem stripped_ends_iff : EndsRemoved (stripped parts) ↔ Doubled parts := by
  constructor
  · intro h
    by_cases hfile : EndsWith ConfigFile parts
    · obtain ⟨front, z, rfl, hz⟩ := hfile
      rw [stripped, strip_of_ends hz] at h
      by_cases hfolder : EndsWith ConfigFolder front
      · obtain ⟨front, y, rfl, hy⟩ := hfolder
        rw [strip_of_ends hy] at h
        rcases h with ⟨front, x, rfl, hx⟩ | ⟨front, x, rfl, hx⟩
        · rw [← split_triple]
          exact .file_folder_file front hx hy hz
        rw [← split_triple]
        exact .folders_file front hx hy hz
      rw [strip_of_not_ends hfolder] at h
      rcases h with ⟨front, x, rfl, hx⟩ | h
      · rw [← split_pair]
        exact .files front hx hz
      · exact absurd h hfolder
    rw [stripped, strip_of_not_ends hfile] at h
    by_cases hfolder : EndsWith ConfigFolder parts
    · obtain ⟨front, y, rfl, hy⟩ := hfolder
      rw [strip_of_ends hy] at h
      rcases h with ⟨front, x, rfl, hx⟩ | ⟨front, x, rfl, hx⟩
      · rw [← split_pair]
        exact .file_folder front hx hy
      rw [← split_pair]
      exact .folders front hx hy
    rw [strip_of_not_ends hfolder] at h
    exact absurd h (not_or.mpr ⟨hfile, hfolder⟩)
  · intro h
    have hnot {front : List (List UInt8)} {y : List UInt8} (hy : same_text y ConfigFolder = true) :
        ¬EndsWith ConfigFile (front ++ [y]) := fun hends => not_both (ends_concat.mp hends) hy
    have hnot' {front : List (List UInt8)} {y : List UInt8} (hy : same_text y ConfigFile = true) :
        ¬EndsWith ConfigFolder (front ++ [y]) := fun hends => not_both hy (ends_concat.mp hends)
    cases h with
    | files front hx hy =>
      rw [split_pair, stripped, strip_of_ends hy, strip_of_not_ends (hnot' hx)]
      exact .inl (ends_concat.mpr hx)
    | file_folder front hx hy =>
      rw [split_pair, stripped, strip_of_not_ends (hnot hy), strip_of_ends hy]
      exact .inl (ends_concat.mpr hx)
    | folders front hx hy =>
      rw [split_pair, stripped, strip_of_not_ends (hnot hy), strip_of_ends hy]
      exact .inr (ends_concat.mpr hx)
    | file_folder_file front hx hy hz =>
      rw [split_triple, stripped, strip_of_ends hz, strip_of_ends hy]
      exact .inl (ends_concat.mpr hx)
    | folders_file front hx hy hz =>
      rw [split_triple, stripped, strip_of_ends hz, strip_of_ends hy]
      exact .inr (ends_concat.mpr hx)

/-! ## The parts of a key -/

/-- The parts that a key is made of. -/
structure KeyParts (k : VariantKey) (parts : List (List UInt8)) : Prop where
  long : 3 ≤ parts.length
  few : parts.length ≤ MaxParts
  first : ∃ x rest, parts = x :: rest ∧ same_text x (bytes_of "SimObjects") = true
  written : ∃ text, write_parts [] parts = some text ∧ k = key_of text

abbrev is_sim_objects (part : List UInt8) : Bool := same_text part (bytes_of "SimObjects")

theorem variant_key_eq_some (path : List UInt8) (k : VariantKey) : variant_key path = some k ↔
    (parts_of path).length ≤ MaxParts ∧ (parts_of path).findIdx is_sim_objects + 3 ≤ (stripped (parts_of path)).length ∧
      ∃ text, write_parts [] ((stripped (parts_of path)).drop ((parts_of path).findIdx is_sim_objects)) = some text ∧
        k = key_of text := by
  unfold variant_key
  dsimp only
  split
  · rename_i hmany
    refine iff_of_false nofun fun h => ?_
    exact absurd h.1 (Nat.not_le_of_lt hmany)
  rename_i hfew
  split
  · rename_i hshort
    refine iff_of_false nofun fun h => ?_
    exact absurd h.2.1 (Nat.not_le_of_lt hshort)
  rename_i hlong
  rw [Option.map_eq_some_iff]
  constructor
  · rintro ⟨text, hwritten, rfl⟩
    exact ⟨Nat.le_of_not_lt hfew, Nat.le_of_not_lt hlong, text, hwritten, rfl⟩
  · rintro ⟨-, -, text, hwritten, rfl⟩
    exact ⟨text, hwritten, rfl⟩

theorem key_parts (h : variant_key path = some k) : KeyParts k
    ((stripped (parts_of path)).drop ((parts_of path).findIdx is_sim_objects)) := by
  obtain ⟨hfew, hlong, hwritten⟩ := (variant_key_eq_some path k).mp h
  have hinitial := stripped_initial (parts_of path)
  have hlength := hinitial.length_le
  refine ⟨?_, ?_, ?_, hwritten⟩
  · rw [length_drop]
    omega
  · rw [length_drop]
    omega
  · have hindex : (parts_of path).findIdx is_sim_objects < (stripped (parts_of path)).length := by omega
    have hfound : (parts_of path).findIdx is_sim_objects < (parts_of path).length := by omega
    refine ⟨_, _, drop_eq_getElem_cons hindex, ?_⟩
    rw [hinitial.getElem hindex]
    exact findIdx_getElem (w := hfound)

namespace KeyParts

theorem ordinary (h : KeyParts k parts) : ∀ c ∈ parts, Ordinary c := by
  obtain ⟨text, hwritten, -⟩ := h.written
  exact (write_parts_spec hwritten).2.1

theorem text_length (h : KeyParts k parts) : (joined parts).length < MaxVariantKey := by
  obtain ⟨text, hwritten, -⟩ := h.written
  obtain ⟨htext, -, hlength⟩ := write_parts_spec hwritten
  rwa [← htext]

theorem key_eq (h : KeyParts k parts) : k = key_of (joined parts) := by
  obtain ⟨text, hwritten, hk⟩ := h.written
  rw [hk, (write_parts_spec hwritten).1]

theorem text_eq (h : KeyParts k parts) : key_text k = joined parts := by
  rw [h.key_eq, key_text_of (Nat.le_of_lt h.text_length) (joined_nonzero h.ordinary)]

theorem text_ne_nil (h : KeyParts k parts) : key_text k ≠ [] := by
  have hall := h.ordinary
  rw [h.text_eq]
  obtain ⟨x, rest, rfl, -⟩ := h.first
  exact append_ne_nil_of_left_ne_nil (hall x mem_cons_self).ne_nil _

theorem parts_of_text (h : KeyParts k parts) : parts_of (key_text k) = parts := by
  rw [h.text_eq, parts_of_joined h.ordinary]

theorem first_index (h : KeyParts k parts) : parts.findIdx is_sim_objects = 0 := by
  obtain ⟨x, rest, rfl, hx⟩ := h.first
  have hfirst : is_sim_objects x = true := hx
  rw [findIdx_cons, hfirst]
  rfl

/-- The key of a key's text is the key, unless its last part would be removed. -/
theorem key_of_text_iff (h : KeyParts k parts) : variant_key (key_text k) = some k ↔ ¬EndsRemoved parts := by
  rw [variant_key_eq_some, h.parts_of_text, h.first_index, drop_zero, ← stripped_eq_iff]
  constructor
  · rintro ⟨-, -, text, hwritten, hk⟩
    obtain ⟨htext, hall, hlength⟩ := write_parts_spec hwritten
    have hinitial := stripped_initial parts
    have hsame : joined (stripped parts) = joined parts := by
      have hkey := h.text_eq
      rw [hk, key_text_of (Nat.le_of_lt hlength) (by rw [htext]; exact joined_nonzero hall)] at hkey
      rw [← htext, hkey]
    rw [← parts_of_joined hall, hsame, parts_of_joined h.ordinary]
  · intro hsame
    rw [hsame]
    exact ⟨h.few, h.long, h.written⟩

/-- What is behind the slashes of a key. -/
theorem components (h : KeyParts k parts) : components_below (key_text k) = parts.tail := by
  have hall := h.ordinary
  rw [h.text_eq]
  obtain ⟨x, rest, rfl, -⟩ := h.first
  obtain ⟨c, rest, rfl⟩ : ∃ c rest', rest = c :: rest' := by
    cases rest with
    | nil => exact absurd h.long (by simp)
    | cons c rest' => exact ⟨c, rest', rfl⟩
  have hx := (hall x mem_cons_self).no_slash
  have hrest : ∀ d ∈ c :: rest, Ordinary d := fun d hd => hall d (mem_cons_of_mem _ hd)
  have hdrop : (joined (x :: c :: rest)).dropWhile (· ≠ 47) = 47 :: (c ++ behind 47 rest) := by
    rw [joined, behind_cons, dropWhile_append_of_pos fun d hd => ?_, dropWhile_cons_of_neg (by decide)]
    refine decide_eq_true ?_
    rintro rfl
    exact hx hd
  have hmem : 47 ∈ joined (x :: c :: rest) := by
    rw [joined, behind_cons]
    exact mem_append_right _ mem_cons_self
  have hsplit : (c ++ behind 47 rest).splitOn 47 = c :: rest := by
    refine splitOnP_behind rfl fun d hd ch hch => beq_eq_false_iff_ne.mpr ?_
    rintro rfl
    exact (hrest d hd).no_slash hch
  unfold components_below
  dsimp only
  rw [if_pos hmem, hdrop, drop_one, tail_cons, hsplit, if_neg, tail_cons]
  exact fun hlast => (hrest [] (mem_of_getLast? hlast)).ne_nil rfl

theorem last_printable (h : KeyParts k parts) : ∀ c ∈ joined parts, 32 ≤ c ∧ c ≤ 126 := by
  have hall := h.ordinary
  obtain ⟨x, rest, rfl, -⟩ := h.first
  intro c hc
  rcases mem_append.mp hc with hc | hc
  · have hprintable := (hall x mem_cons_self).printable c hc
    exact ⟨hprintable.1, hprintable.2.1⟩
  obtain ⟨part, hpart, hc⟩ := mem_flatMap.mp hc
  rcases mem_cons.mp hc with rfl | hc
  · decide
  have hprintable := (hall part (mem_cons_of_mem _ hpart)).printable c hc
  exact ⟨hprintable.1, hprintable.2.1⟩

/-- A layout that carries a key passes the key's check. -/
theorem valid_key (h : KeyParts k parts) (hsame : variant_key (key_text k) = some k) :
    profiles.valid_key k = true := by
  have hzero := joined_nonzero h.ordinary
  have hroom := h.text_length
  have hne : joined parts ≠ [] := by
    rw [← h.text_eq]
    exact h.text_ne_nil
  have hlist : k.toList = joined parts ++ List.replicate (MaxVariantKey - (joined parts).length) 0 := by
    rw [h.key_eq, key_of_toList (Nat.le_of_lt hroom)]
  have hstop : k.toList.idxOf? 0 = some (joined parts).length := by
    rw [hlist, idxOf_zeros hzero (by omega)]
  have hname : discovered_detail.terminated_name k.toList false = true := by
    unfold discovered_detail.terminated_name
    rw [hstop]
    dsimp only
    rw [hlist, take_left, drop_left]
    simp only [Bool.not_false, Bool.and_true, Bool.and_eq_true, Bool.not_eq_true', decide_eq_false_iff_not,
      all_eq_true, mem_replicate, decide_eq_true_eq]
    refine ⟨⟨fun hnil => hne (length_eq_zero_iff.mp hnil), fun c hc => ?_⟩, fun c hc => hc.2⟩
    obtain ⟨hlow, hhigh⟩ := h.last_printable c hc
    simpa using ⟨hlow, hhigh⟩
  rw [profiles.valid_key, hname, hsame]
  simp

end KeyParts

theorem ends_iff_last : EndsWith name parts ↔ ∃ x, parts.getLast? = some x ∧ same_text x name = true := by
  constructor
  · rintro ⟨front, x, rfl, hx⟩
    exact ⟨x, List.getLast?_concat, hx⟩
  · rintro ⟨x, hlast, hx⟩
    exact ⟨parts.dropLast, x, (dropLast_append_getLast? x hlast).symm, hx⟩

/-- A key's text is the key of something else exactly when the path ends doubled. -/
theorem ends_iff_doubled (h : variant_key path = some k) : EndsRemoved
    ((stripped (parts_of path)).drop ((parts_of path).findIdx is_sim_objects)) ↔ Doubled (parts_of path) := by
  obtain ⟨-, hlong, -⟩ := (variant_key_eq_some path k).mp h
  rw [← stripped_ends_iff]
  unfold EndsRemoved
  simp only [ends_iff_last]
  rw [List.getLast?_drop, if_neg (by omega)]

/-! ## Folders -/

def wide_fold (c : UInt16) : UInt16 := if 65 ≤ c ∧ c ≤ 90 then c + 32 else c

/-- Windows names the same folder. -/
def same_folder (a b : List UInt16) : Bool := decide (a.map wide_fold = b.map wide_fold)

theorem wide_fold_toUInt16 (c : UInt8) : wide_fold c.toUInt16 = (fold c).toUInt16 := by
  have hc : c.toUInt16.toNat = c.toNat := UInt8.toNat_toUInt16 c
  have h65 : (65 : UInt16).toNat = 65 := rfl
  have h90 : (90 : UInt16).toNat = 90 := rfl
  have h65' : (65 : UInt8).toNat = 65 := rfl
  have h90' : (90 : UInt8).toNat = 90 := rfl
  have hiff : (65 ≤ c.toUInt16 ∧ c.toUInt16 ≤ 90) ↔ (65 ≤ c ∧ c ≤ 90) := by
    simp only [UInt16.le_iff_toNat_le, UInt8.le_iff_toNat_le, hc, h65, h90, h65', h90']
  unfold wide_fold fold
  by_cases hupper : 65 ≤ c ∧ c ≤ 90
  · rw [if_pos hupper, if_pos (hiff.mpr hupper)]
    have hle : c.toNat ≤ 90 := UInt8.le_iff_toNat_le.mp hupper.2
    refine UInt16.toNat_inj.mp ?_
    rw [UInt16.toNat_add, UInt8.toNat_toUInt16, UInt8.toNat_toUInt16, UInt8.toNat_add]
    have h32 : (32 : UInt16).toNat = 32 := rfl
    have h32' : (32 : UInt8).toNat = 32 := rfl
    omega
  · rw [if_neg hupper, if_neg (mt hiff.mp hupper)]

theorem toUInt16_injective {a b : UInt8} (h : a.toUInt16 = b.toUInt16) : a = b := by
  have hnat := congrArg UInt16.toNat h
  rwa [UInt8.toNat_toUInt16, UInt8.toNat_toUInt16, UInt8.toNat_inj] at hnat

/-- The folders of the parts. -/
def folders (parts : List (List UInt8)) : List UInt16 := parts.flatMap fun part => 92 :: part.map UInt8.toUInt16

theorem fold_ne {c : UInt8} (h : c ≠ 92) : fold c ≠ 92 := by
  intro hfold
  unfold fold at hfold
  split at hfold
  · rename_i hupper
    have hlow : 65 ≤ c.toNat := UInt8.le_iff_toNat_le.mp hupper.1
    have hhigh : c.toNat ≤ 90 := UInt8.le_iff_toNat_le.mp hupper.2
    have hnat := congrArg UInt8.toNat hfold
    rw [UInt8.toNat_add] at hnat
    have h32 : (32 : UInt8).toNat = 32 := rfl
    have h92 : (92 : UInt8).toNat = 92 := rfl
    omega
  · exact h hfold

/-- A part as its folder's name compares. -/
def folded (part : List UInt8) : List UInt16 := (part.map fold).map UInt8.toUInt16

theorem folded_folders (parts : List (List UInt8)) :
    (folders parts).map wide_fold = behind 92 (parts.map folded) := by
  rw [folders, behind, map_flatMap, flatMap_map]
  congr 1
  funext part
  have hpart : (part.map UInt8.toUInt16).map wide_fold = folded part := by
    rw [folded, map_map, map_map]
    exact map_congr_left fun c _ => wide_fold_toUInt16 c
  rw [map_cons, hpart]
  rfl

theorem Ordinary.folded (h : Ordinary c) : 92 ∉ profiles.folded c := by
  intro hmem
  obtain ⟨ch', hch', heq⟩ := mem_map.mp hmem
  obtain ⟨ch, hch, rfl⟩ := mem_map.mp hch'
  have hnot : ch ≠ 92 := by
    rintro rfl
    cases h.no_separator 92 hch
  exact fold_ne hnot (toUInt16_injective heq)

/-- Folders that are the same but for case are of parts that are. -/
theorem folders_injective (hp : ∀ c ∈ ps, Ordinary c) (hq : ∀ c ∈ qs, Ordinary c)
    (h : (folders ps).map wide_fold = (folders qs).map wide_fold) : ps.map folded = qs.map folded := by
  rw [folded_folders, folded_folders] at h
  refine behind_injective ?_ ?_ h
  · rintro c hc
    obtain ⟨part, hpart, rfl⟩ := mem_map.mp hc
    exact (hp part hpart).folded
  · rintro c hc
    obtain ⟨part, hpart, rfl⟩ := mem_map.mp hc
    exact (hq part hpart).folded

variable {dir : List UInt16}

theorem discovered_folder_eq (hdir : dir ≠ []) (h : KeyParts k parts) (hsame : variant_key (key_text k) = some k) :
    discovered_folder dir (key_text k) false = dir ++ wide "\\profiles\\discovered" ++ folders parts.tail := by
  rw [discovered_folder, hsame]
  dsimp only
  rw [if_neg (not_not.mpr rfl), if_neg hdir, if_neg Bool.false_ne_true, h.components]
  rfl

/-- A key that is not the key of itself has no folder. -/
theorem discovered_folder_none (h : KeyParts k parts) (hother : variant_key (key_text k) ≠ some k) :
    discovered_folder dir (key_text k) false = [] := by
  unfold discovered_folder
  split
  · rfl
  rename_i own hown
  rw [if_pos]
  intro htext
  have hk := h.key_eq
  have hkey := (key_parts hown).key_eq
  rw [← (key_parts hown).text_eq, htext, h.text_eq, ← hk] at hkey
  exact hother (by rw [hown, hkey])

theorem same_folder_cancel (hp : ∀ c ∈ ps, Ordinary c) (hq : ∀ c ∈ qs, Ordinary c)
    {front : List UInt16} (h : same_folder (front ++ folders ps) (front ++ folders qs) = true) :
    ps.map folded = qs.map folded := by
  rw [same_folder, decide_eq_true_eq, map_append, map_append] at h
  exact folders_injective hp hq (append_cancel_left h)

/-- Keys whose parts below the first compare equal are the same but for case. -/
theorem same_keys (hp : KeyParts k ps) (hq : KeyParts k' qs)
    (h : ps.tail.map folded = qs.tail.map folded) : same_text (key_text k) (key_text k') = true := by
  have hfirst := hp.first
  have hfirst' := hq.first
  rw [hp.text_eq, hq.text_eq]
  obtain ⟨x, ps, rfl, hx⟩ := hfirst
  obtain ⟨y, qs, rfl, hy⟩ := hfirst'
  have hxy : x.map fold = y.map fold := (of_decide_eq_true hx).trans (of_decide_eq_true hy).symm
  have hparts : ps.map (·.map fold) = qs.map (·.map fold) := by
    refine map_injective_iff.mpr (fun a b hab => ?_) (?_ : (ps.map (·.map fold)).map (·.map UInt8.toUInt16) =
      (qs.map (·.map fold)).map (·.map UInt8.toUInt16))
    · exact map_injective_iff.mpr (fun _ _ => toUInt16_injective) hab
    · rw [map_map, map_map]
      exact h
  have hbehind (parts : List (List UInt8)) : (behind 47 parts).map fold = behind 47 (parts.map (·.map fold)) := by
    rw [behind, behind, map_flatMap, flatMap_map]
    rfl
  rw [same_text, decide_eq_true_eq, joined, joined, map_append, map_append, hxy, hbehind, hbehind, hparts]

/-! ## Canonical keys -/

/-- What the key of a path promises: it is a key of its own and of the path, its layout can be
saved, and that in a folder that no other key has. -/
structure Canonical (settings_directory : List UInt16) (path : List UInt8) (k : VariantKey) : Prop where
  key_of_key : variant_key (key_text k) = some k
  same : same_variant path (key_text k) = true
  saved : ∀ l : DiscoveredLayout, l.key = k → valid_key l.key = true
  folder : ∃ first parts, key_text k = joined (first :: parts) ∧ (∀ c ∈ first :: parts, Ordinary c) ∧
    discovered_folder settings_directory (key_text k) false ≠ [] ∧
    discovered_folder settings_directory (key_text k) false =
      settings_directory ++ wide "\\profiles\\discovered" ++ folders parts
  apart : ∀ path' k', variant_key path' = some k' → same_text (key_text k) (key_text k') = false →
    same_folder (discovered_folder settings_directory (key_text k) false)
      (discovered_folder settings_directory (key_text k') false) = false

theorem same_variant_of_key (h : variant_key path = some k) : same_variant path (key_text k) = true := by
  unfold same_variant
  rw [h]
  simp only [Bool.and_eq_true, decide_eq_true_eq, same_text, and_true]
  exact (key_parts h).text_ne_nil

/-- A key that stays one has its own folder. -/
theorem folders_apart (hdir : dir ≠ []) (hp : KeyParts k ps)
    (hq : KeyParts k' qs) (hsame : variant_key (key_text k) = some k)
    (h : same_folder (discovered_folder dir (key_text k) false) (discovered_folder dir (key_text k') false) = true) :
    same_text (key_text k) (key_text k') = true := by
  rw [discovered_folder_eq hdir hp hsame] at h
  by_cases hsame' : variant_key (key_text k') = some k'
  · rw [discovered_folder_eq hdir hq hsame'] at h
    refine same_keys hp hq (same_folder_cancel (fun c hc => ?_) (fun c hc => ?_) h)
    · exact hp.ordinary c (mem_of_mem_tail hc)
    · exact hq.ordinary c (mem_of_mem_tail hc)
  rw [discovered_folder_none hq hsame', same_folder, decide_eq_true_eq, map_nil, map_eq_nil_iff] at h
  exact absurd (append_eq_nil_iff.mp (append_eq_nil_iff.mp h).1).1 hdir

/-- Keys are canonical, except those of a path whose end, once removed, would be removed again. -/
theorem keys_are_canonical (settings_directory : List UInt16) (hdir : settings_directory ≠ []) (path : List UInt8)
    (k : VariantKey) (h : variant_key path = some k) :
    Canonical settings_directory path k ↔ ¬Doubled (parts_of path) := by
  have hparts := key_parts h
  rw [← ends_iff_doubled h, ← hparts.key_of_text_iff]
  constructor
  · exact fun hcanonical => hcanonical.key_of_key
  · intro hsame
    obtain ⟨first, rest, hsplit, -⟩ := hparts.first
    have hfolder := discovered_folder_eq hdir hparts hsame
    rw [hsplit] at hparts hfolder
    refine ⟨hsame, same_variant_of_key h, fun l hl => ?_, ?_, fun path' k' h' hdiffers => ?_⟩
    · rw [hl]
      exact hparts.valid_key hsame
    · refine ⟨first, rest, hparts.text_eq, hparts.ordinary, ?_, hfolder⟩
      rw [hfolder, append_assoc]
      exact append_ne_nil_of_left_ne_nil hdir _
    · refine Bool.eq_false_iff.mpr fun hfolders => ?_
      rw [folders_apart hdir hparts (key_parts h') hsame hfolders] at hdiffers
      cases hdiffers

/-- A preset's key, from the path that the simulator reports. -/
theorem a_preset_has_a_key : ∃ k,
    variant_key (bytes_of "SimObjects\\Airplanes/FNX_32X/presets/fnx/FNX_320_CFM_SL/config/aircraft.CFG") = some k ∧
      (Canonical (wide "C:\\Taxi Cam") (bytes_of
        "SimObjects\\Airplanes/FNX_32X/presets/fnx/FNX_320_CFM_SL/config/aircraft.CFG") k ↔
        ¬Doubled (parts_of (bytes_of
          "SimObjects\\Airplanes/FNX_32X/presets/fnx/FNX_320_CFM_SL/config/aircraft.CFG"))) :=
  have hkey : variant_key (bytes_of "SimObjects\\Airplanes/FNX_32X/presets/fnx/FNX_320_CFM_SL/config/aircraft.CFG") =
      some (key_of (bytes_of "SimObjects/Airplanes/FNX_32X/presets/fnx/FNX_320_CFM_SL")) :=
    (variant_key_eq_some _ _).mpr ⟨by decide +kernel, by decide +kernel,
      bytes_of "SimObjects/Airplanes/FNX_32X/presets/fnx/FNX_320_CFM_SL", by decide +kernel, rfl⟩
  ⟨_, hkey, keys_are_canonical _ (by decide) _ _ hkey⟩

/-- A folder named as the file in it: the key is cut again. -/
theorem a_folder_named_as_its_file : ∃ k,
    variant_key (bytes_of "SimObjects/Airplanes/Jet/aircraft.cfg/aircraft.cfg") = some k ∧
      ¬Canonical (wide "C:\\Taxi Cam") (bytes_of "SimObjects/Airplanes/Jet/aircraft.cfg/aircraft.cfg") k := by
  have hkey : variant_key (bytes_of "SimObjects/Airplanes/Jet/aircraft.cfg/aircraft.cfg") =
      some (key_of (bytes_of "SimObjects/Airplanes/Jet/aircraft.cfg")) :=
    (variant_key_eq_some _ _).mpr ⟨by decide +kernel, by decide +kernel,
      bytes_of "SimObjects/Airplanes/Jet/aircraft.cfg", by decide +kernel, rfl⟩
  -- the key names three parts, of which the last is removed again
  refine ⟨_, hkey, fun h => ?_⟩
  obtain ⟨-, -, text, hwritten, htext⟩ := (variant_key_eq_some _ _).mp h.key_of_key
  have hshorter : text = bytes_of "SimObjects/Airplanes/Jet" := by
    refine Option.some.inj (hwritten.symm.trans ?_)
    rw [key_text_of (by decide) (by decide +kernel)]
    decide +kernel
  have hsame := congrArg key_text htext
  rw [hshorter, key_text_of (by decide) (by decide +kernel), key_text_of (by decide) (by decide +kernel)] at hsame
  exact absurd hsame (by decide +kernel)

end taxi_camera.profiles
