-- What the JSON reader takes from a text is what the grammar says: a reader that accepts
-- has gone over a spelling of the value that it gives.
import TaxiCam.JsonValue
import TaxiCam.JsonTexts

namespace taxi_camera.standalone.json.detail

open readers text_escapes utf8_texts List
open json_grammar hiding Text Value is_digit
open Reader (fail unfinished)

/-! ## Digits of an escape -/

variable {pieces : List Piece} {levels n v : Nat} {p : Piece} {c e : UInt8}

theorem hex_digit_some (h : hex_digit c = some v) : HexDigit c ∧ hex_value c = v := by
  unfold hex_digit at h
  split at h
  · rename_i hc
    cases h
    exact ⟨.inl hc, if_pos hc.2⟩
  rename_i hdigit
  split at h
  · rename_i hc
    cases h
    refine ⟨.inr (.inr hc), ?_⟩
    change 97 ≤ c.toNat ∧ c.toNat ≤ 102 at hc
    change (if c.toNat ≤ 57 then c.toNat - 48 else if c.toNat ≤ 70 then c.toNat - 55 else c.toNat - 87) = _
    rw [if_neg (by omega), if_neg (by omega)]
    omega
  split at h
  · rename_i hc
    cases h
    refine ⟨.inr (.inl hc), ?_⟩
    change 65 ≤ c.toNat ∧ c.toNat ≤ 70 at hc
    change (if c.toNat ≤ 57 then c.toNat - 48 else if c.toNat ≤ 70 then c.toNat - 55 else c.toNat - 87) = _
    rw [if_neg (by omega), if_pos (by omega)]
    omega
  · cases h

theorem hex_digit_of (h : HexDigit c) : hex_digit c = some (hex_value c) := by
  cases hc : hex_digit c with
  | some v => rw [(hex_digit_some hc).2]
  | none =>
    unfold hex_digit at hc
    split at hc
    · cases hc
    split at hc
    · cases hc
    split at hc
    · cases hc
    rename_i hdigit hlower hupper
    rcases h with h | h | h
    · exact absurd h hdigit
    · exact absurd h hupper
    · exact absurd h hlower

def unit_behind (value : Nat) (digits : json_grammar.Text) : Nat := digits.foldl (fun n d => n * 16 + hex_value d) value

theorem hex_digits_some {value : Nat} {text rest : Text} (h : hex_digits n value text = some (v, rest)) :
    ∃ digits, text = digits ++ rest ∧ digits.length = n ∧ (∀ d ∈ digits, HexDigit d) ∧ unit_behind value digits = v := by
  induction n generalizing value text with
  | zero =>
    cases h
    exact ⟨[], rfl, rfl, forall_mem_nil _, rfl⟩
  | succ n ih =>
    cases text with
    | nil => cases h
    | cons c text =>
      rw [hex_digits] at h
      split at h
      · rename_i digit hdigit
        obtain ⟨hc, rfl⟩ := hex_digit_some hdigit
        obtain ⟨digits, rfl, hlength, hall, hv⟩ := ih h
        exact ⟨c :: digits, rfl, by rw [length_cons, hlength], forall_mem_cons.mpr ⟨hc, hall⟩, hv⟩
      · cases h

theorem hex_digits_of {digits : Text} (h : ∀ d ∈ digits, HexDigit d) (value : Nat) (rest : Text) :
    hex_digits digits.length value (digits ++ rest) = some (unit_behind value digits, rest) := by
  induction digits generalizing value with
  | nil => rfl
  | cons d digits ih =>
    rw [length_cons, cons_append, hex_digits, hex_digit_of (h d (.head _))]
    exact ih (fun e he => h e (.tail _ he)) _

theorem code_unit_lt {digits : Text} (h : FourDigits digits) : code_unit digits < 0x10000 := by
  have hvalue {d : UInt8} (hd : HexDigit d) : hex_value d < 16 := by
    unfold hex_value
    change 48 ≤ d.toNat ∧ d.toNat ≤ 57 ∨ 65 ≤ d.toNat ∧ d.toNat ≤ 70 ∨ 97 ≤ d.toNat ∧ d.toNat ≤ 102 at hd
    change (if d.toNat ≤ 57 then _ else if d.toNat ≤ 70 then _ else _) < 16
    split
    · omega
    · split <;> omega
  obtain ⟨hlength, hall⟩ := h
  match digits, hlength with
  | [a, b, c, d], _ =>
    have := hvalue (hall a (by simp))
    have := hvalue (hall b (by simp))
    have := hvalue (hall c (by simp))
    have := hvalue (hall d (by simp))
    change (((0 * 16 + hex_value a) * 16 + hex_value b) * 16 + hex_value c) * 16 + hex_value d < 0x10000
    omega

theorem hex4_reads (bound : Nat) : Reads bound hex4 fun used v => FourDigits used ∧ code_unit used = v := by
  intro text v rest _ h
  unfold hex4 at h
  split at h
  · rename_i value later hsome
    cases h
    obtain ⟨digits, hused, hlength, hall, hv⟩ := hex_digits_some hsome
    exact ⟨digits, hused, ⟨hlength, hall⟩, hv⟩
  · cases h

theorem literal_reads (bound : Nat) (word : Text) : Reads bound (literal word) fun used _ => used = word := by
  intro text _ rest _ h
  unfold literal at h
  split at h
  · rename_i hword
    obtain ⟨later, rfl⟩ := isPrefixOf_iff_prefix.mp hword
    cases h
    exact ⟨word, by rw [drop_left], rfl⟩
  · cases h

/-! ## Strings -/

/-- The bytes that are appended are those of the character. -/
theorem append_utf8_eq {cp : Nat} (h : Nat.isValidChar cp) : append_utf8 cp = String.utf8EncodeChar (Char.ofNat cp) := by
  have hval : (Char.ofNat cp).val.toNat = cp := by
    rw [Char.ofNat, dif_pos h]
    rfl
  have hlt : cp < 0x110000 := by
    rcases h with h | h <;> omega
  have hadd (a b : Nat) : UInt8.ofNat (a + b) = UInt8.ofNat (b + a) := by rw [Nat.add_comm]
  unfold append_utf8 String.utf8EncodeChar
  simp only [hval]
  by_cases hone : cp < 0x80
  · rw [if_pos hone, if_pos (by omega)]
  rw [if_neg hone, if_neg (show ¬cp ≤ 127 by omega)]
  by_cases htwo : cp < 0x800
  · rw [if_pos htwo, if_pos (by omega), hadd 192, hadd 128, Nat.mod_eq_of_lt (show cp / 64 < 32 by omega)]
  rw [if_neg htwo, if_neg (show ¬cp ≤ 2047 by omega)]
  by_cases hthree : cp < 0x10000
  · rw [if_pos hthree, if_pos (by omega), hadd 224, hadd 128, hadd 128, Nat.mod_eq_of_lt (show cp / 4096 < 16 by omega)]
  rw [if_neg hthree, if_neg (by omega), hadd 240, hadd 128, hadd 128, hadd 128,
    Nat.mod_eq_of_lt (show cp / 262144 < 8 by omega)]

theorem simple_escape_some (h : simple_escape e = some c) : (e, c) ∈ escapes ∧ (escapes.lookup e).getD 0 = c := by
  unfold simple_escape at h
  split at h
  · rename_i he
    cases h
    rcases he with rfl | rfl | rfl <;> decide
  iterate 5
    split at h
    · rename_i he
      cases h
      rw [he]
      decide
  cases h

theorem simple_escape_of (h : (e, c) ∈ escapes) : simple_escape e = some ((escapes.lookup e).getD 0) := by
  have hall : (escapes.all fun row => simple_escape row.1 = some ((escapes.lookup row.1).getD 0)) = true := by decide
  exact of_decide_eq_true (all_eq_true.mp hall _ h)

theorem low_surrogate_reads (bound : Nat) {high : Text} (hdigits : FourDigits high)
    (hhigh : 0xd800 ≤ code_unit high ∧ code_unit high ≤ 0xdbff) :
    Reads bound (low_surrogate (code_unit high)) fun used cp => ∃ p : Piece, p.WellFormed ∧ p.Paired ∧
      p.spelled = 92 :: 117 :: high ++ used ∧ append_utf8 cp = p.decoded := by
  refine .bind (literal_reads bound _) fun word _ hword => .bind (hex4_reads bound) fun low _ hlow => ?_
  obtain ⟨hfour, rfl⟩ := hlow
  split
  · exact .fail _
  rename_i hrange
  refine .pure ⟨.pair high low, ⟨hdigits, hfour⟩, ⟨hhigh, by omega, by omega⟩, ?_, ?_⟩
  · rw [hword, append_nil]
    rfl
  · refine append_utf8_eq (.inr ?_)
    unfold joined_surrogates
    omega

theorem code_point_reads (bound : Nat) :
    Reads bound code_point fun used cp => ∃ p : Piece, p.WellFormed ∧ p.Paired ∧
      p.spelled = 92 :: 117 :: used ∧ append_utf8 cp = p.decoded := by
  refine .bind (hex4_reads bound) fun digits _ hdigits => ?_
  obtain ⟨hfour, rfl⟩ := hdigits
  have hlt := code_unit_lt hfour
  split
  · rename_i hhigh
    exact low_surrogate_reads bound hfour hhigh
  split
  · exact .fail _
  rename_i hlow
  refine .pure ⟨.code digits, hfour, (by unfold Piece.Paired; omega), ?_, ?_⟩
  · rw [append_nil]
    rfl
  · refine append_utf8_eq ?_
    omega

theorem escape_reads (bound : Nat) :
    Reads bound escape fun used bytes => ∃ p : Piece, p.WellFormed ∧ p.Paired ∧ p.spelled = 92 :: used ∧ bytes = p.decoded := by
  intro text bytes rest htext h
  unfold escape at h
  split at h
  · cases h
  rename_i e later
  split at h
  · rename_i c hc
    cases h
    obtain ⟨hmem, hlookup⟩ := simple_escape_some hc
    exact ⟨[e], rfl, .escaped e, ⟨c, hmem⟩, trivial, rfl, by rw [Piece.decoded, hlookup]⟩
  split at h
  · cases h
  rename_i he
  obtain ⟨cp, middle, hcode, hpure⟩ := Reader.bind_ok h
  cases hpure
  obtain ⟨used, hused, p, hwell, hpaired, hspelled, hdecoded⟩ :=
    code_point_reads later.length _ _ _ (Nat.le_refl _) hcode
  refine ⟨e :: used, by rw [hused, cons_append], p, hwell, hpaired, ?_, hdecoded⟩
  rw [hspelled, Decidable.not_not.mp he]

variable {δ : Type} {host : Host δ} {turns bound : Nat}

/-- The pieces of a string that was read. -/
structure ReadPieces (pieces : List Piece) : Prop where
  formed : ∀ p ∈ pieces, p.WellFormed
  paired : ∀ p ∈ pieces, p.Paired

theorem ReadPieces.cons (hwell : p.WellFormed) (hpaired : p.Paired)
    (h : ReadPieces pieces) : ReadPieces (p :: pieces) :=
  ⟨forall_mem_cons.mpr ⟨hwell, h.formed⟩, forall_mem_cons.mpr ⟨hpaired, h.paired⟩⟩

/-- What is promised of the functions that the reader calls: a token has a finite number if it is in
range, and a text short enough for its size to be an int has characters if it is UTF-8. -/
structure Documented (host : Host δ) : Prop where
  finite : ∀ token, Number token → host.isfinite (host.strtod token) = in_range token
  characters : ∀ text, text ≠ [] → text.length < 0x80000000 →
    (host.multi_byte_to_wide_char text text.length > 0 ↔ Utf8 text)

theorem int_of_small (h : n < 0x80000000) : int_of n = n := by
  apply Int.bmod_eq_of_le_mul_two <;> omega

theorem characters_iff (hhost : Documented host) {text : Text} (h : text.length < 0x80000000) :
    (text = [] ∨ host.multi_byte_to_wide_char text (int_of text.length) > 0) ↔ Utf8 text := by
  rw [int_of_small h]
  by_cases hempty : text = []
  · rw [hempty]
    exact iff_of_true (.inl rfl) utf8_nil
  rw [or_iff_right hempty]
  exact hhost.characters text hempty h

theorem length_piece (h : p.WellFormed) : p.decoded.length ≤ p.spelled.length := by
  have hchar (char : Char) : (String.utf8EncodeChar char).length ≤ 4 := by
    rw [String.length_utf8EncodeChar]
    exact char.utf8Size_le_four
  cases p with
  | plain c => exact Nat.le_refl _
  | escaped e => exact Nat.le_succ _
  | code digits =>
    have := hchar (Char.ofNat (code_unit digits))
    have := h.1
    simp only [Piece.decoded, Piece.spelled, length_cons]
    omega
  | pair high low =>
    have := hchar (Char.ofNat (Piece.joined high low))
    have := h.1.1
    simp only [Piece.decoded, Piece.spelled, length_cons, length_append]
    omega

/-- A string is not longer than its spelling. -/
theorem length_decoded (h : ∀ p ∈ pieces, p.WellFormed) :
    (decoded pieces).length ≤ (pieces.flatMap Piece.spelled).length := by
  induction pieces with
  | nil => exact Nat.le_refl _
  | cons p pieces ih =>
    have := length_piece (h p (.head _))
    have := ih fun q hq => h q (.tail _ hq)
    rw [decoded, flatMap_cons, flatMap_cons, length_append, length_append]
    exact Nat.add_le_add ‹_› ‹_›

theorem string_loop_reads (turns : Nat) (out : Text) :
    Reads bound (string_loop host turns out) fun used s => ∃ pieces, ReadPieces pieces ∧
      used = pieces.flatMap Piece.spelled ++ [34] ∧ s = out ++ decoded pieces ∧
      (s = [] ∨ host.multi_byte_to_wide_char s (int_of s.length) > 0) := by
  induction turns generalizing out with
  | zero => exact nofun
  | succ turns ih =>
    intro text s rest htext h
    unfold string_loop at h
    split at h
    · cases h
    rename_i c later
    have hlater : later.length ≤ bound := Nat.le_trans (Nat.le_succ _) htext
    split at h
    · rename_i hquote
      split at h
      · rename_i hvalid
        cases h
        exact ⟨[34], by rw [hquote]; rfl, [], ⟨forall_mem_nil _, forall_mem_nil _⟩, rfl, (append_nil _).symm, hvalid⟩
      · cases h
    rename_i hquote
    split at h
    · cases h
    rename_i hcontrol
    split at h
    · rename_i hplain
      obtain ⟨used, rfl, pieces, hpieces, rfl, hs, hvalid⟩ := ih _ _ _ _ hlater h
      refine ⟨_, rfl, .plain c :: pieces, hpieces.cons ⟨?_, hquote, hplain⟩ trivial, rfl, ?_, hvalid⟩
      · exact UInt8.not_lt.mp hcontrol
      · rw [hs, append_assoc]
        rfl
    rename_i hslash
    rw [Decidable.not_not.mp hslash]
    obtain ⟨bytes, middle, hescape, hloop⟩ := Reader.bind_ok h
    obtain ⟨read, rfl, p, hwell, hpaired, hspelled, rfl⟩ := escape_reads bound _ _ _ hlater hescape
    rw [length_append] at hlater
    obtain ⟨used, rfl, pieces, hpieces, rfl, hs, hvalid⟩ := ih _ _ _ _ (by omega) hloop
    refine ⟨92 :: (read ++ (pieces.flatMap Piece.spelled ++ [34])), by simp, p :: pieces,
      hpieces.cons hwell hpaired, ?_, ?_, hvalid⟩
    · rw [flatMap_cons, hspelled, append_assoc]
      rfl
    · rw [hs, append_assoc]
      rfl

theorem string_reads (hhost : Documented host) (hbound : bound < 0x80000000) :
    Reads bound (string host turns) fun used s => ∃ pieces, ReadPieces pieces ∧ Utf8 (decoded pieces) ∧
      used = quoted pieces ∧ s = decoded pieces := by
  intro text s rest htext h
  unfold string at h
  split at h
  · cases h
  rename_i c later
  split at h
  · cases h
  rename_i hquote
  have hlater : later.length ≤ bound := Nat.le_trans (Nat.le_succ _) htext
  obtain ⟨used, rfl, pieces, hpieces, rfl, hs, hvalid⟩ := string_loop_reads _ _ _ _ _ hlater h
  rw [nil_append] at hs
  subst hs
  have hlength := length_decoded hpieces.formed
  simp only [length_append] at hlater
  refine ⟨quoted pieces, ?_, pieces, hpieces, (characters_iff hhost (by omega)).mp hvalid, rfl, rfl⟩
  rw [Decidable.not_not.mp hquote]
  rfl

/-! ## Numbers -/

theorem digits_reads (bound : Nat) : Reads bound digits fun used s => Digits used ∧ s = used := by
  intro text s rest _ h
  unfold digits at h
  split at h
  · cases h
  rename_i hsome
  cases h
  refine ⟨_, takeWhile_append_dropWhile.symm, ⟨hsome, fun c hc => ?_⟩, rfl⟩
  exact all_eq_true.mp all_takeWhile c hc

theorem head_and_rest {text : Text} (h : text.head? = some c) : text = [c] ++ text.drop 1 := by
  cases text with
  | nil => cases h
  | cons d text =>
    cases h
    rfl

theorem minus_reads (bound : Nat) : Reads bound minus fun used s => Minus used ∧ s = used := by
  intro text s rest _ h
  unfold minus at h
  split at h
  · rename_i hhead
    cases h
    exact ⟨[45], head_and_rest hhead, .present, rfl⟩
  cases h
  exact ⟨[], rfl, .absent, rfl⟩

theorem integer_reads (bound : Nat) : Reads bound integer fun used s => Integer used ∧ s = used := by
  intro text s rest htext h
  unfold integer at h
  split at h
  · rename_i hhead
    cases h
    exact ⟨[48], head_and_rest hhead, .zero, rfl⟩
  rename_i hhead
  obtain ⟨used, rfl, hdigits, rfl⟩ := digits_reads bound _ _ _ htext h
  cases s with
  | nil => exact absurd rfl hdigits.1
  | cons d s => exact ⟨d :: s, rfl, .digits hdigits fun hd => hhead (by rw [hd]; rfl), rfl⟩

theorem fraction_reads (bound : Nat) : Reads bound fraction fun used s => Fraction used ∧ s = used := by
  intro text s rest htext h
  unfold fraction at h
  split at h
  · rename_i hhead
    have hdrop : (text.drop 1).length ≤ bound := by
      rw [length_drop]
      omega
    obtain ⟨read, middle, hdigits, hpure⟩ := Reader.bind_ok h
    cases hpure
    obtain ⟨used, hused, hread, rfl⟩ := digits_reads bound _ _ _ hdrop hdigits
    refine ⟨46 :: read, ?_, .present hread, rfl⟩
    rw [head_and_rest hhead, hused]
    rfl
  cases h
  exact ⟨[], rfl, .absent, rfl⟩

theorem sign_reads (bound : Nat) : Reads bound sign fun used s => (used = [] ∨ used = [43] ∨ used = [45]) ∧ s = used := by
  intro text s rest _ h
  unfold sign at h
  split at h
  · cases h
    exact ⟨[], rfl, .inl rfl, rfl⟩
  rename_i c later
  split at h
  · rename_i hsign
    cases h
    refine ⟨[_], rfl, .inr ?_, rfl⟩
    rcases hsign with rfl | rfl
    · exact .inl rfl
    · exact .inr rfl
  cases h
  exact ⟨[], rfl, .inl rfl, rfl⟩

theorem exponent_reads (bound : Nat) : Reads bound exponent fun used s => Exponent used ∧ s = used := by
  intro text s rest htext h
  unfold exponent at h
  split at h
  · cases h
    exact ⟨[], rfl, .absent, rfl⟩
  rename_i c later
  split at h
  · rename_i he
    have hlater : later.length ≤ bound := Nat.le_trans (Nat.le_succ _) htext
    have hread : Reads bound (exponent_digits c) fun used s => Exponent (c :: used) ∧ s = c :: used := by
      refine .bind (sign_reads bound) fun _ sign hsign => .bind (digits_reads bound) fun _ read hread => .pure ?_
      obtain ⟨hsign, rfl⟩ := hsign
      obtain ⟨hread, rfl⟩ := hread
      rw [append_nil]
      exact ⟨.present he hsign hread, rfl⟩
    obtain ⟨used, rfl, hexponent, rfl⟩ := hread _ _ _ hlater h
    exact ⟨c :: used, rfl, hexponent, rfl⟩
  cases h
  exact ⟨[], rfl, .absent, rfl⟩

theorem token_reads (bound : Nat) : Reads bound token fun used s => Number used ∧ s = used := by
  refine .bind (minus_reads bound) fun _ minus hminus => .bind (integer_reads bound) fun _ integer hinteger =>
    .bind (fraction_reads bound) fun _ fraction hfraction => .bind (exponent_reads bound) fun _ exponent hexponent => .pure ?_
  obtain ⟨hminus, rfl⟩ := hminus
  obtain ⟨hinteger, rfl⟩ := hinteger
  obtain ⟨hfraction, rfl⟩ := hfraction
  obtain ⟨hexponent, rfl⟩ := hexponent
  have hsame : minus ++ (integer ++ (fraction ++ (exponent ++ []))) = minus ++ integer ++ fraction ++ exponent := by
    simp only [append_nil, append_assoc]
  rw [hsame]
  exact ⟨.parts hminus hinteger hfraction hexponent, rfl⟩

theorem number_reads (hhost : Documented host) :
    Reads bound (number host) fun used v => Number used ∧ in_range used ∧ v = .number used (host.strtod used) := by
  refine .bind (token_reads bound) fun _ text htext => ?_
  obtain ⟨htext, rfl⟩ := htext
  split
  · rename_i hfinite
    refine .pure ?_
    rw [append_nil]
    exact ⟨htext, hhost.finite text htext ▸ hfinite, rfl⟩
  · exact .fail _

/-! ## Values -/

mutual

/-- The value that the tree assigns, its parts in order. -/
def assigned (strtod : Text → δ) : Tree → Value δ
  | .null => .null
  | .bool b => .bool b
  | .number token => .number token (strtod token)
  | .string pieces => .string (decoded pieces)
  | .array items => .array (assigned_items strtod items)
  | .object members => .object (assigned_members strtod members)

def assigned_items (strtod : Text → δ) : List Tree → List (Value δ)
  | [] => []
  | item :: items => assigned strtod item :: assigned_items strtod items

def assigned_members (strtod : Text → δ) : List (List Piece × Tree) → List (Text × Value δ)
  | [] => []
  | (pieces, item) :: members => (decoded pieces, assigned strtod item) :: assigned_members strtod members

end

theorem assigned_items_eq (strtod : Text → δ) (items : List Tree) :
    assigned_items strtod items = items.map (assigned strtod) := by
  induction items with
  | nil => rfl
  | cons item items ih => rw [assigned_items, ih, map_cons]

/-- What a member of the tree assigns. -/
def assigned_member (strtod : Text → δ) (member : List Piece × Tree) : Text × Value δ :=
  (decoded member.1, assigned strtod member.2)

theorem assigned_members_eq (strtod : Text → δ) (members : List (List Piece × Tree)) :
    assigned_members strtod members = members.map (assigned_member strtod) := by
  induction members with
  | nil => rfl
  | cons member members ih =>
    rw [assigned_members, ih, map_cons]
    rfl

/-- What the reader asks of a value beyond the grammar, the values in it apart. -/
def Lawful (tree : Tree) : Prop :=
  tree.UniqueKeys ∧ tree.PairedSurrogates ∧ tree.FiniteNumber ∧ tree.Utf8Strings

/-- The text is a spelling of the tree, and the tree is one that the reader accepts with so many
levels. -/
structure Spelled (levels : Nat) (tree : Tree) (text : Text) : Prop where
  spelling : json_grammar.Value tree text
  nested : tree.NestedWithin levels
  lawful : tree.Everywhere Lawful

/-- The same of a member. -/
structure SpelledMember (levels : Nat) (member : List Piece × Tree) (text : Text) : Prop where
  spelling : Member json_grammar.Value member text
  nested : member.2.NestedWithin levels
  lawful : member.2.Everywhere Lawful
  paired : ∀ p ∈ member.1, p.Paired
  utf8 : Utf8 (decoded member.1)

theorem space_iff {text : Text} : Space text ↔ ∀ c ∈ text, is_space c = true := by
  simp only [Space, is_space, Bool.or_eq_true, decide_eq_true_eq, or_assoc]
  exact forall₂_congr fun c _ => by tauto

theorem space_of_all {text : Text} (h : text.all is_space = true) : Space text := space_iff.mpr (all_eq_true.mp h)

theorem space_of_takeWhile (text : Text) : Space (text.takeWhile is_space) :=
  space_iff.mpr fun c hc => all_eq_true.mp all_takeWhile c hc

/-- What is read behind white space is read behind that of the text. -/
theorem space_split {text used rest : Text} (h : space text = used ++ rest) :
    text = text.takeWhile is_space ++ used ++ rest := by
  rw [append_assoc, ← h]
  exact takeWhile_append_dropWhile.symm

theorem next_character_reads (bound : Nat) :
    Reads bound next_character fun used c => ∃ before, Space before ∧ used = before ++ [c] := by
  intro text c rest _ h
  unfold next_character at h
  split at h
  · cases h
  rename_i d later hspace
  cases h
  have hsplit : space text = [c] ++ rest := hspace
  exact ⟨_, space_split hsplit, _, space_of_takeWhile text, rfl⟩

section
variable {τ β : Type} {f : τ → β} {Part : τ → Text → Prop} {I : List β → Prop} {closing : UInt8}
  {part : List β → Read (List β)}

/-- What one turn reads is one part behind white space. -/
def ReadsPart (bound : Nat) (f : τ → β) (Part : τ → Text → Prop) (I : List β → Prop) (part : List β → Read (List β)) : Prop :=
  ∀ parsed, I parsed → Reads bound (part parsed) fun used result => ∃ before inner t, Space before ∧
    used = before ++ inner ∧ Part t inner ∧ result = parsed ++ [f t] ∧ I result

theorem parts_reads (hpart : ReadsPart bound f Part I part) (turns : Nat) (parsed : List β) (hparsed : I parsed) :
    Reads bound (parts closing part turns parsed) fun used result => ∃ ts text, Separated Part ts text ∧
      used = text ++ [closing] ∧ result = parsed ++ ts.map f ∧ I result := by
  induction turns generalizing parsed with
  | zero => exact nofun
  | succ turns ih =>
    refine .bind (hpart parsed hparsed) fun _ result hresult => .bind (next_character_reads bound) fun _ c hc => ?_
    obtain ⟨before, inner, t, hbefore, rfl, ht, rfl, hI⟩ := hresult
    obtain ⟨after, hafter, rfl⟩ := hc
    split
    · rename_i hcomma
      subst hcomma
      refine (ih _ hI).imp fun used result hread => ?_
      obtain ⟨ts, text, hts, rfl, rfl, hlast⟩ := hread
      refine ⟨t :: ts, _, .more hbefore ht hafter hts, ?_, ?_, hlast⟩
      · simp only [append_assoc, cons_append, nil_append]
      · rw [append_assoc, map_cons, singleton_append]
    split
    · exact .fail _
    rename_i hclosing
    rw [Decidable.not_not.mp hclosing]
    refine .pure ⟨[t], _, .last hbefore ht hafter, ?_, rfl, hI⟩
    simp only [append_assoc, append_nil]

theorem container_reads (hpart : ReadsPart bound f Part I part) (hnone : I []) :
    Reads bound (container turns closing part) fun used result => ∃ ts text, used = text ++ [closing] ∧
      (ts = [] ∧ Space text ∨ Separated Part ts text) ∧ result = ts.map f ∧ I result := by
  intro text result rest htext h
  unfold container at h
  split at h
  · rename_i hhead
    cases h
    exact ⟨_, space_split (head_and_rest hhead), [], _, rfl, .inl ⟨rfl, space_of_takeWhile text⟩, rfl, hnone⟩
  have hspace : (space text).length ≤ bound := Nat.le_trans (length_space text) htext
  obtain ⟨used, hused, ts, inner, hts, rfl, rfl, hI⟩ := parts_reads hpart _ [] hnone _ _ _ hspace h
  refine ⟨_, space_split hused, ts, text.takeWhile is_space ++ inner, ?_, .inr (hts.pad (space_of_takeWhile text)), rfl, hI⟩
  rw [append_assoc]

end

/-- What a reader of values reads at a level. -/
def ReadsValue (bound levels : Nat) (host : Host δ) (r : Read (Value δ)) : Prop :=
  Reads bound r fun used v => ∃ before inner tree, Space before ∧ used = before ++ inner ∧
    Spelled levels tree inner ∧ v = assigned host.strtod tree

theorem item_reads {r : Read (Value δ)} (h : ReadsValue bound levels host r) :
    ReadsPart bound (assigned host.strtod) (Spelled levels) (fun _ => True) (item r) := by
  intro parsed _
  refine .bind h fun used v hv => .pure ?_
  obtain ⟨before, inner, tree, hbefore, rfl, htree, rfl⟩ := hv
  exact ⟨before, inner, tree, hbefore, append_nil _, htree, rfl, trivial⟩

theorem array_reads {r : Read (Value δ)} (h : ReadsValue bound levels host r) :
    Reads bound (array turns r) fun used v => ∃ tree, Spelled (levels + 1) tree (91 :: used) ∧
      v = assigned host.strtod tree := by
  refine .bind (container_reads (item_reads h) trivial) fun used items hitems => .pure ?_
  obtain ⟨trees, text, rfl, htrees, rfl, -⟩ := hitems
  refine ⟨.array trees, ?_, by rw [assigned, assigned_items_eq]⟩
  rw [append_nil]
  have hbare : Lawful (.array trees) := ⟨trivial, nofun, trivial, nofun⟩
  rcases htrees with ⟨rfl, hspace⟩ | htrees
  · exact ⟨.empty_array hspace, .container nofun, .node hbare nofun⟩
  exact ⟨.array (htrees.imp fun _ _ ht => ht.spelling), .container (htrees.forall fun _ _ ht => ht.nested),
    .node hbare (htrees.forall fun _ _ ht => ht.lawful)⟩

theorem key_reads (hhost : Documented host) (hbound : bound < 0x80000000) :
    Reads bound (key host turns) fun used s => ∃ before pieces, Space before ∧ ReadPieces pieces ∧ Utf8 (decoded pieces) ∧
      used = before ++ quoted pieces ∧ s = decoded pieces := by
  intro text s rest htext h
  have hspace : (space text).length ≤ bound := Nat.le_trans (length_space text) htext
  obtain ⟨used, hused, pieces, hpieces, hutf8, rfl, rfl⟩ := string_reads hhost hbound _ _ _ hspace h
  exact ⟨_, space_split hused, _, pieces, space_of_takeWhile text, hpieces, hutf8, rfl, rfl⟩

/-- No two members have the same key. -/
def KeysApart (parsed : List (Text × Value δ)) : Prop := (parsed.map Prod.fst).Nodup

theorem KeysApart.snoc {parsed : List (Text × Value δ)} {key : Text} (h : KeysApart parsed)
    (hkey : ¬(parsed.any fun member => decide (member.1 = key)) = true) (v : Value δ) : KeysApart (parsed ++ [(key, v)]) := by
  unfold KeysApart at h ⊢
  rw [map_append, map_singleton, nodup_append]
  refine ⟨h, pairwise_singleton _ _, fun a ha b hb => ?_⟩
  rw [mem_singleton.mp hb]
  rintro rfl
  obtain ⟨member, hmember, rfl⟩ := mem_map.mp ha
  exact hkey (any_eq_true.mpr ⟨member, hmember, decide_eq_true rfl⟩)

theorem member_reads (hhost : Documented host) (hbound : bound < 0x80000000) {r : Read (Value δ)}
    (h : ReadsValue bound levels host r) :
    ReadsPart bound (assigned_member host.strtod) (SpelledMember levels) KeysApart (member host turns r) := by
  intro parsed hparsed
  refine .bind (key_reads hhost hbound) fun _ key hkey => ?_
  obtain ⟨before, pieces, hbefore, hpieces, hutf8, rfl, rfl⟩ := hkey
  split
  · exact .fail _
  rename_i hfresh
  refine .bind (next_character_reads bound) fun _ colon hcolon => ?_
  obtain ⟨after, hafter, rfl⟩ := hcolon
  split
  · exact .fail _
  rename_i hcolon
  rw [Decidable.not_not.mp hcolon]
  refine .bind h fun _ v hv => .pure ?_
  obtain ⟨behind, inner, tree, hbehind, rfl, htree, rfl⟩ := hv
  refine ⟨before, quoted pieces ++ after ++ 58 :: (behind ++ inner), (pieces, tree), hbefore, ?_,
    ⟨.named hpieces.formed hafter hbehind htree.spelling, htree.nested, htree.lawful, hpieces.paired, hutf8⟩, rfl,
    hparsed.snoc hfresh _⟩
  simp only [append_assoc, append_nil, cons_append, nil_append]

theorem object_reads (hhost : Documented host) (hbound : bound < 0x80000000) {r : Read (Value δ)}
    (h : ReadsValue bound levels host r) :
    Reads bound (object host turns r) fun used v => ∃ tree, Spelled (levels + 1) tree (123 :: used) ∧
      v = assigned host.strtod tree := by
  refine .bind (container_reads (member_reads hhost hbound h) nodup_nil) fun used members hmembers => .pure ?_
  obtain ⟨trees, text, rfl, htrees, rfl, hkeys⟩ := hmembers
  refine ⟨.object trees, ?_, by rw [assigned, assigned_members_eq]⟩
  rw [append_nil]
  unfold KeysApart at hkeys
  rw [map_map] at hkeys
  rcases htrees with ⟨rfl, hspace⟩ | htrees
  · exact ⟨.empty_object hspace, .container nofun,
      .node ⟨hkeys, nofun, trivial, nofun⟩ nofun⟩
  refine ⟨.object (htrees.imp fun _ _ ht => ht.spelling), .container ?_, .node ⟨hkeys, ?_, trivial, ?_⟩ ?_⟩
  · exact forall_mem_map.mpr (htrees.forall fun _ _ ht => ht.nested)
  · exact forall_mem_map.mpr (htrees.forall fun _ _ ht => ht.paired)
  · exact forall_mem_map.mpr (htrees.forall fun _ _ ht => ht.utf8)
  · exact forall_mem_map.mpr (htrees.forall fun _ _ ht => ht.lawful)

theorem lawful_word {tree : Tree} (h : tree.UniqueKeys ∧ tree.FiniteNumber) (hstrings : tree.strings = [])
    (hchildren : tree.children = []) : tree.Everywhere Lawful := by
  refine .node ⟨h.1, ?_, h.2, ?_⟩ fun child hc => ?_
  · intro pieces hp
    rw [hstrings] at hp
    cases hp
  · intro pieces hp
    rw [hstrings] at hp
    cases hp
  · rw [hchildren] at hc
    cases hc

theorem scalar_reads (hhost : Documented host) (hbound : bound < 0x80000000) (levels : Nat) :
    Reads bound (scalar host turns) fun used v => ∃ tree, Spelled levels tree used ∧ v = assigned host.strtod tree := by
  have hword {tree : Tree} {word text : Text} (hword : word.isPrefixOf text = true) (hvalue : json_grammar.Value tree word)
      (hleaf : tree.is_container = false) (hlawful : tree.Everywhere Lawful) :
      text = word ++ text.drop word.length ∧ Spelled levels tree word := by
    obtain ⟨later, rfl⟩ := isPrefixOf_iff_prefix.mp hword
    exact ⟨by rw [drop_left], hvalue, .leaf hleaf, hlawful⟩
  intro text v rest htext h
  unfold scalar at h
  split at h
  · obtain ⟨s, middle, hstring, hpure⟩ := Reader.bind_ok h
    cases hpure
    obtain ⟨used, hused, pieces, hpieces, hutf8, rfl, rfl⟩ := string_reads hhost hbound _ _ _ htext hstring
    exact ⟨_, hused, .string pieces, ⟨.string hpieces.formed, .leaf rfl, .node
      ⟨trivial, forall_mem_singleton.mpr hpieces.paired, trivial, forall_mem_singleton.mpr hutf8⟩
      nofun⟩, rfl⟩
  split at h
  · rename_i htrue
    cases h
    obtain ⟨htext, hspelled⟩ := hword htrue .true rfl (lawful_word ⟨trivial, trivial⟩ rfl rfl)
    exact ⟨_, htext, .bool true, hspelled, rfl⟩
  split at h
  · rename_i hfalse
    cases h
    obtain ⟨htext, hspelled⟩ := hword hfalse .false rfl (lawful_word ⟨trivial, trivial⟩ rfl rfl)
    exact ⟨_, htext, .bool false, hspelled, rfl⟩
  split at h
  · rename_i hnull
    cases h
    obtain ⟨htext, hspelled⟩ := hword hnull .null rfl (lawful_word ⟨trivial, trivial⟩ rfl rfl)
    exact ⟨_, htext, .null, hspelled, rfl⟩
  obtain ⟨used, hused, hnumber, hrange, rfl⟩ := number_reads hhost _ _ _ htext h
  exact ⟨used, hused, .number used, ⟨.number hnumber, .leaf rfl, .node
    ⟨trivial, nofun, hrange, nofun⟩ nofun⟩, rfl⟩

/-- A value that is read at a level is a spelling of what the grammar assigns. -/
theorem value_reads (hhost : Documented host) (hbound : bound < 0x80000000) (levels : Nat) :
    ReadsValue bound levels host (value host turns levels) := by
  have hscalar (levels : Nat) {text : Text} {c : UInt8} {later rest : Text} {v : Value δ}
      (hspace : space text = c :: later) (hlater : (c :: later).length ≤ bound)
      (h : scalar host turns (c :: later) = .ok v rest) :
      ∃ used, text = used ++ rest ∧ ∃ before inner tree, Space before ∧ used = before ++ inner ∧
        Spelled levels tree inner ∧ v = assigned host.strtod tree := by
    obtain ⟨used, hused, tree, htree, rfl⟩ := scalar_reads hhost hbound levels _ _ _ hlater h
    exact ⟨_, space_split (hspace.trans hused), _, used, tree, space_of_takeWhile text, rfl, htree, rfl⟩
  induction levels with
  | zero =>
    intro text v rest htext h
    have hlength := Nat.le_trans (length_space text) htext
    unfold value at h
    split at h
    · cases h
    rename_i c later hspace
    rw [hspace] at hlength
    split at h
    · cases h
    · exact hscalar 0 hspace hlength h
  | succ levels ih =>
    intro text v rest htext h
    have hlength := Nat.le_trans (length_space text) htext
    unfold value at h
    split at h
    · cases h
    rename_i c later hspace
    rw [hspace] at hlength
    have hlater : later.length ≤ bound := Nat.le_trans (Nat.le_succ _) hlength
    have hbehind {used : Text} (hused : later = used ++ rest) : text = text.takeWhile is_space ++ c :: used ++ rest := by
      refine space_split (hspace.trans ?_)
      rw [hused, cons_append]
    split at h
    · rename_i hobject
      obtain ⟨used, hused, tree, htree, rfl⟩ := object_reads hhost hbound ih _ _ _ hlater h
      exact ⟨_, hbehind hused, _, _, tree, space_of_takeWhile text, rfl, hobject ▸ htree, rfl⟩
    split at h
    · rename_i harray
      obtain ⟨used, hused, tree, htree, rfl⟩ := array_reads ih _ _ _ hlater h
      exact ⟨_, hbehind hused, _, _, tree, space_of_takeWhile text, rfl, harray ▸ htree, rfl⟩
    · exact hscalar _ hspace hlength h

end taxi_camera.standalone.json.detail
