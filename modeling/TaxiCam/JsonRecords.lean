-- What setup writes reads back: the text of a value is a spelling of a tree that the
-- reader accepts, and the tree assigns the value.
import TaxiCam.JsonWriter
import TaxiCam.JsonParse

namespace taxi_camera.setup.json_out

open standalone.json.detail List
open standalone.text_escapes (Text text_of bom)
open utf8_texts
open json_grammar hiding Text Value is_digit escapes

variable {δ : Type} {host : Host δ} {system : Conversions δ}

/-! ## Values that can be read -/

def is_container : Value δ → Bool
  | .array _ | .object _ => true
  | _ => false

/-- Arrays and objects stand in each other at most so deep. -/
inductive NestedWithin : Nat → Value δ → Prop
  | scalar {n : Nat} {v : Value δ} (h : is_container v = false) : NestedWithin n v
  | array {n : Nat} {items : List (Value δ)} (h : ∀ item ∈ items, NestedWithin n item) : NestedWithin (n + 1) (.array items)
  | object {n : Nat} {members : List (Text × Value δ)} (h : ∀ member ∈ members, NestedWithin n member.2) :
      NestedWithin (n + 1) (.object members)

/-- Strings are UTF-8, keys are unique, and a number carries a token that reads as it. -/
inductive Readable (host : Host δ) : Value δ → Prop
  | null : Readable host .null
  | bool (b : Bool) : Readable host (.bool b)
  | number {token : Text} (h : Number token) (hrange : in_range token) : Readable host (.number token (host.strtod token))
  | string {text : Text} (h : Utf8 text) : Readable host (.string text)
  | array {items : List (Value δ)} (h : ∀ item ∈ items, Readable host item) : Readable host (.array items)
  | object {members : List (Text × Value δ)} (hkeys : KeysApart members) (hnames : ∀ member ∈ members, Utf8 member.1)
      (h : ∀ member ∈ members, Readable host member.2) : Readable host (.object members)

/-! ## Strings -/

theorem hex_character_value : ∀ n < 16, HexDigit (hex_character n) ∧ hex_value (hex_character n) = n := by
  have h : ∀ n : Fin 16, hex_value (hex_character n) = n ∧ (48 ≤ hex_character n ∧ hex_character n ≤ 57 ∨
      65 ≤ hex_character n ∧ hex_character n ≤ 70 ∨ 97 ≤ hex_character n ∧ hex_character n ≤ 102) := by decide
  exact fun n hn => ⟨(h ⟨n, hn⟩).2, (h ⟨n, hn⟩).1⟩

/-- The piece that a character is written as. -/
def piece_of (c : UInt8) : Piece :=
  if c = 34 then .escaped 34
  else if c = 92 then .escaped 92
  else if c = 10 then .escaped 110
  else if c = 13 then .escaped 114
  else if c = 9 then .escaped 116
  else if c < 0x20 then .code [48, 48, hex_character (c.toNat / 16), hex_character (c.toNat % 16)]
  else .plain c

theorem piece_of_spec (c : UInt8) : (piece_of c).WellFormed ∧ (piece_of c).Paired ∧ (piece_of c).spelled = escaped c ∧
    (piece_of c).decoded = [c] := by
  have hsimple {e d : UInt8} {text : Text} (hc : c = d) (h : (e, d) ∈ json_grammar.escapes)
      (hlookup : (json_grammar.escapes.lookup e).getD 0 = d) (htext : [92, e] = text) :
      (Piece.escaped e).WellFormed ∧ (Piece.escaped e).Paired ∧ (Piece.escaped e).spelled = text ∧
        (Piece.escaped e).decoded = [c] :=
    ⟨⟨d, h⟩, trivial, htext, by rw [Piece.decoded, hlookup, hc]⟩
  have hcontrol (h : c < 0x20) : code_unit [48, 48, hex_character (c.toNat / 16), hex_character (c.toNat % 16)] = c.toNat ∧
      FourDigits [48, 48, hex_character (c.toNat / 16), hex_character (c.toNat % 16)] := by
    have hsmall : c.toNat < 32 := UInt8.lt_iff_toNat_lt.mp h
    obtain ⟨hhigh, hhighvalue⟩ := hex_character_value (c.toNat / 16) (by omega)
    obtain ⟨hlow, hlowvalue⟩ := hex_character_value (c.toNat % 16) (by omega)
    have hzero : HexDigit 48 := .inl (by decide)
    constructor
    · change (((0 * 16 + 0) * 16 + 0) * 16 + hex_value _) * 16 + hex_value _ = _
      rw [hhighvalue, hlowvalue]
      omega
    · simp only [FourDigits, forall_mem_cons]
      exact ⟨rfl, hzero, hzero, hhigh, hlow, forall_mem_nil _⟩
  unfold piece_of escaped
  split
  · exact hsimple ‹_› (by decide) (by decide) rfl
  split
  · exact hsimple ‹_› (by decide) (by decide) rfl
  split
  · exact hsimple ‹_› (by decide) (by decide) rfl
  split
  · exact hsimple ‹_› (by decide) (by decide) rfl
  split
  · exact hsimple ‹_› (by decide) (by decide) rfl
  split
  · rename_i hlt
    obtain ⟨hunit, hdigits⟩ := hcontrol hlt
    have hsmall : c.toNat < 32 := UInt8.lt_iff_toNat_lt.mp hlt
    refine ⟨hdigits, .inl (by omega), rfl, ?_⟩
    rw [Piece.decoded, hunit, ascii_character (UInt8.lt_trans hlt (by decide))]
  rename_i hquote hslash _ _ _ hlt
  exact ⟨⟨UInt8.not_lt.mp hlt, hquote, hslash⟩, trivial, rfl, rfl⟩

theorem escape_eq (text : Text) : escape text = quoted (text.map piece_of) := by
  unfold escape quoted
  rw [flatMap_map]
  congr 3
  exact funext fun c => (piece_of_spec c).2.2.1.symm

theorem decoded_pieces (text : Text) : decoded (text.map piece_of) = text := by
  induction text with
  | nil => rfl
  | cons c text ih =>
    unfold decoded at ih ⊢
    rw [map_cons, flatMap_cons, ih, (piece_of_spec c).2.2.2]
    rfl

theorem read_pieces (text : Text) : ReadPieces (text.map piece_of) :=
  ⟨forall_mem_map.mpr fun c _ => (piece_of_spec c).1, forall_mem_map.mpr fun c _ => (piece_of_spec c).2.1⟩

/-! ## Lines -/

theorem space_indentation (n : Nat) : Space (indentation n) := fun _ hc => .inl (eq_of_mem_replicate hc)

theorem space_line : Space (text_of "\r\n") := space_of_all rfl

/-- The parts between the brackets, each on a line of its own. -/
theorem lines_separated {α : Type} {Part : α → Text → Prop} {as : List α} {texts : List Text} {indent tail : Text}
    (h : List.Forall₂ Part as texts) (hsome : as ≠ []) (hindent : Space indent) (htail : Space tail) :
    Separated Part as (text_of "\r\n" ++ lines indent texts ++ tail) := by
  induction h with
  | nil => exact absurd rfl hsome
  | @cons a part as texts ha hrest ih =>
    have hbefore : Space (text_of "\r\n" ++ indent) := space_append space_line hindent
    cases hrest with
    | nil =>
      have hone := Separated.last hbefore ha (space_append space_line htail)
      have hsame : text_of "\r\n" ++ lines indent [part] ++ tail = text_of "\r\n" ++ indent ++ part ++ (text_of "\r\n" ++ tail) := by
        unfold lines lines
        rw [if_pos rfl]
        simp only [append_assoc, nil_append]
      rwa [hsame]
    | @cons b second bs more hb hmore =>
      have hlater := ih (cons_ne_nil _ _)
      have hone := Separated.more hbefore ha space_nil hlater
      have hcomma : text_of ",\r\n" = 44 :: text_of "\r\n" := rfl
      have hsame : text_of "\r\n" ++ lines indent (part :: second :: more) ++ tail =
          text_of "\r\n" ++ indent ++ part ++ [] ++ 44 :: (text_of "\r\n" ++ lines indent (second :: more) ++ tail) := by
        rw [lines, if_neg (cons_ne_nil _ _), hcomma]
        simp only [append_assoc, nil_append, cons_append]
      rwa [hsame]

/-! ## Values -/

/-- The text is that of a tree which the reader accepts and which assigns the value. -/
def Stands (host : Host δ) (n : Nat) (v : Value δ) (text : Text) : Prop :=
  ∃ tree, Spelled n tree text ∧ assigned host.strtod tree = v

theorem write_items_eq (items : List (Value δ)) (depth : Nat) :
    write_items system items depth = items.map fun item => write system item depth := by
  induction items with
  | nil => rfl
  | cons item items ih => rw [write_items, ih, map_cons]

theorem write_members_eq (members : List (Text × Value δ)) (depth : Nat) :
    write_members system members depth =
      members.map fun member => escape member.1 ++ text_of ": " ++ write system member.2 depth := by
  induction members with
  | nil => rfl
  | cons member members ih =>
    rw [write_members, ih, map_cons]

/-- Trees for all, one by one. -/
theorem trees_of {α β : Type} {f : α → β} {Part : α → Text → Prop} {bs : List β} {part : β → Text}
    (h : ∀ b ∈ bs, ∃ a, Part a (part b) ∧ f a = b) : ∃ as, List.Forall₂ Part as (bs.map part) ∧ as.map f = bs := by
  induction bs with
  | nil => exact ⟨[], .nil, rfl⟩
  | cons b bs ih =>
    obtain ⟨a, ha, hb⟩ := h b (.head _)
    obtain ⟨as, has, hbs⟩ := ih fun b hb => h b (.tail _ hb)
    exact ⟨a :: as, .cons ha has, by rw [map_cons, hb, hbs]⟩

variable {members start : List (Text × Value δ)} {items : List (Value δ)} {depth n : Nat}
variable {key token : Text} {v value : Value δ}

theorem array_stands (h : ∀ item ∈ items, Stands host n item (write system item (depth + 1))) :
    Stands host (n + 1) (.array items) (write system (.array items) depth) := by
  have hbare (trees : List Tree) : Lawful (.array trees) := ⟨trivial, nofun, trivial, nofun⟩
  rw [write]
  cases items with
  | nil =>
    exact ⟨.array [], ⟨.empty_array space_nil, .container nofun, .node (hbare []) nofun⟩, rfl⟩
  | cons item items =>
    obtain ⟨trees, htrees, hassigned⟩ := trees_of h
    have hsome : trees ≠ [] := by
      rintro rfl
      cases hassigned
    have hparts := lines_separated htrees hsome (space_indentation (2 * (depth + 1))) (space_indentation (2 * depth))
    refine ⟨.array trees, ⟨?_, .container (hparts.forall fun _ _ ht => ht.nested),
      .node (hbare trees) (hparts.forall fun _ _ ht => ht.lawful)⟩, by rw [assigned, assigned_items_eq, hassigned]⟩
    have hvalue := json_grammar.Value.array (hparts.imp fun _ _ ht => ht.spelling)
    rw [write_items_eq]
    refine Eq.mp (congrArg _ ?_) hvalue
    simp [text_of, append_assoc]

theorem member_stands {member : Text × Value δ} (hname : Utf8 member.1)
    (h : Stands host n member.2 (write system member.2 depth)) :
    ∃ part, SpelledMember n part (escape member.1 ++ text_of ": " ++ write system member.2 depth) ∧
      assigned_member host.strtod part = member := by
  obtain ⟨tree, htree, hassigned⟩ := h
  have hpieces := read_pieces member.1
  have hblank : Space (text_of " ") := space_of_all rfl
  refine ⟨(member.1.map piece_of, tree), ⟨?_, htree.nested, htree.lawful, hpieces.paired, ?_⟩, ?_⟩
  · have hmember := Member.named hpieces.formed space_nil hblank htree.spelling
    have hcolon : text_of ": " = 58 :: text_of " " := rfl
    rw [escape_eq, hcolon]
    simpa only [append_assoc, nil_append, cons_append] using hmember
  · rw [decoded_pieces]
    exact hname
  · unfold assigned_member
    rw [decoded_pieces, hassigned]

theorem object_stands (hkeys : KeysApart members) (hnames : ∀ member ∈ members, Utf8 member.1)
    (h : ∀ member ∈ members, Stands host n member.2 (write system member.2 (depth + 1))) :
    Stands host (n + 1) (.object members) (write system (.object members) depth) := by
  rw [write]
  cases members with
  | nil =>
    exact ⟨.object [], ⟨.empty_object space_nil, .container nofun,
      .node ⟨nodup_nil, nofun, trivial, nofun⟩ nofun⟩, rfl⟩
  | cons member members =>
    obtain ⟨trees, htrees, hassigned⟩ := trees_of fun member hmember => member_stands (hnames member hmember) (h member hmember)
    have hsome : trees ≠ [] := by
      rintro rfl
      cases hassigned
    have hparts := lines_separated htrees hsome (space_indentation (2 * (depth + 1))) (space_indentation (2 * depth))
    have hunique : (Tree.object trees).UniqueKeys := by
      rw [← hassigned] at hkeys
      unfold KeysApart at hkeys
      rwa [map_map] at hkeys
    refine ⟨.object trees, ⟨?_, .container (forall_mem_map.mpr (hparts.forall fun _ _ ht => ht.nested)),
      .node ⟨hunique, forall_mem_map.mpr (hparts.forall fun _ _ ht => ht.paired), trivial,
        forall_mem_map.mpr (hparts.forall fun _ _ ht => ht.utf8)⟩
        (forall_mem_map.mpr (hparts.forall fun _ _ ht => ht.lawful))⟩, by rw [assigned, assigned_members_eq, hassigned]⟩
    have hvalue := json_grammar.Value.object (hparts.imp fun _ _ ht => ht.spelling)
    rw [write_members_eq]
    refine Eq.mp (congrArg _ ?_) hvalue
    simp [text_of, append_assoc]

theorem number_ne_nil (h : Number token) : token ≠ [] := by
  obtain ⟨c, later, rfl, -⟩ := number_head h
  exact cons_ne_nil _ _

theorem scalar_stands (hscalar : is_container v = false) (h : Readable host v) :
    Stands host n v (write system v depth) := by
  cases h with
  | null => exact ⟨.null, ⟨.null, .leaf rfl, lawful_word ⟨trivial, trivial⟩ rfl rfl⟩, rfl⟩
  | bool b =>
    cases b with
    | true => exact ⟨.bool true, ⟨.true, .leaf rfl, lawful_word ⟨trivial, trivial⟩ rfl rfl⟩, rfl⟩
    | false => exact ⟨.bool false, ⟨.false, .leaf rfl, lawful_word ⟨trivial, trivial⟩ rfl rfl⟩, rfl⟩
  | @number token h hrange =>
    rw [write, if_neg (number_ne_nil h)]
    exact ⟨.number token, ⟨.number h, .leaf rfl, lawful_word ⟨trivial, hrange⟩ rfl rfl⟩, rfl⟩
  | @string text h =>
    have hpieces := read_pieces text
    rw [write, escape_eq]
    refine ⟨.string (text.map piece_of), ⟨.string hpieces.formed, .leaf rfl, .node ⟨trivial, ?_, trivial, ?_⟩ ?_⟩, ?_⟩
    · exact forall_mem_singleton.mpr hpieces.paired
    · exact forall_mem_singleton.mpr (by rwa [decoded_pieces])
    · exact nofun
    · rw [assigned, decoded_pieces]
  | array h => cases hscalar
  | object hkeys hnames h => cases hscalar

/-- What is written of a value that can be read is a spelling of it. -/
theorem value_stands (hnested : NestedWithin n v) (h : Readable host v) (depth : Nat) :
    Stands host n v (write system v depth) := by
  induction hnested generalizing depth with
  | scalar hscalar => exact scalar_stands hscalar h
  | array _ ih =>
    cases h with
    | array h => exact array_stands fun item hitem => ih item hitem (h item hitem) _
  | object _ ih =>
    cases h with
    | object hkeys hnames h => exact object_stands hkeys hnames fun member hmember => ih member hmember (h member hmember) _

theorem parse_serialize (hhost : Documented host) (hnested : NestedWithin MaxDepth v) (h : Readable host v)
    (hshort : (serialize system v).length < 0x80000000) (out : Value δ) :
    parse host (serialize system v) out = some (true, v) := by
  have hstands : Stands host MaxDepth v (write system v 0) := value_stands hnested h 0
  obtain ⟨tree, htree, rfl⟩ := hstands
  have hjson : JsonText tree (serialize system (assigned host.strtod tree)) :=
    ⟨[], _, _, space_nil, htree.spelling, space_line, rfl⟩
  obtain ⟨hkeys, hsurrogates, hnumbers, hstrings⟩ := everywhere_lawful.mp htree.lawful
  have hutf8 : Utf8 (serialize system (assigned host.strtod tree)) := by
    unfold serialize
    rw [utf8_append_ascii space_line.ascii]
    exact (utf8_value htree.nested htree.spelling).mpr hstrings
  have haccepted : Accepted (serialize system (assigned host.strtod tree)) tree :=
    ⟨hutf8, hjson, htree.nested, hkeys, hsurrogates, hnumbers⟩
  exact parse_marked hhost (.inl rfl) haccepted hshort out

/-! ## Values that setup makes -/

/-- What is promised of the functions that the writer calls: what UTF-16 becomes is UTF-8, and a
whole number converts to what its digits read as. -/
structure Converts (host : Host δ) (system : Conversions δ) : Prop where
  narrowed : ∀ text, text ≠ [] → Utf8 (system.wide_char_to_multi_byte text)
  converted : ∀ value : Int64, system.to_double value = host.strtod (to_string value.toInt)

/-- A value that the functions of the writer make, or that the reader gave. -/
inductive Built (host : Host δ) (system : Conversions δ) : Value δ → Prop
  | text (value : Wide) : Built host system (text system value)
  | text_or_null (value : Wide) : Built host system (text_or_null system value)
  | boolean (value : Bool) : Built host system (boolean value)
  | number (value : Int64) : Built host system (number system value)
  | array : Built host system array
  | pushed {items : List (Value δ)} {item : Value δ} (h : Built host system (.array items)) (hitem : Built host system item) :
      Built host system (.array (items ++ [item]))
  | object : Built host system object
  | set {members : List (Text × Value δ)} {key : Text} {value : Value δ} (h : Built host system (.object members))
      (hkey : Utf8 key) (hvalue : Built host system value) : Built host system (.object (set members key value))
  | parsed {text : Text} {value out : Value δ} (hshort : text.length < 0x80000000)
      (h : parse host text out = some (true, value)) : Built host system value

theorem readable_text (hsystem : Converts host system) (value : Wide) : Readable host (text system value) := by
  unfold text narrow
  split
  · exact .string utf8_nil
  rename_i hsome
  exact .string (hsystem.narrowed value hsome)

theorem readable_text_or_null (hsystem : Converts host system) (value : Wide) :
    Readable host (text_or_null system value) := by
  unfold text_or_null
  split
  · exact .null
  · exact readable_text hsystem value

/-! ### Numbers -/

theorem digits_print (n : Nat) : Digits (decimal.print n) := by
  refine ⟨decimal.print_ne_nil n, fun c hc => ?_⟩
  have := decimal.print_digits n c hc
  unfold json_grammar.is_digit
  rw [Bool.and_eq_true, decide_eq_true_eq, decide_eq_true_eq]
  exact of_decide_eq_true this

/-- Only zero is printed with a zero in front. -/
theorem print_head {fuel : Nat} (hn : 0 < n) (hfuel : n < fuel) : (decimal.print_with fuel n).head? ≠ some 48 := by
  induction fuel generalizing n with
  | zero => cases hfuel
  | succ fuel ih =>
    rw [decimal.print_with]
    split
    · rename_i hlt
      have hdigit := decimal.digit_toNat hlt
      intro h
      rw [Option.some.inj h] at hdigit
      change 48 = 48 + n at hdigit
      omega
    rename_i hge
    have hhead := ih (n := n / 10) (by omega) (by omega)
    cases hrest : decimal.print_with fuel (n / 10) with
    | nil =>
      cases fuel with
      | zero => omega
      | succ fuel =>
        rw [decimal.print_with] at hrest
        split at hrest
        · cases hrest
        · exact absurd hrest (by simp)
    | cons d later =>
      rw [hrest] at hhead
      exact hhead

theorem integer_print (n : Nat) : Integer (decimal.print n) := by
  by_cases hzero : n = 0
  · subst hzero
    exact .zero
  have hdigits := digits_print n
  have hhead : (decimal.print n).head? ≠ some 48 := print_head (by omega) (Nat.lt_succ_self n)
  cases hprint : decimal.print n with
  | nil => exact absurd hprint hdigits.1
  | cons d later =>
    rw [hprint] at hdigits hhead
    exact .digits hdigits fun hd => hhead (by rw [hd]; rfl)

theorem number_to_string (n : Int) : Number (to_string n) := by
  unfold to_string
  split
  · have := Number.parts .present (integer_print n.natAbs) .absent .absent
    simpa only [append_nil, singleton_append] using this
  have := Number.parts .absent (integer_print n.natAbs) .absent .absent
  simpa only [append_nil, nil_append] using this

/-- The digits of a number, with a minus in front or not, are all that counts of it. -/
theorem numeral_print (n : Nat) : numeral (decimal.print n) = n ∧ numeral (45 :: decimal.print n) = n := by
  have hall : (decimal.print n).filter json_grammar.is_digit = decimal.print n :=
    filter_eq_self.mpr (digits_print n).2
  have hvalue : (decimal.print n).foldl (fun n d => n * 10 + (d.toNat - 48)) 0 = n := by
    have := decimal.value_print n
    unfold decimal.value at this
    simpa only [Nat.mul_comm] using this
  have hminus : (45 :: decimal.print n).filter json_grammar.is_digit = (decimal.print n).filter json_grammar.is_digit := rfl
  unfold numeral
  rw [hminus, hall]
  exact ⟨hvalue, hvalue⟩

theorem takes_all {p : UInt8 → Bool} {text : Text} (h : ∀ c ∈ text, p c = true) :
    text.takeWhile p = text ∧ text.dropWhile p = [] := by
  have htake : (text ++ []).takeWhile p = text ++ [].takeWhile p := takeWhile_append_of_pos h
  have hdrop : (text ++ []).dropWhile p = [].dropWhile p := dropWhile_append_of_pos h
  rw [append_nil] at htake hdrop
  exact ⟨htake.trans (append_nil _), hdrop⟩

/-- A token with neither a point nor an exponent is the number that its digits are. -/
theorem in_range_plain (h : ∀ c ∈ token, (c ≠ 101 ∧ c ≠ 69) ∧ c ≠ 46) :
    in_range token = decide (numeral token < beyond_doubles) := by
  have hexponent : token.takeWhile (fun c => c ≠ 101 && c ≠ 69) = token ∧ token.dropWhile (fun c => c ≠ 101 && c ≠ 69) = [] :=
    takes_all fun c hc => by simp [(h c hc).1]
  have hpoint : token.takeWhile (· ≠ 46) = token ∧ token.dropWhile (· ≠ 46) = [] :=
    takes_all fun c hc => by simp [(h c hc).2]
  have hmoved : json_grammar.exponent token - fraction_length token = 0 := by
    unfold json_grammar.exponent fraction_length
    rw [hexponent.2, hpoint.2]
    rfl
  have hone : Nat.pow 10 (0 : Int).toNat = 1 ∧ Nat.pow 10 (-(0 : Int)).toNat = 1 := ⟨rfl, rfl⟩
  unfold in_range mantissa
  simp only [hmoved, hexponent.1, hone.1, hone.2, Nat.mul_one]

theorem in_range_to_string (value : Int64) : in_range (to_string value.toInt) := by
  have hsmall : value.toInt.natAbs < 0x10000000000000000 := by
    have := value.toInt_lt
    have := value.le_toInt
    omega
  have hdigit (c : UInt8) (hc : c ∈ decimal.print value.toInt.natAbs) : (c ≠ 101 ∧ c ≠ 69) ∧ c ≠ 46 := by
    have hc := (digits_print _).2 c hc
    exact ⟨⟨digit_ne hc (by decide), digit_ne hc (by decide)⟩, digit_ne hc (by decide)⟩
  have hplain : ∀ c ∈ to_string value.toInt, (c ≠ 101 ∧ c ≠ 69) ∧ c ≠ 46 := by
    unfold to_string
    split
    · exact forall_mem_cons.mpr ⟨by decide, hdigit⟩
    · exact hdigit
  have hnumeral : numeral (to_string value.toInt) = value.toInt.natAbs := by
    unfold to_string
    split
    · exact (numeral_print _).2
    · exact (numeral_print _).1
  have hgreat : 0x10000000000000000 ≤ beyond_doubles := by decide +kernel
  rw [in_range_plain hplain, hnumeral, decide_eq_true_eq]
  exact Nat.lt_of_lt_of_le hsmall hgreat

/-! ### Members -/

/-- Setting a member keeps the keys where they are, or adds one that was not there. -/
theorem keys_of_set (members : List (Text × Value δ)) (key : Text) (value : Value δ) :
    (set members key value).map Prod.fst = members.map Prod.fst ∨
      key ∉ members.map Prod.fst ∧ (set members key value).map Prod.fst = members.map Prod.fst ++ [key] := by
  induction members with
  | nil => exact .inr ⟨not_mem_nil, rfl⟩
  | cons member members ih =>
    unfold set
    split
    · exact .inl rfl
    rename_i hne
    rcases ih with ih | ⟨hfresh, ih⟩
    · exact .inl (by rw [map_cons, map_cons, ih])
    refine .inr ⟨?_, by rw [map_cons, map_cons, ih, cons_append]⟩
    rw [map_cons, mem_cons, not_or]
    exact ⟨fun h => hne h.symm, hfresh⟩

theorem keys_set (h : KeysApart members) : KeysApart (set members key value) := by
  unfold KeysApart at h ⊢
  rcases keys_of_set members key value with hkeys | ⟨hfresh, hkeys⟩
  · rwa [hkeys]
  rw [hkeys, nodup_append]
  refine ⟨h, pairwise_singleton _ _, fun a ha b hb => ?_⟩
  rw [mem_singleton.mp hb]
  rintro rfl
  exact hfresh ha

/-- What holds of the members holds after one is set, if it holds of what is set. -/
theorem forall_set {P : Text × Value δ → Prop}
    (hall : ∀ member ∈ members, P member) (hplace : ∀ member ∈ members, member.1 = key → P (member.1, value))
    (hlast : P (key, value)) : ∀ member ∈ set members key value, P member := by
  induction members with
  | nil => exact forall_mem_singleton.mpr hlast
  | cons member members ih =>
    rw [forall_mem_cons] at hall
    unfold set
    split
    · rename_i heq
      exact forall_mem_cons.mpr ⟨hplace member (.head _) heq, hall.2⟩
    · exact forall_mem_cons.mpr ⟨hall.1, ih hall.2 fun member hmember => hplace member (.tail _ hmember)⟩

theorem readable_set (h : Readable host (.object members))
    (hkey : Utf8 key) (hvalue : Readable host value) : Readable host (.object (set members key value)) := by
  cases h with
  | object hkeys hnames h =>
    exact .object (keys_set hkeys) (forall_set hnames (fun member hmember _ => hnames member hmember) hkey)
      (forall_set h (fun _ _ _ => hvalue) hvalue)

/-- What a tree assigns that the reader accepts can be read, and is nested as the tree is. -/
theorem readable_assigned {tree : Tree} {inner : Text} (hnested : tree.NestedWithin n)
    (hvalue : json_grammar.Value tree inner) (hlawful : tree.Everywhere Lawful) :
    Readable host (assigned host.strtod tree) ∧ NestedWithin n (assigned host.strtod tree) := by
  have hleaf {n : Nat} {tree : Tree} {inner : Text} (hleaf : tree.is_container = false)
      (hvalue : json_grammar.Value tree inner) (hlawful : tree.Everywhere Lawful) :
      Readable host (assigned host.strtod tree) ∧ NestedWithin n (assigned host.strtod tree) := by
    obtain ⟨-, -, hrange, hutf8⟩ := hlawful.here
    cases hvalue with
    | null => exact ⟨.null, .scalar rfl⟩
    | true => exact ⟨.bool true, .scalar rfl⟩
    | false => exact ⟨.bool false, .scalar rfl⟩
    | number h => exact ⟨.number h hrange, .scalar rfl⟩
    | string h => exact ⟨.string (hutf8 _ (.head _)), .scalar rfl⟩
    | empty_array | array | empty_object | object => cases hleaf
  induction hnested generalizing inner with
  | leaf h => exact hleaf h hvalue hlawful
  | @container n tree _ ih =>
    cases hcontainer : tree.is_container with
    | false => exact hleaf hcontainer hvalue hlawful
    | true =>
      have harray {items : List Tree} (h : ∀ item ∈ items, Readable host (assigned host.strtod item) ∧
          NestedWithin n (assigned host.strtod item)) :
          Readable host (assigned host.strtod (.array items)) ∧ NestedWithin (n + 1) (assigned host.strtod (.array items)) := by
        rw [assigned, assigned_items_eq]
        exact ⟨.array (forall_mem_map.mpr fun item hitem => (h item hitem).1),
          .array (forall_mem_map.mpr fun item hitem => (h item hitem).2)⟩
      have hobject {members : List (List Piece × Tree)} (hlawful : (Tree.object members).Everywhere Lawful)
          (h : ∀ member ∈ members, Readable host (assigned host.strtod member.2) ∧
            NestedWithin n (assigned host.strtod member.2)) :
          Readable host (assigned host.strtod (.object members)) ∧
            NestedWithin (n + 1) (assigned host.strtod (.object members)) := by
        obtain ⟨hunique, -, -, hutf8⟩ := hlawful.here
        have hkeys : KeysApart (members.map (assigned_member host.strtod)) := by
          unfold KeysApart
          rw [map_map]
          exact hunique
        rw [assigned, assigned_members_eq]
        refine ⟨.object hkeys (forall_mem_map.mpr fun member hmember => ?_)
          (forall_mem_map.mpr fun member hmember => (h member hmember).1),
          .object (forall_mem_map.mpr fun member hmember => (h member hmember).2)⟩
        exact hutf8 member.1 (mem_map_of_mem hmember)
      cases hvalue with
      | null | true | false | number | string => cases hcontainer
      | empty_array _ => exact harray (forall_mem_nil _)
      | empty_object _ => exact hobject hlawful (forall_mem_nil _)
      | @array items _ h =>
        have hparts : ∀ item ∈ items, ∃ inner, json_grammar.Value item inner := h.forall fun _ inner hvalue => ⟨inner, hvalue⟩
        refine harray fun item hitem => ?_
        obtain ⟨inner, hvalue⟩ := hparts item hitem
        exact ih item hitem hvalue (hlawful.child hitem)
      | @object members _ h =>
        have hparts : ∀ member ∈ members, ∃ inner, json_grammar.Value member.2 inner := h.forall fun member _ hmember => by
          cases hmember with
          | named _ _ _ hvalue => exact ⟨_, hvalue⟩
        refine hobject hlawful fun member hmember => ?_
        obtain ⟨inner, hvalue⟩ := hparts member hmember
        exact ih member.2 (mem_map_of_mem hmember) hvalue (hlawful.child (mem_map_of_mem hmember))

theorem built_readable (hhost : Documented host) (hsystem : Converts host system) (h : Built host system v) :
    Readable host v := by
  induction h with
  | text value => exact readable_text hsystem value
  | text_or_null value => exact readable_text_or_null hsystem value
  | boolean value => exact .bool value
  | number value =>
    unfold number
    rw [hsystem.converted]
    exact .number (number_to_string _) (in_range_to_string value)
  | array => exact .array (forall_mem_nil _)
  | pushed _ _ hitems hitem =>
    cases hitems with
    | array h =>
      refine .array fun other hother => ?_
      rcases mem_append.mp hother with hother | hother
      · exact h other hother
      rw [mem_singleton.mp hother]
      exact hitem
  | object => exact .object nodup_nil (forall_mem_nil _) (forall_mem_nil _)
  | set _ hkey _ hmembers hvalue => exact readable_set hmembers hkey hvalue
  | parsed hshort h =>
    obtain ⟨mark, body, tree, -, -, haccepted, rfl⟩ := parse_accepted hhost hshort h
    obtain ⟨before, inner, after, -, hvalue, -, -⟩ := haccepted.spelling
    have hstrings : tree.Everywhere Tree.Utf8Strings := by
      obtain ⟨before, inner, after, hbefore, hvalue, hafter, rfl⟩ := haccepted.spelling
      have hutf8 := haccepted.utf8
      rwa [utf8_padded hbefore hafter, utf8_value haccepted.depth hvalue] at hutf8
    exact (readable_assigned haccepted.depth hvalue
      (everywhere_lawful.mpr ⟨haccepted.keys, haccepted.surrogates, haccepted.numbers, hstrings⟩)).1

/-! ## The record of the installation -/

theorem built_members (h : ∀ member ∈ members, Utf8 member.1 ∧ Built host system member.2) (hstart : Built host system (.object start)) :
    Built host system (.object (members.foldl (fun members member => set members member.1 member.2) start)) := by
  induction members generalizing start with
  | nil => exact hstart
  | cons member members ih =>
    obtain ⟨hkey, hvalue⟩ := h member (.head _)
    exact ih (fun member hmember => h member (.tail _ hmember)) (.set hstart hkey hvalue)

theorem built_array (h : ∀ item ∈ items, Built host system item) {start : List (Value δ)}
    (hstart : Built host system (.array start)) : Built host system (.array (start ++ items)) := by
  induction items generalizing start with
  | nil => rwa [append_nil]
  | cons item items ih =>
    have := ih (fun item hitem => h item (.tail _ hitem)) (.pushed hstart (h item (.head _)))
    rwa [append_assoc] at this

theorem nested_members (h : ∀ member ∈ members, NestedWithin n member.2) (hstart : ∀ member ∈ start, NestedWithin n member.2) :
    ∀ member ∈ members.foldl (fun members member => set members member.1 member.2) start, NestedWithin n member.2 := by
  induction members generalizing start with
  | nil => exact hstart
  | cons member members ih =>
    have hvalue := h member (.head _)
    exact ih (fun member hmember => h member (.tail _ hmember)) (forall_set hstart (fun _ _ _ => hvalue) hvalue)

/-- A property of every member of the record follows from that of each kind of value in it. -/
theorem forall_installation {P : Value δ → Prop} (i : Installation) (htext : ∀ value, P (text system value))
    (hnull : ∀ value, P (text_or_null system value)) (hnumber : ∀ value, P (number system value))
    (hboolean : ∀ value, P (boolean value)) (hpaths : P (.array (i.startup_paths.map (text system)))) :
    ∀ member ∈ installation_members system i, Utf8 member.1 ∧ P member.2 := by
  have hnames : (((installation_members system i).map Prod.fst).all fun name => name.all fun c => c < 0x80) = true := by
    simp only [installation_members, map_cons, map_nil]
    decide
  refine fun member hmember => ⟨utf8_of_ascii (ascii_of_all (all_eq_true.mp hnames _ (mem_map_of_mem hmember))), ?_⟩
  revert member
  simp only [installation_members, forall_mem_cons]
  exact ⟨htext _, hnumber _, htext _, htext _, htext _, hnull _, hnull _, hnull _, htext _, htext _, hpaths, htext _, htext _,
    hboolean _, htext _, forall_mem_nil _⟩

theorem nested_text (n : Nat) (value : Wide) : NestedWithin n (text system value) := .scalar rfl

theorem nested_text_or_null (n : Nat) (value : Wide) : NestedWithin n (text_or_null system value) := by
  unfold text_or_null
  split
  · exact .scalar rfl
  · exact nested_text n value

theorem built_installation (i : Installation) : Built host system (installation_record system i) := by
  refine built_members (forall_installation i .text .text_or_null .number .boolean ?_) .object
  have hpaths : ∀ item ∈ i.startup_paths.map (text system), Built host system item :=
    forall_mem_map.mpr fun path _ => .text path
  exact built_array hpaths .array

theorem nested_installation (n : Nat) (i : Installation) : NestedWithin (n + 2) (installation_record system i) := by
  refine .object (nested_members (fun member hmember => ?_) (forall_mem_nil _))
  refine (forall_installation i (nested_text (n + 1)) (nested_text_or_null (n + 1)) (fun _ => .scalar rfl)
    (fun _ => .scalar rfl) (.array ?_) member hmember).2
  exact forall_mem_map.mpr fun path _ => nested_text n path

/-- Every unit a character of its own, and numbers that are their tokens. -/
def plain_conversions : Conversions Text where
  wide_char_to_multi_byte := fun text => text.flatMap fun unit => String.utf8EncodeChar (Char.ofNat unit.toNat)
  to_double := fun value => to_string value.toInt
  print_double := fun number => number

theorem plain_conversions_convert : Converts plain_host plain_conversions :=
  ⟨fun text _ => ⟨text.map fun unit => Char.ofNat unit.toNat, by rw [flatMap_map]; rfl⟩, fun _ => rfl⟩

end taxi_camera.setup.json_out
