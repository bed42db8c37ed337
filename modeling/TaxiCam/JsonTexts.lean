-- Where the bytes of a text of JSON that are not ASCII stand: in its strings. The text is
-- UTF-8 if and only if what each of its strings stands for is.
import TaxiCam.JsonGrammar

namespace json_grammar

open utf8_texts List

/-! ## ASCII -/

variable {pieces : List Piece} {text : Text} {tree : Tree} {c : UInt8}

theorem ascii_of_hex_digit (h : HexDigit c) : c < 0x80 := by
  simp only [HexDigit, UInt8.le_iff_toNat_le, UInt8.lt_iff_toNat_lt] at h ⊢
  change _ < 128
  have : (57 : UInt8).toNat = 57 := rfl
  have : (70 : UInt8).toNat = 70 := rfl
  have : (102 : UInt8).toNat = 102 := rfl
  omega

theorem ascii_of_digit (h : is_digit c) : c < 0x80 := by
  simp only [is_digit, Bool.and_eq_true, decide_eq_true_eq] at h
  exact ascii_of_hex_digit (.inl h)

theorem ascii_four_digits {digits : Text} (h : FourDigits digits) : Ascii digits := fun d hd =>
  ascii_of_hex_digit (h.2 d hd)

theorem Space.ascii (h : Space text) : Ascii text := by
  intro c hc
  rcases h c hc with rfl | rfl | rfl | rfl <;> decide

theorem Digits.ascii (h : Digits text) : Ascii text := fun c hc => ascii_of_digit (h.2 c hc)

theorem ascii_append {a b : Text} (ha : Ascii a) (hb : Ascii b) : Ascii (a ++ b) := by
  intro c hc
  rcases mem_append.mp hc with hc | hc
  · exact ha c hc
  · exact hb c hc

theorem ascii_cons {a : Text} (hc : c < 0x80) (ha : Ascii a) : Ascii (c :: a) := by
  intro d hd
  rcases mem_cons.mp hd with rfl | hd
  · exact hc
  · exact ha d hd

theorem ascii_nil : Ascii [] := nofun

theorem Number.ascii {token : Text} (h : Number token) : Ascii token := by
  cases h with
  | parts hminus hinteger hfraction hexponent =>
    refine ascii_append (ascii_append (ascii_append ?_ ?_) ?_) ?_
    · cases hminus with
      | absent => exact ascii_nil
      | present => exact ascii_cons (by decide) ascii_nil
    · cases hinteger with
      | zero => exact ascii_cons (by decide) ascii_nil
      | digits h _ => exact h.ascii
    · cases hfraction with
      | absent => exact ascii_nil
      | present h => exact ascii_cons (by decide) h.ascii
    · cases hexponent with
      | absent => exact ascii_nil
      | present he hsign h =>
        refine ascii_cons ?_ (ascii_append ?_ h.ascii)
        · rcases he with rfl | rfl <;> decide
        · rcases hsign with rfl | rfl | rfl
          · exact ascii_nil
          · exact ascii_cons (by decide) ascii_nil
          · exact ascii_cons (by decide) ascii_nil

/-! ## Strings -/

theorem escapes_ascii {e : UInt8} (h : (e, c) ∈ escapes) : e < 0x80 ∧ (escapes.lookup e).getD 0 < 0x80 := by
  have hall : (escapes.all fun row => row.1 < 0x80 && (escapes.lookup row.1).getD 0 < 0x80) = true := by decide
  have := all_eq_true.mp hall _ h
  rwa [Bool.and_eq_true, decide_eq_true_eq, decide_eq_true_eq] at this

/-- A piece that is not a byte that stands for itself is apart, spelled and decoded. -/
theorem apart_piece {p : Piece} (hp : p.WellFormed) (hplain : ∀ c, p ≠ .plain c) : Apart p.spelled ∧ Apart p.decoded := by
  cases p with
  | plain c => exact absurd rfl (hplain c)
  | escaped e =>
    obtain ⟨c, hc⟩ := hp
    obtain ⟨he, hdecoded⟩ := escapes_ascii hc
    exact ⟨apart_ascii (ascii_cons (by decide) (ascii_cons he ascii_nil)) (cons_ne_nil _ _),
      apart_ascii (ascii_cons hdecoded ascii_nil) (cons_ne_nil _ _)⟩
  | code digits =>
    exact ⟨apart_ascii (ascii_cons (by decide) (ascii_cons (by decide) (ascii_four_digits hp))) (cons_ne_nil _ _),
      apart_character _⟩
  | pair high low =>
    have hescape {digits : Text} (h : FourDigits digits) : Ascii (92 :: 117 :: digits) :=
      ascii_cons (by decide) (ascii_cons (by decide) (ascii_four_digits h))
    refine ⟨apart_ascii (ascii_append (hescape hp.1) (hescape hp.2)) (cons_ne_nil _ _), ?_⟩
    rw [Piece.decoded]
    exact apart_character _

/-- Behind the same bytes, the spelled pieces are UTF-8 if and only if the decoded ones are. -/
theorem utf8_pieces (h : ∀ p ∈ pieces, p.WellFormed) (before : Text) :
    Utf8 (before ++ pieces.flatMap Piece.spelled) ↔ Utf8 (before ++ decoded pieces) := by
  induction pieces generalizing before with
  | nil => rfl
  | cons p pieces ih =>
    rw [decoded, flatMap_cons, flatMap_cons]
    have hlater := ih fun q hq => h q (.tail _ hq)
    by_cases hplain : ∃ c, p = .plain c
    · obtain ⟨c, rfl⟩ := hplain
      have := hlater (before ++ [c])
      rwa [append_assoc, append_assoc] at this
    obtain ⟨hspelled, hdecoded⟩ := apart_piece (h p (.head _)) fun c hc => hplain ⟨c, hc⟩
    rw [utf8_cut (hspelled _).1, utf8_cut (hdecoded _).1, (hspelled _).2, (hdecoded _).2]
    exact and_congr_right fun _ => hlater []

theorem utf8_quoted (h : ∀ p ∈ pieces, p.WellFormed) : Utf8 (quoted pieces) ↔ Utf8 (decoded pieces) := by
  rw [quoted, cons_append, utf8_ascii (by decide), utf8_append_ascii (ascii_cons (by decide) ascii_nil)]
  exact utf8_pieces h []

/-! ## Values -/

variable {α : Type} {Part : α → Text → Prop}

theorem utf8_padded {before after : Text} (hbefore : Space before) (hafter : Space after) :
    Utf8 (before ++ text ++ after) ↔ Utf8 text := by
  rw [utf8_append_ascii hafter.ascii, utf8_ascii_append hbefore.ascii]

theorem utf8_separated {Q : α → Prop} {as : List α}
    (hpart : ∀ a ∈ as, ∀ text, Part a text → (Utf8 text ↔ Q a)) (h : Separated Part as text) :
    Utf8 text ↔ ∀ a ∈ as, Q a := by
  induction h with
  | last hbefore h hafter =>
    rw [utf8_padded hbefore hafter, hpart _ (.head _) _ h, forall_mem_singleton]
  | more hbefore h hafter _ ih =>
    rw [utf8_cut (starts_of_ascii (by decide)), utf8_ascii (by decide), utf8_padded hbefore hafter,
      hpart _ (.head _) _ h, ih fun a ha => hpart a (.tail _ ha), forall_mem_cons]

theorem utf8_member {Q : α → Prop} {member : List Piece × α}
    (hpart : ∀ text, Part member.2 text → (Utf8 text ↔ Q member.2)) (h : Member Part member text) :
    Utf8 text ↔ Utf8 (decoded member.1) ∧ Q member.2 := by
  cases h with
  | named hpieces hbefore hafter h =>
    rw [utf8_cut (starts_of_ascii (by decide)), utf8_ascii (by decide), utf8_append_ascii hbefore.ascii,
      utf8_ascii_append hafter.ascii, utf8_quoted hpieces, hpart _ h]

theorem utf8_between {left right : UInt8} (hleft : left < 0x80) (hright : right < 0x80) :
    Utf8 (left :: text ++ [right]) ↔ Utf8 text := by
  rw [cons_append, utf8_ascii hleft, utf8_append_ascii (ascii_cons hright ascii_nil)]

namespace Tree

theorem everywhere_iff {p : Tree → Prop} {tree : Tree} :
    Everywhere p tree ↔ p tree ∧ ∀ child ∈ tree.children, Everywhere p child :=
  ⟨fun h => ⟨h.here, fun _ hchild => h.child hchild⟩, fun h => .node h.1 h.2⟩

end Tree

open json_grammar.Tree

theorem everywhere_bare (hstrings : tree.strings = []) (hchildren : tree.children = []) :
    Everywhere Utf8Strings tree := by
  refine .node (fun pieces h => ?_) fun child h => ?_
  · rw [hstrings] at h
    cases h
  · rw [hchildren] at h
    cases h

theorem utf8_leaf (hleaf : tree.is_container = false) (h : Value tree text) :
    Utf8 text ↔ Everywhere Utf8Strings tree := by
  cases h with
  | null => exact iff_of_true ⟨['n', 'u', 'l', 'l'], by decide⟩ (everywhere_bare rfl rfl)
  | true => exact iff_of_true ⟨['t', 'r', 'u', 'e'], by decide⟩ (everywhere_bare rfl rfl)
  | false => exact iff_of_true ⟨['f', 'a', 'l', 's', 'e'], by decide⟩ (everywhere_bare rfl rfl)
  | number h => exact iff_of_true (utf8_of_ascii h.ascii) (everywhere_bare rfl rfl)
  | string h =>
    rw [utf8_quoted h, everywhere_iff]
    exact ⟨fun h => ⟨forall_mem_singleton.mpr h, nofun⟩, fun h => h.1 _ (.head _)⟩
  | empty_array | array | empty_object | object => cases hleaf

/-- The text of a value is UTF-8 if and only if what its strings stand for is. -/
theorem utf8_value {n : Nat} (hnested : NestedWithin n tree) (h : Value tree text) :
    Utf8 text ↔ Everywhere Utf8Strings tree := by
  induction hnested generalizing text with
  | leaf hleaf => exact utf8_leaf hleaf h
  | container _ ih =>
    cases h with
    | null => exact utf8_leaf rfl .null
    | true => exact utf8_leaf rfl .true
    | false => exact utf8_leaf rfl .false
    | number h => exact utf8_leaf rfl (.number h)
    | string h => exact utf8_leaf rfl (.string h)
    | empty_array h =>
      rw [utf8_between (by decide) (by decide)]
      exact iff_of_true (utf8_of_ascii h.ascii) (everywhere_bare rfl rfl)
    | empty_object h =>
      rw [utf8_between (by decide) (by decide)]
      exact iff_of_true (utf8_of_ascii h.ascii) (everywhere_bare rfl rfl)
    | array h =>
      rw [utf8_between (by decide) (by decide), everywhere_iff, utf8_separated (fun item hitem _ => ih item hitem) h]
      exact ⟨fun h => ⟨nofun, h⟩, fun h => h.2⟩
    | @object members _ h =>
      have hmember (member : List Piece × Tree) (hmember : member ∈ members) (text : Text) (h : Member Value member text) :
          Utf8 text ↔ Utf8 (decoded member.1) ∧ Everywhere Utf8Strings member.2 :=
        utf8_member (fun _ => ih member.2 (mem_map_of_mem hmember)) h
      rw [utf8_between (by decide) (by decide), everywhere_iff, utf8_separated hmember h]
      simp only [Utf8Strings, strings, children, forall_mem_map]
      exact ⟨fun h => ⟨fun m hm => (h m hm).1, fun m hm => (h m hm).2⟩, fun h m hm => ⟨h.1 m hm, h.2 m hm⟩⟩

end json_grammar
