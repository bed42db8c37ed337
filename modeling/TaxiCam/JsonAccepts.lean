-- The JSON reader accepts what the grammar says: it goes over every spelling of a lawful
-- value and gives the value that the grammar assigns.
import TaxiCam.JsonReads

namespace taxi_camera.standalone.json.detail

open readers text_escapes utf8_texts List
open json_grammar hiding Text Value is_digit
open Reader (fail unfinished)
open Piece (joined pair spelled)
open Reader (bind_of_ok)

/-! ## Strings -/

theorem hex4_of {digits : Text} (h : FourDigits digits) (rest : Text) :
    hex4 (digits ++ rest) = .ok (code_unit digits) rest := by
  have := hex_digits_of h.2 0 rest
  rw [h.1] at this
  unfold hex4 text_escapes.hex4
  rw [this]
  rfl

theorem literal_of (word rest : Text) : literal word (word ++ rest) = .ok () rest := by
  unfold literal
  rw [if_pos (List.isPrefixOf_iff_prefix.mpr (prefix_append ..)), drop_left]

theorem code_of {digits : Text} (h : FourDigits digits) (hpaired : (Piece.code digits).Paired) (rest : Text) :
    code_point (digits ++ rest) = .ok (code_unit digits) rest := by
  unfold code_point
  rw [bind_of_ok (hex4_of h rest)]
  unfold Piece.Paired at hpaired
  rw [if_neg (by omega), if_neg (by omega)]
  rfl

theorem pair_of {high low : Text} (hhigh : FourDigits high) (hlow : FourDigits low) (hpaired : (pair high low).Paired)
    (rest : Text) : code_point (high ++ (92 :: 117 :: low ++ rest)) = .ok (joined high low) rest := by
  obtain ⟨hfirst, hsecond⟩ := hpaired
  have hletter : literal (text_of "\\u") (92 :: 117 :: low ++ rest) = .ok () (low ++ rest) := literal_of _ _
  unfold code_point
  rw [bind_of_ok (hex4_of hhigh _), if_pos hfirst]
  unfold low_surrogate
  rw [bind_of_ok hletter, bind_of_ok (hex4_of hlow rest), if_neg (by omega)]
  rfl

/-- An escape is read whole, whatever follows. -/
theorem escape_of {p : Piece} (hwell : p.WellFormed) (hpaired : p.Paired) (hplain : ∀ c, p ≠ .plain c) (rest : Text) :
    ∃ body, p.spelled = 92 :: body ∧ escape (body ++ rest) = .ok p.decoded rest := by
  have hcode {cp : Nat} {body : Text} (h : code_point (body ++ rest) = .ok cp rest) (hvalid : Nat.isValidChar cp) :
      escape (117 :: body ++ rest) = .ok (String.utf8EncodeChar (Char.ofNat cp)) rest := by
    rw [← append_utf8_eq hvalid]
    exact bind_of_ok h
  cases p with
  | plain c => exact absurd rfl (hplain c)
  | escaped e =>
    obtain ⟨c, hc⟩ := hwell
    refine ⟨[e], rfl, ?_⟩
    rw [singleton_append]
    unfold escape
    dsimp only
    rw [simple_escape_of hc, Piece.decoded]
  | code digits =>
    have hlt := code_unit_lt hwell
    refine ⟨117 :: digits, rfl, hcode (code_of hwell hpaired rest) ?_⟩
    unfold Piece.Paired at hpaired
    omega
  | pair high low =>
    have hread : code_point (high ++ 92 :: 117 :: low ++ rest) = .ok (joined high low) rest := by
      rw [append_assoc]
      exact pair_of hwell.1 hwell.2 hpaired rest
    refine ⟨117 :: (high ++ 92 :: 117 :: low), rfl, ?_⟩
    rw [Piece.decoded]
    refine hcode hread (.inr ?_)
    unfold Piece.Paired at hpaired
    unfold joined
    omega

variable {δ : Type} {host : Host δ} {turns bound : Nat}

theorem string_loop_turn (out : Text) (c : UInt8) (rest : Text) :
    string_loop host (turns + 1) out (c :: rest) =
      if c = 34 then
        if out = [] ∨ host.multi_byte_to_wide_char out (int_of out.length) > 0 then .ok out rest else .failed ()
      else if c < 0x20 then .failed ()
      else if c ≠ 92 then string_loop host turns (out ++ [c]) rest
      else (escape >>= fun bytes => string_loop host turns (out ++ bytes)) rest := rfl

variable {pieces : List Piece} {levels : Nat} {r : Read (Value δ)} {before inner read rest : Text}
variable {tree : Tree} {c : UInt8}

theorem string_loop_of (h : ReadPieces pieces) {out : Text}
    (hvalid : out ++ decoded pieces = [] ∨ host.multi_byte_to_wide_char (out ++ decoded pieces)
      (int_of (out ++ decoded pieces).length) > 0) (hturns : (pieces.flatMap spelled).length < turns) :
    string_loop host turns out (pieces.flatMap spelled ++ 34 :: rest) = .ok (out ++ decoded pieces) rest := by
  induction pieces generalizing out turns with
  | nil =>
    cases turns with
    | zero => cases hturns
    | succ turns =>
      have hnone : out ++ decoded [] = out := append_nil _
      rw [hnone] at hvalid ⊢
      rw [flatMap_nil, nil_append, string_loop_turn, if_pos rfl, if_pos hvalid]
  | cons p pieces ih =>
    have hlater : ReadPieces pieces := ⟨fun q hq => h.formed q (.tail _ hq), fun q hq => h.paired q (.tail _ hq)⟩
    have hsplit : out ++ decoded (p :: pieces) = (out ++ p.decoded) ++ decoded pieces := by
      rw [decoded, flatMap_cons, append_assoc]
      rfl
    rw [hsplit] at hvalid ⊢
    rw [flatMap_cons, length_append] at hturns
    rw [flatMap_cons, append_assoc]
    cases turns with
    | zero => cases hturns
    | succ turns =>
      by_cases hplain : ∃ c, p = .plain c
      · obtain ⟨c, rfl⟩ := hplain
        obtain ⟨hcontrol, hquote, hslash⟩ := h.formed _ (.head _)
        have hone : (spelled (.plain c)).length = 1 := rfl
        rw [spelled, singleton_append, string_loop_turn, if_neg hquote, if_neg (UInt8.not_lt.mpr hcontrol), if_pos hslash]
        exact ih hlater hvalid (by omega)
      obtain ⟨body, hspelled, hescape⟩ := escape_of (h.formed p (.head _)) (h.paired p (.head _))
        (fun c hc => hplain ⟨c, hc⟩) (pieces.flatMap spelled ++ 34 :: rest)
      rw [hspelled, length_cons] at hturns
      rw [hspelled, cons_append, string_loop_turn, if_neg (by decide), if_neg (by decide), if_neg (by decide), bind_of_ok hescape]
      exact ih hlater hvalid (by omega)

theorem string_of (hhost : Documented host) (hbound : bound < 0x80000000) (hturns : bound < turns)
    (h : ReadPieces pieces) (hutf8 : Utf8 (decoded pieces))
    (hlength : (quoted pieces ++ rest).length ≤ bound) :
    string host turns (quoted pieces ++ rest) = .ok (decoded pieces) rest := by
  have hshort := length_decoded h.formed
  simp only [quoted, length_append, length_cons, length_nil] at hlength
  have hloop : string_loop host turns [] (pieces.flatMap spelled ++ 34 :: rest) = .ok ([] ++ decoded pieces) rest :=
    string_loop_of h ((characters_iff hhost (by rw [nil_append]; omega)).mpr hutf8) (by omega)
  have hquoted : quoted pieces ++ rest = 34 :: (pieces.flatMap spelled ++ 34 :: rest) := by
    simp only [quoted, cons_append, append_assoc, nil_append]
  rw [hquoted]
  unfold string
  dsimp only
  rw [if_neg (by decide), hloop, nil_append]

/-! ## Numbers -/

/-- The text does not go on with a digit. -/
def NoDigit (rest : Text) : Prop := ∀ c ∈ rest.head?, is_digit c = false

/-- The text does not go on as a number does. -/
def Stops (rest : Text) : Prop := ∀ c ∈ rest.head?, is_digit c = false ∧ c ≠ 46 ∧ c ≠ 101 ∧ c ≠ 69

theorem Stops.noDigit (h : Stops rest) : NoDigit rest := fun c hc => (h c hc).1

theorem digits_of (h : Digits read) (hrest : NoDigit rest) : digits (read ++ rest) = .ok read rest := by
  have hnone : rest.takeWhile is_digit = [] ∧ rest.dropWhile is_digit = rest := by
    cases rest with
    | nil => exact ⟨rfl, rfl⟩
    | cons c rest =>
      have hc : is_digit c = false := hrest c rfl
      exact ⟨takeWhile_cons_of_neg (by rw [hc]; decide), dropWhile_cons_of_neg (by rw [hc]; decide)⟩
  have hall : ∀ c ∈ read, is_digit c = true := h.2
  have htake : (read ++ rest).takeWhile is_digit = read := by
    rw [takeWhile_append_of_pos hall, hnone.1, append_nil]
  have hdrop : (read ++ rest).dropWhile is_digit = rest := by
    rw [dropWhile_append_of_pos hall, hnone.2]
  unfold digits
  rw [htake, hdrop, if_neg h.1]

theorem minus_of (h : Minus read) (hrest : rest.head? ≠ some 45) : minus (read ++ rest) = .ok read rest := by
  cases h with
  | absent => exact if_neg hrest
  | present => exact if_pos rfl

theorem integer_of (h : Integer read) (hrest : NoDigit rest) : integer (read ++ rest) = .ok read rest := by
  cases h with
  | zero => exact if_pos rfl
  | digits h hd =>
    refine (if_neg fun hhead => ?_).trans (digits_of h hrest)
    exact hd (Option.some.inj hhead)

theorem fraction_of (h : Fraction read) (hrest : NoDigit rest) (hpoint : rest.head? ≠ some 46) :
    fraction (read ++ rest) = .ok read rest := by
  cases h with
  | absent => exact if_neg hpoint
  | present h =>
    exact (if_pos rfl).trans (bind_of_ok (digits_of h hrest))

theorem digits_head (h : Digits read) : ∃ d later, read = d :: later ∧ is_digit d = true := by
  obtain ⟨hsome, hall⟩ := h
  cases read with
  | nil => exact absurd rfl hsome
  | cons d later => exact ⟨d, later, rfl, hall d (.head _)⟩

theorem exponent_of (h : Exponent read) (hrest : Stops rest) : exponent (read ++ rest) = .ok read rest := by
  cases h with
  | absent =>
    rw [nil_append]
    unfold exponent
    split
    · rfl
    rename_i c later
    obtain ⟨-, -, hlower, hupper⟩ := hrest c rfl
    exact if_neg (by tauto)
  | @present e sign text he hsign h =>
    have hread : detail.sign (sign ++ (text ++ rest)) = .ok sign (text ++ rest) := by
      obtain ⟨d, later, rfl, hd⟩ := digits_head h
      rcases hsign with rfl | rfl | rfl
      · refine if_neg ?_
        rintro (rfl | rfl) <;> revert hd <;> decide
      · rfl
      · rfl
    rw [cons_append, cons_append, append_assoc]
    unfold exponent
    dsimp only
    rw [if_pos he]
    unfold exponent_digits
    rw [bind_of_ok hread, bind_of_ok (digits_of h hrest.noDigit)]
    rfl

theorem head_append {a b : Text} (P : UInt8 → Prop) (ha : ∀ c ∈ a.head?, P c) (hb : ∀ c ∈ b.head?, P c) :
    ∀ c ∈ (a ++ b).head?, P c := by
  cases a with
  | nil => exact hb
  | cons c a => exact ha

theorem token_of (h : Number read) (hrest : Stops rest) : token (read ++ rest) = .ok read rest := by
  cases h with
  | @parts minus integer fraction exponent hminus hinteger hfraction hexponent =>
    -- Behind each part stands nothing that the part would take.
    have hexponent_head : ∀ c ∈ (exponent ++ rest).head?, is_digit c = false ∧ c ≠ 46 := by
      refine head_append _ (fun c hc => ?_) fun c hc => ⟨(hrest c hc).1, (hrest c hc).2.1⟩
      cases hexponent with
      | absent => cases hc
      | present he _ _ =>
        cases hc
        rcases he with rfl | rfl <;> decide
    have hfraction_head : NoDigit (fraction ++ (exponent ++ rest)) := by
      refine head_append _ (fun c hc => ?_) fun c hc => (hexponent_head c hc).1
      cases hfraction with
      | absent => cases hc
      | present _ =>
        cases hc
        decide
    have hinteger_head : (integer ++ (fraction ++ (exponent ++ rest))).head? ≠ some 45 := by
      have hdigit : ∃ d later, integer = d :: later ∧ is_digit d = true := by
        cases hinteger with
        | zero => exact ⟨48, [], rfl, by decide⟩
        | digits h _ => exact digits_head h
      obtain ⟨d, later, rfl, hd⟩ := hdigit
      rintro hminus
      cases hminus
      exact absurd hd (by decide)
    have hpoint : (exponent ++ rest).head? ≠ some 46 := fun h => (hexponent_head 46 h).2 rfl
    simp only [append_assoc]
    unfold token
    rw [bind_of_ok (minus_of hminus hinteger_head), bind_of_ok (integer_of hinteger hfraction_head),
      bind_of_ok (fraction_of hfraction (fun c hc => (hexponent_head c hc).1) hpoint),
      bind_of_ok (exponent_of hexponent hrest)]
    simp only [append_assoc]
    rfl

theorem number_of (hhost : Documented host) (h : Number read) (hrange : in_range read)
    (hrest : Stops rest) : number host (read ++ rest) = .ok (.number read (host.strtod read)) rest := by
  unfold number
  rw [bind_of_ok (token_of h hrest), hhost.finite read h, if_pos hrange]
  rfl

/-! ## Values -/

theorem space_of (h : Space before) (hc : is_space c = false) (rest : Text) :
    space (before ++ c :: rest) = c :: rest := by
  unfold space
  rw [dropWhile_append_of_pos (space_iff.mp h), dropWhile_cons_of_neg (by rw [hc]; decide)]

theorem next_character_of (h : Space before) (hc : is_space c = false) (rest : Text) :
    next_character (before ++ c :: rest) = .ok c rest := by
  unfold next_character
  rw [space_of h hc]

/-- White space and a character that a number has not. -/
theorem stops_of (h : Space before) (hc : is_digit c = false ∧ c ≠ 46 ∧ c ≠ 101 ∧ c ≠ 69)
    (rest : Text) : Stops (before ++ c :: rest) := by
  refine head_append _ (fun d hd => ?_) fun d hd => ?_
  · rcases h d (mem_of_mem_head? hd) with rfl | rfl | rfl | rfl <;> decide
  · cases hd
    exact hc

theorem length_separated {α : Type} {P : α → Text → Prop} {as : List α} {text : Text} (h : Separated P as text) :
    as.length ≤ text.length + 1 := by
  induction h with
  | last => exact Nat.succ_le_succ (Nat.zero_le _)
  | more _ _ _ _ ih =>
    simp only [length_cons, length_append]
    omega

section
variable {τ β : Type} {f : τ → β} {Part : τ → Text → Prop} {I : List β → Prop} {closing : UInt8}
  {part : List β → Read (List β)}

/-- One turn accepts one part behind white space, if what it adds keeps the parts in order. -/
def AcceptsPart (bound : Nat) (f : τ → β) (Part : τ → Text → Prop) (I : List β → Prop) (part : List β → Read (List β)) :
    Prop :=
  ∀ parsed t before inner rest, I (parsed ++ [f t]) → Space before → Part t inner → Stops rest →
    (before ++ inner ++ rest).length ≤ bound → part parsed (before ++ inner ++ rest) = .ok (parsed ++ [f t]) rest

/-- A bracket that ends the parts. -/
structure Closing (c : UInt8) : Prop where
  bare : is_space c = false
  comma : c ≠ 44
  stops : is_digit c = false ∧ c ≠ 46 ∧ c ≠ 101 ∧ c ≠ 69

variable {ts : List τ} {rest : Text}

theorem parts_of (hpart : AcceptsPart bound f Part I part) (hI : ∀ a b, I (a ++ b) → I a) (hclosing : Closing closing) {text : Text} (h : Separated Part ts text) {parsed : List β} (hparsed : I (parsed ++ ts.map f)) (hlength : (text ++ closing :: rest).length ≤ bound) (hturns : ts.length ≤ turns) :
    parts closing part turns parsed (text ++ closing :: rest) = .ok (parsed ++ ts.map f) rest := by
  induction h generalizing parsed turns with
  | @last t before inner after hbefore ht hafter =>
    cases turns with
    | zero => cases hturns
    | succ turns =>
      have hone : part parsed (before ++ inner ++ (after ++ closing :: rest)) = .ok (parsed ++ [f t]) (after ++ closing :: rest) := by
        refine hpart _ _ _ _ _ hparsed hbefore ht (stops_of hafter hclosing.stops rest) ?_
        rwa [← append_assoc]
      unfold parts
      rw [append_assoc, bind_of_ok hone, bind_of_ok (next_character_of hafter hclosing.bare rest),
        if_neg hclosing.comma, if_neg (Decidable.not_not.mpr rfl)]
      rfl
  | @more t before inner after later ts hbefore ht hafter hrest ih =>
    cases turns with
    | zero => cases hturns
    | succ turns =>
      have hmap : parsed ++ (t :: ts).map f = parsed ++ [f t] ++ ts.map f := by rw [map_cons, append_cons]
      rw [hmap] at hparsed ⊢
      have hsplit : before ++ inner ++ after ++ 44 :: later ++ closing :: rest =
          before ++ inner ++ (after ++ 44 :: (later ++ closing :: rest)) := by
        simp only [append_assoc, cons_append]
      rw [hsplit] at hlength ⊢
      have hone : part parsed (before ++ inner ++ (after ++ 44 :: (later ++ closing :: rest))) =
          .ok (parsed ++ [f t]) (after ++ 44 :: (later ++ closing :: rest)) :=
        hpart _ _ _ _ _ (hI _ _ hparsed) hbefore ht (stops_of hafter (by decide) _) hlength
      have hlater : (later ++ closing :: rest).length ≤ bound := by
        simp only [length_append, length_cons] at hlength ⊢
        omega
      unfold parts
      rw [bind_of_ok hone, bind_of_ok (next_character_of hafter (by decide) _), if_pos rfl]
      exact ih hparsed hlater (Nat.le_of_succ_le_succ hturns)

/-- The first part starts with a character that is neither white space nor the bracket. -/
theorem separated_head {text : Text} (h : Separated Part ts text)
    (hhead : ∀ t inner, Part t inner → ∃ c later, inner = c :: later ∧ is_space c = false ∧ c ≠ closing) (rest : Text) :
    (space (text ++ rest)).head? ≠ some closing := by
  have hfirst {before inner after : Text} {t : τ} (hbefore : Space before) (ht : Part t inner) :
      (space (before ++ inner ++ after)).head? ≠ some closing := by
    obtain ⟨c, later, rfl, hbare, hc⟩ := hhead t inner ht
    rw [append_assoc, cons_append, space_of hbefore hbare]
    exact fun hsome => hc (Option.some.inj hsome)
  cases h with
  | last hbefore ht hafter =>
    rw [append_assoc]
    exact hfirst hbefore ht
  | more hbefore ht hafter hrest =>
    rw [append_assoc, append_assoc]
    exact hfirst hbefore ht

theorem container_of (hpart : AcceptsPart bound f Part I part) (hI : ∀ a b, I (a ++ b) → I a) (hclosing : Closing closing)
    (hhead : ∀ t inner, Part t inner → ∃ c later, inner = c :: later ∧ is_space c = false ∧ c ≠ closing)
    (hspace : ∀ parsed text, part parsed (space text) = part parsed text) {text : Text}
    (h : ts = [] ∧ Space text ∨ Separated Part ts text) (hts : I (ts.map f))
    (hlength : (text ++ closing :: rest).length ≤ bound) (hturns : bound < turns) :
    container turns closing part (text ++ closing :: rest) = .ok (ts.map f) rest := by
  unfold container
  rcases h with ⟨rfl, h⟩ | h
  · rw [space_of h hclosing.bare]
    exact if_pos rfl
  rw [if_neg (separated_head h hhead _)]
  have hcount := length_separated h
  rw [length_append, length_cons] at hlength
  have hparts : parts closing part turns [] (text ++ closing :: rest) = .ok ([] ++ ts.map f) rest := by
    refine parts_of hpart hI hclosing h hts ?_ (by omega)
    rwa [length_append, length_cons]
  cases turns with
  | zero => cases hturns
  | succ turns =>
    rw [← nil_append (ts.map f), ← hparts]
    change Reader.bind _ _ _ = Reader.bind _ _ _
    unfold Reader.bind
    rw [hspace]

end

/-- What a reader of values accepts at a level. -/
def AcceptsValue (bound levels : Nat) (host : Host δ) (r : Read (Value δ)) : Prop :=
  ∀ tree before inner rest, Spelled levels tree inner → Space before → Stops rest →
    (before ++ inner ++ rest).length ≤ bound → r (before ++ inner ++ rest) = .ok (assigned host.strtod tree) rest

/-- The reader goes over white space first. -/
def SkipsSpace {α : Type} (r : Read α) : Prop := ∀ text, r (space text) = r text

theorem space_space (text : Text) : space (space text) = space text := by
  induction text with
  | nil => rfl
  | cons c text ih =>
    by_cases hc : is_space c = true
    · rw [show space (c :: text) = space text from dropWhile_cons_of_pos hc]
      exact ih
    rw [show space (c :: text) = c :: text from dropWhile_cons_of_neg hc]
    exact dropWhile_cons_of_neg hc

theorem SkipsSpace.bind {α β : Type} {r : Read α} (h : SkipsSpace r) (next : α → Read β) : SkipsSpace (r >>= next) := by
  intro text
  change Reader.bind r next _ = Reader.bind r next _
  unfold Reader.bind
  rw [h]

theorem skips_value (levels : Nat) : SkipsSpace (value host turns levels) := by
  intro text
  unfold value
  cases levels with
  | zero => dsimp only; rw [space_space]
  | succ levels => dsimp only; rw [space_space]

theorem skips_key : SkipsSpace (key host turns) := by
  intro text
  unfold key
  rw [space_space]

theorem digit_ne {d : UInt8} (hd : is_digit d = true) (hc : is_digit c = false) : d ≠ c := by
  rintro rfl
  rw [hc] at hd
  cases hd

/-- A number starts with a minus or a digit. -/
theorem number_head {text : Text} (h : Number text) :
    ∃ c later, text = c :: later ∧ is_space c = false ∧ ∀ d, d ≠ 45 → is_digit d = false → c ≠ d := by
  have hdigits {read : Text} (h : Digits read) (more : Text) :
      ∃ c later, read ++ more = c :: later ∧ is_space c = false ∧ ∀ d, d ≠ 45 → is_digit d = false → c ≠ d := by
    obtain ⟨d, later, rfl, hd⟩ := digits_head h
    refine ⟨d, later ++ more, rfl, ?_, fun c _ hc => digit_ne hd hc⟩
    simp only [is_space, Bool.or_eq_false_iff, decide_eq_false_iff_not]
    exact ⟨⟨⟨digit_ne hd (by decide), digit_ne hd (by decide)⟩, digit_ne hd (by decide)⟩, digit_ne hd (by decide)⟩
  cases h with
  | parts hminus hinteger _ _ =>
    cases hminus with
    | present => exact ⟨45, _, rfl, by decide, fun d hd _ => hd.symm⟩
    | absent =>
      rw [nil_append, append_assoc]
      cases hinteger with
      | zero => exact hdigits ⟨cons_ne_nil _ _, forall_mem_singleton.mpr rfl⟩ _
      | digits h _ => exact hdigits h _

/-- A value starts with no white space, no closing bracket and no byte-order mark, and with an
opening bracket only if it is an array or an object. -/
theorem value_head {text : Text} (h : json_grammar.Value tree text) :
    ∃ c later, text = c :: later ∧ is_space c = false ∧ (c ≠ 93 ∧ c ≠ 125 ∧ c ≠ 0xef) ∧
      (tree.is_container = false → c ≠ 123 ∧ c ≠ 91) := by
  cases h with
  | null => exact ⟨110, _, rfl, by decide⟩
  | true => exact ⟨116, _, rfl, by decide⟩
  | false => exact ⟨102, _, rfl, by decide⟩
  | number h =>
    obtain ⟨c, later, rfl, hbare, hne⟩ := number_head h
    exact ⟨c, later, rfl, hbare,
      ⟨hne _ (by decide) (by decide), hne _ (by decide) (by decide), hne _ (by decide) (by decide)⟩, fun _ => ⟨hne _ (by decide) (by decide), hne _ (by decide) (by decide)⟩⟩
  | string _ => exact ⟨34, _, rfl, by decide, by decide, fun _ => by decide⟩
  | empty_array _ => exact ⟨91, _, rfl, by decide, by decide, nofun⟩
  | array _ => exact ⟨91, _, rfl, by decide, by decide, nofun⟩
  | empty_object _ => exact ⟨123, _, rfl, by decide, by decide, nofun⟩
  | object _ => exact ⟨123, _, rfl, by decide, by decide, nofun⟩

theorem item_of (h : AcceptsValue bound levels host r) :
    AcceptsPart bound (assigned host.strtod) (Spelled levels) (fun _ => True) (item r) := by
  intro parsed tree before inner rest _ hbefore htree hrest hlength
  unfold item
  rw [bind_of_ok (h tree before inner rest htree hbefore hrest hlength)]
  rfl

theorem member_of (hhost : Documented host) (hbound : bound < 0x80000000) (hturns : bound < turns) (h : AcceptsValue bound levels host r) :
    AcceptsPart bound (assigned_member host.strtod) (SpelledMember levels) KeysApart (member host turns r) := by
  intro parsed t before inner rest hkeys hbefore ht hrest hlength
  obtain ⟨hmember, hnested, hlawful, hpaired, hutf8⟩ := ht
  cases hmember with
  | @named pieces tree after behind text hpieces hafter hbehind hvalue =>
    have hsplit : before ++ (quoted pieces ++ after ++ 58 :: (behind ++ text)) ++ rest =
        before ++ (quoted pieces ++ (after ++ 58 :: (behind ++ text ++ rest))) := by
      simp only [append_assoc, cons_append]
    rw [hsplit] at hlength ⊢
    have hquoted (later : Text) : quoted pieces ++ later = 34 :: (pieces.flatMap spelled ++ [34] ++ later) := rfl
    have hkey : key host turns (before ++ (quoted pieces ++ (after ++ 58 :: (behind ++ text ++ rest)))) =
        .ok (decoded pieces) (after ++ 58 :: (behind ++ text ++ rest)) := by
      unfold key
      rw [hquoted, space_of hbefore (by decide), ← hquoted]
      refine string_of hhost hbound hturns ⟨hpieces, hpaired⟩ hutf8 ?_
      rw [length_append] at hlength
      omega
    have hfresh : ¬(parsed.any fun member => decide (member.1 = decoded pieces)) = true := by
      intro hany
      obtain ⟨member, hmember, heq⟩ := any_eq_true.mp hany
      unfold KeysApart at hkeys
      rw [map_append, nodup_append] at hkeys
      exact hkeys.2.2 _ (mem_map_of_mem hmember) (decoded pieces) (.head _) (of_decide_eq_true heq)
    have hlater : (behind ++ text ++ rest).length ≤ bound := by
      simp only [length_append, length_cons] at hlength ⊢
      omega
    unfold member
    rw [bind_of_ok hkey, if_neg hfresh]
    unfold member_value
    rw [bind_of_ok (next_character_of hafter (by decide) _), if_neg (by decide),
      bind_of_ok (h tree behind text rest ⟨hvalue, hnested, hlawful⟩ hbehind hrest hlater)]
    rfl

theorem closing_bracket : Closing 93 := ⟨by decide, by decide, by decide⟩

theorem closing_brace : Closing 125 := ⟨by decide, by decide, by decide⟩

theorem array_of (hturns : bound < turns) (h : AcceptsValue bound levels host (value host turns levels))
    {items : List Tree} {text : Text} (hitems : items = [] ∧ Space text ∨ Separated (Spelled levels) items text)
    (hlength : (text ++ 93 :: rest).length ≤ bound) :
    array turns (value host turns levels) (text ++ 93 :: rest) = .ok (assigned host.strtod (.array items)) rest := by
  have hhead (tree : Tree) (inner : Text) (ht : Spelled levels tree inner) :
      ∃ c later, inner = c :: later ∧ is_space c = false ∧ c ≠ 93 := by
    obtain ⟨c, later, rfl, hbare, ⟨hc, -⟩, -⟩ := value_head ht.spelling
    exact ⟨c, later, rfl, hbare, hc⟩
  have hread : container turns 93 (item (value host turns levels)) (text ++ 93 :: rest) =
      .ok (items.map (assigned host.strtod)) rest :=
    container_of (item_of h) (fun _ _ _ => trivial) closing_bracket hhead
      (fun _ => (skips_value levels).bind _) hitems trivial hlength hturns
  unfold array
  rw [bind_of_ok hread, assigned, assigned_items_eq]
  rfl

theorem object_of (hhost : Documented host) (hbound : bound < 0x80000000) (hturns : bound < turns)
    (h : AcceptsValue bound levels host (value host turns levels)) {members : List (List Piece × Tree)} {text : Text}
    (hmembers : members = [] ∧ Space text ∨ Separated (SpelledMember levels) members text)
    (hkeys : (Tree.object members).UniqueKeys) (hlength : (text ++ 125 :: rest).length ≤ bound) :
    object host turns (value host turns levels) (text ++ 125 :: rest) = .ok (assigned host.strtod (.object members)) rest := by
  have hhead (member : List Piece × Tree) (inner : Text) (ht : SpelledMember levels member inner) :
      ∃ c later, inner = c :: later ∧ is_space c = false ∧ c ≠ 125 := by
    cases ht.spelling with
    | named _ _ _ _ => exact ⟨34, _, rfl, by decide, by decide⟩
  have happart (a b : List (Text × Value δ)) (hab : KeysApart (a ++ b)) : KeysApart a := by
    unfold KeysApart at hab ⊢
    rw [map_append] at hab
    exact (nodup_append.mp hab).1
  have hall : KeysApart (members.map (assigned_member host.strtod)) := by
    unfold KeysApart
    rw [map_map]
    exact hkeys
  have hread : container turns 125 (member host turns (value host turns levels)) (text ++ 125 :: rest) =
      .ok (members.map (assigned_member host.strtod)) rest :=
    container_of (member_of hhost hbound hturns h) happart closing_brace hhead
      (fun _ => skips_key.bind _) hmembers hall hlength hturns
  unfold object
  rw [bind_of_ok hread, assigned, assigned_members_eq]
  rfl

theorem scalar_of (hhost : Documented host) (hbound : bound < 0x80000000) (hturns : bound < turns) {text : Text} (h : Spelled levels tree text) (hleaf : tree.is_container = false)
    (hrest : Stops rest) (hlength : (text ++ rest).length ≤ bound) :
    scalar host turns (text ++ rest) = .ok (assigned host.strtod tree) rest := by
  obtain ⟨hvalue, -, hlawful⟩ := h
  obtain ⟨-, hpaired, hrange, hutf8⟩ := hlawful.here
  cases hvalue with
  | null => rfl
  | true => rfl
  | false => rfl
  | @string pieces h =>
    have hread := string_of hhost hbound hturns ⟨h, hpaired pieces (.head _)⟩ (hutf8 pieces (.head _)) hlength
    refine (if_pos rfl).trans ?_
    unfold string_value
    rw [bind_of_ok hread]
    rfl
  | number h =>
    -- A number starts with a digit or a minus, and so is no string and no word.
    have hread := number_of hhost h hrange hrest
    obtain ⟨c, later, rfl, -, hne⟩ := number_head h
    have hword {first : UInt8} (word : Text) (hfirst : first ≠ 45 ∧ is_digit first = false) :
        ¬(first :: word).isPrefixOf (c :: later ++ rest) = true := by
      intro hword
      obtain ⟨more, hmore⟩ := isPrefixOf_iff_prefix.mp hword
      exact hne first hfirst.1 hfirst.2 (List.cons.inj hmore).1.symm
    refine (if_neg fun h => hne 34 (by decide) (by decide) (Option.some.inj h)).trans ?_
    exact (if_neg (hword _ (by decide))).trans ((if_neg (hword _ (by decide))).trans ((if_neg (hword _ (by decide))).trans hread))
  | empty_array | array | empty_object | object => cases hleaf

theorem leaf_of (hhost : Documented host) (hbound : bound < 0x80000000) (hturns : bound < turns) (htree : Spelled levels tree inner) (hleaf : tree.is_container = false)
    (hbefore : Space before) (hrest : Stops rest) (hlength : (before ++ inner ++ rest).length ≤ bound) :
    value host turns levels (before ++ inner ++ rest) = .ok (assigned host.strtod tree) rest := by
  have hshort : (inner ++ rest).length ≤ bound := by
    simp only [length_append] at hlength ⊢
    omega
  have hread := scalar_of hhost hbound hturns htree hleaf hrest hshort
  obtain ⟨c, later, rfl, hbare, -, hopen⟩ := value_head htree.spelling
  obtain ⟨hbrace, hbracket⟩ := hopen hleaf
  have hspace : space (before ++ (c :: later) ++ rest) = c :: (later ++ rest) := by
    rw [append_assoc]
    exact space_of hbefore hbare _
  unfold value
  cases levels with
  | zero =>
    dsimp only
    rw [hspace]
    dsimp only
    rw [if_neg (by tauto)]
    exact hread
  | succ levels =>
    dsimp only
    rw [hspace]
    dsimp only
    rw [if_neg hbrace, if_neg hbracket]
    exact hread

theorem Spelled.items {items : List Tree} {text : Text} (h : Spelled (levels + 1) (.array items) text)
    (hitems : Separated json_grammar.Value items inner) : Separated (Spelled levels) items inner := by
  refine (hitems.both fun item hitem => And.intro (h.nested.child rfl hitem) (h.lawful.child hitem)).imp ?_
  exact fun item text ⟨hvalue, hnested, hlawful⟩ => ⟨hvalue, hnested, hlawful⟩

theorem Spelled.members {members : List (List Piece × Tree)} {text : Text}
    (h : Spelled (levels + 1) (.object members) text) (hmembers : Separated (Member json_grammar.Value) members inner) :
    Separated (SpelledMember levels) members inner := by
  obtain ⟨-, hpaired, -, hutf8⟩ := h.lawful.here
  have hall (member : List Piece × Tree) (hmember : member ∈ members) :
      (member.2.NestedWithin levels ∧ member.2.Everywhere Lawful) ∧ (∀ p ∈ member.1, p.Paired) ∧ Utf8 (decoded member.1) :=
    ⟨⟨h.nested.child rfl (mem_map_of_mem hmember), h.lawful.child (mem_map_of_mem hmember)⟩,
      hpaired _ (mem_map_of_mem hmember), hutf8 _ (mem_map_of_mem hmember)⟩
  refine (hmembers.both hall).imp ?_
  exact fun member text ⟨hmember, ⟨hnested, hlawful⟩, hpaired, hutf8⟩ => ⟨hmember, hnested, hlawful, hpaired, hutf8⟩

/-- Every spelling of a lawful value is accepted, as the value that it assigns. -/
theorem value_of (hhost : Documented host) (hbound : bound < 0x80000000) (hturns : bound < turns) (levels : Nat) :
    AcceptsValue bound levels host (value host turns levels) := by
  induction levels with
  | zero =>
    intro tree before inner rest htree hbefore hrest hlength
    have hleaf : tree.is_container = false := by
      cases htree.nested with
      | leaf hleaf => exact hleaf
    exact leaf_of hhost hbound hturns htree hleaf hbefore hrest hlength
  | succ levels ih =>
    intro tree before inner rest htree hbefore hrest hlength
    cases hcontainer : tree.is_container with
    | false => exact leaf_of hhost hbound hturns htree hcontainer hbefore hrest hlength
    | true =>
      have hbrackets {opening closing : UInt8} {text : Text} :
          before ++ (opening :: text ++ [closing]) ++ rest = before ++ opening :: (text ++ closing :: rest) := by
        simp only [append_assoc, cons_append, nil_append]
      have hshort {opening closing : UInt8} {text : Text} (h : (before ++ (opening :: text ++ [closing]) ++ rest).length ≤ bound) :
          (text ++ closing :: rest).length ≤ bound := by
        simp only [length_append, length_cons, length_nil] at h ⊢
        omega
      have harray {items : List Tree} {text : Text} (hlength : (before ++ (91 :: text ++ [93]) ++ rest).length ≤ bound)
          (hitems : items = [] ∧ Space text ∨ Separated (Spelled levels) items text) :
          value host turns (levels + 1) (before ++ (91 :: text ++ [93]) ++ rest) =
            .ok (assigned host.strtod (.array items)) rest := by
        rw [hbrackets]
        unfold value
        rw [space_of hbefore (by decide)]
        exact array_of hturns ih hitems (hshort hlength)
      have hobject {members : List (List Piece × Tree)} {text : Text}
          (hlength : (before ++ (123 :: text ++ [125]) ++ rest).length ≤ bound)
          (hmembers : members = [] ∧ Space text ∨ Separated (SpelledMember levels) members text)
          (hkeys : (Tree.object members).UniqueKeys) :
          value host turns (levels + 1) (before ++ (123 :: text ++ [125]) ++ rest) =
            .ok (assigned host.strtod (.object members)) rest := by
        rw [hbrackets]
        unfold value
        rw [space_of hbefore (by decide)]
        exact object_of hhost hbound hturns ih hmembers hkeys (hshort hlength)
      have hvalue := htree.spelling
      cases hvalue with
      | null | true | false | number | string => cases hcontainer
      | empty_array h => exact harray hlength (.inl ⟨rfl, h⟩)
      | array h => exact harray hlength (.inr (htree.items h))
      | empty_object h => exact hobject hlength (.inl ⟨rfl, h⟩) htree.lawful.here.1
      | object h => exact hobject hlength (.inr (htree.members h)) htree.lawful.here.1

end taxi_camera.standalone.json.detail
