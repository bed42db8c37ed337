-- The texts of JSON, RFC 8259, over bytes: a tree is what a text is a spelling of. What
-- the grammar leaves open (nesting, repeated keys, surrogates, the range of numbers) is
-- said of the tree.
import TaxiCam.Utf8Texts

namespace json_grammar

open utf8_texts List

abbrev Text := List UInt8

def ascii (s : String) : Text := s.toList.map fun c => UInt8.ofNat c.toNat

/-! ## Strings -/

/-- A part of a string: a byte that stands for itself, a character behind a backslash, or one or two
codes of four digits. -/
inductive Piece
  | plain (c : UInt8)
  | escaped (e : UInt8)
  | code (digits : Text)
  | pair (high low : Text)

/-- The escapes of one character and what they stand for. -/
def escapes : List (UInt8 × UInt8) :=
  [(34, 34), (92, 92), (47, 47), (98, 8), (102, 12), (110, 10), (114, 13), (116, 9)]

def HexDigit (c : UInt8) : Prop := 48 ≤ c ∧ c ≤ 57 ∨ 65 ≤ c ∧ c ≤ 70 ∨ 97 ≤ c ∧ c ≤ 102

def hex_value (c : UInt8) : Nat :=
  if c ≤ 57 then c.toNat - 48 else if c ≤ 70 then c.toNat - 55 else c.toNat - 87

def FourDigits (digits : Text) : Prop := digits.length = 4 ∧ ∀ d ∈ digits, HexDigit d

def code_unit (digits : Text) : Nat := digits.foldl (fun n d => n * 16 + hex_value d) 0

namespace Piece

def WellFormed : Piece → Prop
  | plain c => 0x20 ≤ c ∧ c ≠ 34 ∧ c ≠ 92
  | escaped e => ∃ c, (e, c) ∈ escapes
  | code digits => FourDigits digits
  | pair high low => FourDigits high ∧ FourDigits low

def spelled : Piece → Text
  | plain c => [c]
  | escaped e => [92, e]
  | code digits => 92 :: 117 :: digits
  | pair high low => 92 :: 117 :: high ++ 92 :: 117 :: low

/-- A code on its own is no surrogate, two codes are the two halves of one. -/
def Paired : Piece → Prop
  | code digits => code_unit digits < 0xd800 ∨ 0xdfff < code_unit digits
  | pair high low => (0xd800 ≤ code_unit high ∧ code_unit high ≤ 0xdbff) ∧ 0xdc00 ≤ code_unit low ∧ code_unit low ≤ 0xdfff
  | _ => True

/-- The code point of two halves. -/
def joined (high low : Text) : Nat := 0x10000 + (code_unit high - 0xd800) * 0x400 + (code_unit low - 0xdc00)

def decoded : Piece → Text
  | plain c => [c]
  | escaped e => [(escapes.lookup e).getD 0]
  | code digits => String.utf8EncodeChar (Char.ofNat (code_unit digits))
  | pair high low => String.utf8EncodeChar (Char.ofNat (joined high low))

end Piece

def quoted (pieces : List Piece) : Text := 34 :: pieces.flatMap Piece.spelled ++ [34]

/-- The text that a string stands for. -/
def decoded (pieces : List Piece) : Text := pieces.flatMap Piece.decoded

/-! ## Numbers -/

def is_digit (c : UInt8) : Bool := 48 ≤ c && c ≤ 57

def Digits (text : Text) : Prop := text ≠ [] ∧ ∀ c ∈ text, is_digit c

inductive Minus : Text → Prop
  | absent : Minus []
  | present : Minus [45]

inductive Integer : Text → Prop
  | zero : Integer [48]
  | digits {d : UInt8} {text : Text} (h : Digits (d :: text)) (hd : d ≠ 48) : Integer (d :: text)

inductive Fraction : Text → Prop
  | absent : Fraction []
  | present {text : Text} (h : Digits text) : Fraction (46 :: text)

inductive Exponent : Text → Prop
  | absent : Exponent []
  | present {e : UInt8} {sign text : Text} (he : e = 101 ∨ e = 69) (hsign : sign = [] ∨ sign = [43] ∨ sign = [45])
      (h : Digits text) : Exponent (e :: sign ++ text)

inductive Number : Text → Prop
  | parts {minus integer fraction exponent : Text} (hminus : Minus minus) (hinteger : Integer integer)
      (hfraction : Fraction fraction) (hexponent : Exponent exponent) :
      Number (minus ++ integer ++ fraction ++ exponent)

def numeral (text : Text) : Nat := (text.filter is_digit).foldl (fun n d => n * 10 + (d.toNat - 48)) 0

/-- The digits in front of the exponent, as one number. -/
def mantissa (token : Text) : Nat := numeral (token.takeWhile fun c => c ≠ 101 && c ≠ 69)

def fraction_length (token : Text) : Nat := (((token.dropWhile (· ≠ 46)).drop 1).takeWhile is_digit).length

def exponent (token : Text) : Int :=
  match token.dropWhile fun c => c ≠ 101 && c ≠ 69 with
  | [] => 0
  | _ :: rest => if rest.head? = some 45 then -(numeral rest) else numeral rest

/-- The least number that does not round to a finite double: halfway between the greatest of them
and the next power of two. -/
def beyond_doubles : Nat := Nat.pow 2 1024 - Nat.pow 2 970

/-- The number, which is its mantissa with the decimal point moved, is below that. -/
def in_range (token : Text) : Bool :=
  let moved := exponent token - fraction_length token
  decide (mantissa token * Nat.pow 10 moved.toNat < beyond_doubles * Nat.pow 10 (-moved).toNat)

/-! ## Values -/

inductive Tree
  | null
  | bool (b : Bool)
  | number (token : Text)
  | string (pieces : List Piece)
  | array (items : List Tree)
  | object (members : List (List Piece × Tree))

def Space (text : Text) : Prop := ∀ c ∈ text, c = 32 ∨ c = 9 ∨ c = 10 ∨ c = 13

variable {α : Type}

/-- Parts with white space around them and commas between them. -/
inductive Separated (Part : α → Text → Prop) : List α → Text → Prop
  | last {a : α} {before text after : Text} (hbefore : Space before) (h : Part a text) (hafter : Space after) :
      Separated Part [a] (before ++ text ++ after)
  | more {a : α} {before text after later : Text} {rest : List α} (hbefore : Space before) (h : Part a text)
      (hafter : Space after) (hrest : Separated Part rest later) :
      Separated Part (a :: rest) (before ++ text ++ after ++ 44 :: later)

/-- A key, a colon and a value. -/
inductive Member (Part : α → Text → Prop) : List Piece × α → Text → Prop
  | named {pieces : List Piece} {a : α} {before after text : Text} (hpieces : ∀ p ∈ pieces, p.WellFormed)
      (hbefore : Space before) (hafter : Space after) (h : Part a text) :
      Member Part (pieces, a) (quoted pieces ++ before ++ 58 :: (after ++ text))

inductive Value : Tree → Text → Prop
  | null : Value .null (ascii "null")
  | true : Value (.bool true) (ascii "true")
  | false : Value (.bool false) (ascii "false")
  | number {token : Text} (h : Number token) : Value (.number token) token
  | string {pieces : List Piece} (h : ∀ p ∈ pieces, p.WellFormed) : Value (.string pieces) (quoted pieces)
  | empty_array {text : Text} (h : Space text) : Value (.array []) (91 :: text ++ [93])
  | array {items : List Tree} {text : Text} (h : Separated Value items text) :
      Value (.array items) (91 :: text ++ [93])
  | empty_object {text : Text} (h : Space text) : Value (.object []) (123 :: text ++ [125])
  | object {members : List (List Piece × Tree)} {text : Text} (h : Separated (Member Value) members text) :
      Value (.object members) (123 :: text ++ [125])

/-- A whole text of JSON. -/
def JsonText (tree : Tree) (text : Text) : Prop :=
  ∃ before inner after, Space before ∧ Value tree inner ∧ Space after ∧ text = before ++ inner ++ after

/-! ## What the grammar leaves open -/

namespace Tree

def children : Tree → List Tree
  | array items => items
  | object members => members.map Prod.snd
  | _ => []

/-- The strings of the value itself, its keys included. -/
def strings : Tree → List (List Piece)
  | string pieces => [pieces]
  | object members => members.map Prod.fst
  | _ => []

def is_container : Tree → Bool
  | array _ | object _ => true
  | _ => false

/-- Arrays and objects stand in each other at most so deep. -/
inductive NestedWithin : Nat → Tree → Prop
  | leaf {n : Nat} {tree : Tree} (h : tree.is_container = false) : NestedWithin n tree
  | container {n : Nat} {tree : Tree} (h : ∀ child ∈ tree.children, NestedWithin n child) : NestedWithin (n + 1) tree

/-- The property holds of the value and of all in it. -/
inductive Everywhere (p : Tree → Prop) : Tree → Prop
  | node {tree : Tree} (h : p tree) (hchildren : ∀ child ∈ tree.children, Everywhere p child) : Everywhere p tree

/-- No two keys of an object stand for the same text. -/
def UniqueKeys : Tree → Prop
  | object members => (members.map fun member => json_grammar.decoded member.1).Nodup
  | _ => True

def PairedSurrogates (tree : Tree) : Prop := ∀ pieces ∈ tree.strings, ∀ p ∈ pieces, p.Paired

def FiniteNumber : Tree → Prop
  | number token => in_range token
  | _ => True

/-- What the strings stand for is UTF-8. -/
def Utf8Strings (tree : Tree) : Prop := ∀ pieces ∈ tree.strings, Utf8 (json_grammar.decoded pieces)

variable {tree : Tree} {p : Tree → Prop}

theorem Everywhere.here (h : Everywhere p tree) : p tree := by
  cases h with
  | node h _ => exact h

theorem Everywhere.child {child : Tree} (h : Everywhere p tree) (hchild : child ∈ tree.children) :
    Everywhere p child := by
  cases h with
  | node _ hchildren => exact hchildren child hchild

theorem NestedWithin.child {n : Nat} {child : Tree} (h : NestedWithin (n + 1) tree) (htree : tree.is_container = true)
    (hchild : child ∈ tree.children) : NestedWithin n child := by
  cases h with
  | leaf hleaf =>
    rw [htree] at hleaf
    cases hleaf
  | container h => exact h child hchild

theorem everywhere_and {q : Tree → Prop} :
    Everywhere (fun tree => p tree ∧ q tree) tree ↔ Everywhere p tree ∧ Everywhere q tree := by
  refine ⟨fun h => ?_, fun h => ?_⟩
  · induction h with
    | node h _ ih => exact ⟨.node h.1 fun child hchild => (ih child hchild).1, .node h.2 fun child hchild => (ih child hchild).2⟩
  · obtain ⟨hp, hq⟩ := h
    induction hp with
    | node h _ ih => exact .node ⟨h, hq.here⟩ fun child hchild => ih child hchild (hq.child hchild)

end Tree

/-! ## Parts -/

variable {as : List α} {text : Text} {Q : α → Prop} {P : α → Text → Prop}

theorem Separated.imp {Q : α → Text → Prop} (h : ∀ a text, P a text → Q a text)
    (hall : Separated P as text) : Separated Q as text := by
  induction hall with
  | last hbefore ha hafter => exact .last hbefore (h _ _ ha) hafter
  | more hbefore ha hafter _ ih => exact .more hbefore (h _ _ ha) hafter ih

theorem Separated.forall (h : ∀ a text, P a text → Q a) (hall : Separated P as text) : ∀ a ∈ as, Q a := by
  induction hall with
  | last _ ha _ => exact forall_mem_singleton.mpr (h _ _ ha)
  | more _ ha _ _ ih => exact forall_mem_cons.mpr ⟨h _ _ ha, ih⟩

/-- What holds of each part, beside what its text says. -/
theorem Separated.both (hall : Separated P as text)
    (h : ∀ a ∈ as, Q a) : Separated (fun a text => P a text ∧ Q a) as text := by
  induction hall with
  | last hbefore ha hafter => exact .last hbefore ⟨ha, h _ (.head _)⟩ hafter
  | more hbefore ha hafter _ ih => exact .more hbefore ⟨ha, h _ (.head _)⟩ hafter (ih fun a ha => h a (.tail _ ha))

theorem space_nil : Space [] := fun _ hc => by cases hc

theorem space_append {a b : Text} (ha : Space a) (hb : Space b) : Space (a ++ b) := by
  intro c hc
  rcases mem_append.mp hc with hc | hc
  · exact ha c hc
  · exact hb c hc

/-- White space in front of the first part belongs to it. -/
theorem Separated.pad {before : Text} (hbefore : Space before)
    (h : Separated P as text) : Separated P as (before ++ text) := by
  cases h with
  | @last a first text after hfirst ha hafter =>
    have := last (space_append hbefore hfirst) ha hafter
    rwa [append_assoc, append_assoc, ← append_assoc first] at this
  | @more a first text after later rest hfirst ha hafter hrest =>
    have := more (space_append hbefore hfirst) ha hafter hrest
    simp only [append_assoc] at this ⊢
    exact this

end json_grammar
