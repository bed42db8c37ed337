-- Texts that are UTF-8: the bytes of a list of characters. Such a text can be taken
-- apart in front of every first byte, and behind every character.
import Mathlib.Data.List.Basic

namespace utf8_texts

open List

/-- The text is that of a list of characters. -/
def Utf8 (text : List UInt8) : Prop := ∃ chars : List Char, text = chars.flatMap String.utf8EncodeChar

/-- The text is empty or starts with the first byte of a character. -/
def Starts (text : List UInt8) : Prop := ∀ c ∈ text.head?, c.IsUTF8FirstByte

variable {a b : List UInt8} {c : UInt8}

theorem utf8_nil : Utf8 [] := ⟨[], rfl⟩

theorem utf8_append (ha : Utf8 a) (hb : Utf8 b) : Utf8 (a ++ b) := by
  obtain ⟨left, rfl⟩ := ha
  obtain ⟨right, rfl⟩ := hb
  exact ⟨left ++ right, by rw [flatMap_append]⟩

theorem utf8_character (char : Char) : Utf8 (String.utf8EncodeChar char) := ⟨[char], by rw [flatMap_singleton]⟩

theorem starts_nil : Starts [] := fun _ h => by cases h

theorem starts_character (char : Char) : Starts (String.utf8EncodeChar char ++ b) := by
  intro c hc
  cases hbytes : String.utf8EncodeChar char with
  | nil => exact absurd hbytes String.utf8EncodeChar_ne_nil
  | cons d rest =>
    rw [hbytes] at hc
    cases hc
    have hzero : 0 < (String.utf8EncodeChar char).length := by rw [hbytes]; exact Nat.succ_pos _
    have hfirst : ((String.utf8EncodeChar char)[0]).IsUTF8FirstByte :=
      UInt8.isUTF8FirstByte_getElem_utf8EncodeChar.mpr rfl
    simpa [hbytes] using hfirst

/-- A byte below 0x80 is a character. -/
theorem ascii_character (h : c < 0x80) : String.utf8EncodeChar (Char.ofNat c.toNat) = [c] := by
  have hlt : c.toNat < 128 := UInt8.lt_iff_toNat_lt.mp h
  have hval : (Char.ofNat c.toNat).val.toNat = c.toNat := by
    have hvalid : Nat.isValidChar c.toNat := .inl (by omega)
    rw [Char.ofNat, dif_pos hvalid]
    rfl
  rw [String.utf8EncodeChar, hval, if_pos (by omega), UInt8.ofNat_toNat]

theorem starts_of_ascii (h : c < 0x80) : Starts (c :: b) := by
  have := starts_character (Char.ofNat c.toNat) (b := b)
  rwa [ascii_character h] at this

/-- No later byte of a character is a first byte. -/
theorem not_first_of_character {char : Char} (h : String.utf8EncodeChar char = a ++ c :: b) (ha : a ≠ []) :
    ¬c.IsUTF8FirstByte := by
  intro hc
  have hlength : a.length < (String.utf8EncodeChar char).length := by
    rw [h, length_append, length_cons]
    omega
  have hbyte : (String.utf8EncodeChar char)[a.length] = c := by simp [h]
  rw [← hbyte, UInt8.isUTF8FirstByte_getElem_utf8EncodeChar] at hc
  exact ha (eq_nil_of_length_eq_zero hc)

/-- A cut in front of a first byte. -/
theorem utf8_cut (hb : Starts b) : Utf8 (a ++ b) ↔ Utf8 a ∧ Utf8 b := by
  refine ⟨fun hall => ?_, fun h => utf8_append h.1 h.2⟩
  obtain ⟨chars, h⟩ := hall
  induction chars generalizing a with
  | nil =>
    obtain ⟨rfl, rfl⟩ := append_eq_nil_iff.mp h
    exact ⟨utf8_nil, utf8_nil⟩
  | cons char chars ih =>
    cases a with
    | nil => exact ⟨utf8_nil, char :: chars, h⟩
    | cons d a =>
      rw [flatMap_cons] at h
      rcases append_eq_append_iff.mp h with ⟨rest, hchar, hrest⟩ | ⟨rest, hleft, hright⟩
      · cases rest with
        | nil =>
          rw [append_nil] at hchar
          exact ⟨hchar ▸ utf8_character char, chars, hrest⟩
        | cons e rest =>
          rw [hrest] at hb
          exact absurd (hb e rfl) (not_first_of_character hchar (cons_ne_nil _ _))
      obtain ⟨hleft', hright'⟩ := ih hright.symm
      exact ⟨hleft ▸ utf8_append (utf8_character char) hleft', hright'⟩

/-- A cut behind a character. -/
theorem utf8_behind (char : Char) : Utf8 (String.utf8EncodeChar char ++ b) ↔ Utf8 b := by
  refine ⟨fun ⟨chars, h⟩ => ?_, utf8_append (utf8_character char)⟩
  cases chars with
  | nil => exact absurd (append_eq_nil_iff.mp h).1 String.utf8EncodeChar_ne_nil
  | cons other chars =>
    rw [flatMap_cons] at h
    have hbytes := congrArg toByteArray h
    rw [toByteArray_append, toByteArray_append] at hbytes
    have hsame : some char = some other := by
      rw [← ByteArray.utf8DecodeChar?_utf8EncodeChar_append, hbytes, ByteArray.utf8DecodeChar?_utf8EncodeChar_append]
    cases hsame
    exact ⟨chars, append_cancel_left h⟩

theorem utf8_ascii (hc : c < 0x80) : Utf8 (c :: b) ↔ Utf8 b := by
  have := utf8_behind (Char.ofNat c.toNat) (b := b)
  rwa [ascii_character hc] at this

/-- Every byte is a character of its own. -/
def Ascii (text : List UInt8) : Prop := ∀ c ∈ text, c < 0x80

theorem ascii_of_all (h : (a.all fun c => c < 0x80) = true) : Ascii a := fun c hc =>
  of_decide_eq_true (all_eq_true.mp h c hc)

theorem utf8_ascii_append (ha : Ascii a) : Utf8 (a ++ b) ↔ Utf8 b := by
  induction a with
  | nil => rfl
  | cons c a ih =>
    rw [cons_append, utf8_ascii (ha c (.head _))]
    exact ih fun d hd => ha d (.tail _ hd)

theorem utf8_of_ascii (ha : Ascii a) : Utf8 a := by
  rw [← append_nil a, utf8_ascii_append ha]
  exact utf8_nil

theorem Ascii.starts (ha : Ascii a) : Starts a := by
  cases a with
  | nil => exact starts_nil
  | cons c a => exact starts_of_ascii (ha c (.head _))

theorem utf8_append_ascii (hb : Ascii b) : Utf8 (a ++ b) ↔ Utf8 a := by
  rw [utf8_cut hb.starts]
  exact and_iff_left (utf8_of_ascii hb)

/-- Whatever stands around the text is UTF-8 with it as without it. -/
def Apart (text : List UInt8) : Prop := ∀ later, Starts (text ++ later) ∧ (Utf8 (text ++ later) ↔ Utf8 later)

theorem apart_character (char : Char) : Apart (String.utf8EncodeChar char) := fun _ =>
  ⟨starts_character char, utf8_behind char⟩

theorem apart_ascii (ha : Ascii a) (hsome : a ≠ []) : Apart a := by
  refine fun later => ⟨?_, utf8_ascii_append ha⟩
  cases a with
  | nil => exact absurd rfl hsome
  | cons c a => exact starts_of_ascii (ha c (.head _))

theorem utf8_iff_valid (text : List UInt8) : Utf8 text ↔ text.toByteArray.validateUTF8 = true := by
  rw [ByteArray.validateUTF8_eq_true_iff]
  constructor
  · rintro ⟨chars, rfl⟩
    exact ⟨chars, rfl⟩
  · rintro ⟨chars, h⟩
    exact ⟨chars, toByteArray_inj.mp h⟩

instance (text : List UInt8) : Decidable (Utf8 text) := decidable_of_iff _ (utf8_iff_valid text).symm

end utf8_texts
