-- Decoding a panel mark undoes its encoding: the cells give back the payload's
-- bytes and its CRC, and the payload gives back the mark.
import TaxiCam.MarkDecoder
import TaxiCam.MarkEncoders

namespace taxi_camera.panel_marks

open List
open Decoder (parse u16 u8)
open Option (bind_eq_bind bind_eq_some_iff)

/-! ## The fields of a payload -/

variable {b rest s : List UInt8} {m : Mark} {next size start : Nat} {v : UInt8}

theorem getElem?_iff_drop : b[start]? = some v ↔ b.drop start = v :: b.drop (start + 1) := by
  rw [List.getElem?_eq_some_iff]
  constructor
  · rintro ⟨hlt, rfl⟩
    exact drop_eq_getElem_cons hlt
  · intro h
    have hlt : start < b.length := by
      by_contra hge
      rw [drop_of_length_le (by omega)] at h
      cases h
    rw [drop_eq_getElem_cons hlt] at h
    exact ⟨hlt, head_eq_of_cons_eq h⟩

theorem u8_iff : u8 b start = some (v, next) ↔ next = start + 1 ∧ b.drop start = v :: b.drop next := by
  rw [u8]
  constructor
  · intro h
    split at h
    · rename_i w hw
      obtain ⟨rfl, rfl⟩ := h
      exact ⟨rfl, getElem?_iff_drop.mp hw⟩
    · cases h
  · rintro ⟨rfl, h⟩
    rw [getElem?_iff_drop.mpr h]

theorem high_byte (v : UInt16) : (v >>> 8).toUInt8.toNat = v.toNat / 256 := by
  have hv : v.toNat < 65536 := v.toNat_lt
  have hshift : v.toNat >>> 8 = v.toNat / 256 := Nat.shiftRight_eq_div_pow ..
  simp [hshift]
  omega

/-- The two bytes of a word, and the word of two bytes. -/
theorem word_iff {high low : UInt8} {v : UInt16} :
    ((high.toUInt32 <<< 8) ||| low.toUInt32).toUInt16 = v ↔ word v = [high, low] := by
  have hhigh : high.toNat < 256 := high.toNat_lt
  have hlow : low.toNat < 256 := low.toNat_lt
  have hjoin : ((high.toUInt32 <<< 8) ||| low.toUInt32).toUInt16.toNat = high.toNat * 256 + low.toNat := by
    have hor : high.toNat <<< 8 ||| low.toNat = high.toNat <<< 8 + low.toNat :=
      (Nat.shiftLeft_add_eq_or_of_lt hlow high.toNat).symm
    have hwide : high.toNat <<< 8 % 2 ^ 32 = high.toNat <<< 8 := Nat.mod_eq_of_lt (by omega)
    rw [UInt32.toNat_toUInt16, UInt32.toNat_or, UInt32.toNat_shiftLeft, UInt8.toNat_toUInt32, UInt8.toNat_toUInt32]
    change (high.toNat <<< 8 % 2 ^ 32 ||| low.toNat) % 65536 = _
    rw [hwide, hor]
    omega
  rw [← UInt16.toNat_inj, hjoin, word, List.cons.injEq, List.cons.injEq, ← UInt8.toNat_inj,
    ← UInt8.toNat_inj, high_byte, UInt16.toNat_toUInt8]
  constructor
  · intro h
    exact ⟨by omega, by omega, rfl⟩
  · rintro ⟨h1, h2, -⟩
    omega

theorem u16_iff {v : UInt16} :
    u16 b start = some (v, next) ↔ next = start + 2 ∧ b.drop start = word v ++ b.drop next := by
  rw [u16]
  constructor
  · intro h
    split at h
    · rename_i high low hhigh hlow
      simp only [Option.some.injEq, Prod.mk.injEq] at h
      obtain ⟨hv, rfl⟩ := h
      rw [word_iff.mp hv, getElem?_iff_drop.mp hhigh, getElem?_iff_drop.mp hlow]
      exact ⟨rfl, rfl⟩
    · cases h
  · rintro ⟨rfl, h⟩
    have htail : b.drop (start + 1) = v.toUInt8 :: b.drop (start + 2) := by
      rw [← drop_drop, h]
      rfl
    have hhigh : b[start]? = some (v >>> 8).toUInt8 := by
      rw [getElem?_iff_drop, htail, h]
      rfl
    have hlow : b[start + 1]? = some v.toUInt8 := getElem?_iff_drop.mpr htail
    have hv : (((v >>> 8).toUInt8.toUInt32 <<< 8) ||| v.toUInt8.toUInt32).toUInt16 = v := word_iff.mpr rfl
    rw [hhigh, hlow]
    dsimp only
    rw [hv]

/-- A text in the array, in full. -/
def whole {size : Nat} (t : Text size) : List UInt8 := UInt8.ofNat t.chars.length :: t.chars

theorem chars_put (h : 0 < size) (hsize : s.length < size) (hs : ∀ c ∈ s, c ≠ 0) : (Text.put h s).chars = s := by
  have hwhile : s.takeWhile (· ≠ 0) = s := by
    rw [takeWhile_eq_self_iff]
    exact fun c hc => decide_eq_true (hs c hc)
  rw [Text.put]
  dsimp only
  rw [hwhile, take_of_length_le (by omega)]

theorem put_self (h : 0 < size) (t : Text size) : Text.put h t.chars = t := by
  have hchars := chars_put h t.fits t.terminated
  generalize Text.put h t.chars = u at hchars
  obtain ⟨chars', _, _⟩ := t
  subst hchars
  rfl

theorem any_unprintable : s.any (fun c => c < 32 ∨ c > 126) = false ↔ Printable s := by
  rw [any_eq_false, Printable]
  refine forall_congr' fun c => imp_congr_right fun _ => ?_
  simp

theorem text_iff (h : 0 < size) (hsize : size ≤ 256)
    {t : Text size} : Decoder.text h b start = some (t, next) ↔
      next = start + 1 + t.chars.length ∧ b.drop start = whole t ++ b.drop next ∧ Printable t.chars := by
  rw [Decoder.text]
  constructor
  · intro hread
    simp only [bind_eq_bind, bind_eq_some_iff, Prod.exists] at hread
    obtain ⟨n, at_text, hn, hread⟩ := hread
    obtain ⟨rfl, hdrop⟩ := u8_iff.mp hn
    split at hread
    · cases hread
    rename_i hroom
    split at hread
    · cases hread
    rename_i hprint
    obtain ⟨rfl, rfl⟩ := hread
    have hprint := any_unprintable.mp (Bool.not_eq_true _ ▸ hprint)
    have hlength : ((b.drop (start + 1)).take n.toNat).length = n.toNat := by
      rw [length_take, length_drop]
      omega
    have hput : (Text.put h ((b.drop (start + 1)).take n.toNat)).chars = (b.drop (start + 1)).take n.toNat := by
      rw [put_chars h hprint, take_of_length_le (by omega)]
    rw [hput, hlength, whole, hput, hlength, UInt8.ofNat_toNat, cons_append, hdrop]
    refine ⟨rfl, ?_, hprint⟩
    rw [← drop_drop (i := n.toNat), take_append_drop]
  · rintro ⟨rfl, hdrop, hprint⟩
    have hfits := t.fits
    have hn : (UInt8.ofNat t.chars.length).toNat = t.chars.length := by
      rw [UInt8.toNat_ofNat', Nat.mod_eq_of_lt (by omega)]
    have htail : b.drop (start + 1) = t.chars ++ b.drop (start + 1 + t.chars.length) := by
      rw [← drop_drop, hdrop]
      rfl
    have hu8 : u8 b start = some (UInt8.ofNat t.chars.length, start + 1) := by
      rw [u8_iff, htail, hdrop]
      exact ⟨rfl, rfl⟩
    have hroom : ¬ (start + 1 + t.chars.length > b.length ∨ t.chars.length ≥ size) := by
      have hlength := congrArg List.length htail
      rw [length_append, length_drop, length_drop] at hlength
      rintro (hlong | hlarge)
      · cases hchars : t.chars with
        | nil =>
          rw [hchars] at hlong hdrop
          have := congrArg List.length hdrop
          simp [whole] at this hlong
          omega
        | cons c rest =>
          have : 0 < t.chars.length := by rw [hchars]; exact Nat.succ_pos _
          omega
      · omega
    rw [hu8]
    simp only [bind_eq_bind, Option.bind_some, hn]
    rw [if_neg hroom, htail, take_left, any_unprintable.mpr hprint, put_self]
    rfl

/-! A field at the front of what is left, and what is left behind it. -/

theorem u8_of_drop (h : b.drop start = v :: rest) : u8 b start = some (v, start + 1) ∧ b.drop (start + 1) = rest := by
  have hrest : b.drop (start + 1) = rest := by
    rw [← drop_drop, h]
    rfl
  exact ⟨u8_iff.mpr ⟨rfl, hrest ▸ h⟩, hrest⟩

theorem u16_of_drop {v : UInt16} (h : b.drop start = word v ++ rest) :
    u16 b start = some (v, start + 2) ∧ b.drop (start + 2) = rest := by
  have hrest : b.drop (start + 2) = rest := by
    rw [← drop_drop, h]
    rfl
  exact ⟨u16_iff.mpr ⟨rfl, hrest ▸ h⟩, hrest⟩

theorem text_of_drop (hpos : 0 < size) (hsize : size ≤ 256) {t : Text size} (ht : Printable t.chars) (h : b.drop start = whole t ++ rest) :
    Decoder.text hpos b start = some (t, start + 1 + t.chars.length) ∧
      b.drop (start + 1 + t.chars.length) = rest := by
  have hrest : b.drop (start + 1 + t.chars.length) = rest := by
    rw [Nat.add_assoc, ← drop_drop, h]
    exact drop_left' (Nat.add_comm ..)
  exact ⟨(text_iff hpos hsize).mpr ⟨rfl, hrest ▸ h, ht⟩, hrest⟩

/-! ## The payload -/

/-- A mark behind its version and its length, with all of its texts. -/
def record (m : Mark) : List UInt8 :=
  m.kind.value :: m.cell :: m.gauge :: (word m.x ++ (word m.y ++ (word m.width ++ (word m.height ++
    (word m.panel_width ++ (word m.panel_height ++ (whole m.name ++ (whole m.gauge_name ++
      whole m.info))))))))

theorem length_record (m : Mark) : (record m).length =
    18 + m.name.chars.length + m.gauge_name.chars.length + m.info.chars.length := by
  simp only [record, word, whole, length_cons, length_append, length_nil]
  omega

/-- One of the two kinds that have names, and printable texts. -/
structure Legible (m : Mark) : Prop where
  kind : m.kind = .gauge ∨ m.kind = .panel
  name : Printable m.name.chars
  gauge_name : Printable m.gauge_name.chars
  info : Printable m.info.chars

/-- A mark that is not found in a texture yet. -/
def unplaced (m : Mark) : Mark := { m with left := 0, top := 0, rows := 0, pitch_x := 0, pitch_y := 0 }

theorem kind_iff {kind : Kind} : ¬ kind.value > 1 ↔ kind = .gauge ∨ kind = .panel := by
  obtain ⟨value⟩ := kind
  have hcases : ¬ value > 1 ↔ value = 0 ∨ value = 1 := by
    rw [← UInt8.toNat_inj, ← UInt8.toNat_inj]
    change ¬ 1 < value.toNat ↔ value.toNat = 0 ∨ value.toNat = 1
    omega
  simpa [Kind.gauge, Kind.panel] using hcases

theorem bind_some_eq {α β : Type} {o : Option α} {a : α} {f : α → Option β} {r : Option β}
    (h : o = some a) (hr : f a = r) : (o >>= f) = r := by
  rw [h]
  exact hr

/-- What `parse` reads is the record of the mark that it gives, to the last byte. -/
theorem parse_iff : parse b = some m ↔ b.drop 2 = record m ∧ Legible m ∧ unplaced m = m := by
  rw [parse]
  constructor
  · intro h
    obtain ⟨⟨kind, i⟩, hkind, h⟩ := bind_eq_some_iff.mp h
    dsimp only at h
    split at h
    · cases h
    rename_i hnamed
    obtain ⟨⟨cell, i⟩, hcell, h⟩ := bind_eq_some_iff.mp h
    obtain ⟨⟨gauge, i⟩, hgauge, h⟩ := bind_eq_some_iff.mp h
    obtain ⟨⟨x, i⟩, hx, h⟩ := bind_eq_some_iff.mp h
    obtain ⟨⟨y, i⟩, hy, h⟩ := bind_eq_some_iff.mp h
    obtain ⟨⟨width, i⟩, hwidth, h⟩ := bind_eq_some_iff.mp h
    obtain ⟨⟨height, i⟩, hheight, h⟩ := bind_eq_some_iff.mp h
    obtain ⟨⟨panel_width, i⟩, hpw, h⟩ := bind_eq_some_iff.mp h
    obtain ⟨⟨panel_height, i⟩, hph, h⟩ := bind_eq_some_iff.mp h
    obtain ⟨⟨name, i⟩, hname, h⟩ := bind_eq_some_iff.mp h
    obtain ⟨⟨gauge_name, i⟩, hgn, h⟩ := bind_eq_some_iff.mp h
    obtain ⟨⟨info, i⟩, hinfo, h⟩ := bind_eq_some_iff.mp h
    dsimp only at hkind hcell hgauge hx hy hwidth hheight hpw hph hname hgn hinfo h
    split at h
    · rename_i hend
      simp only [Option.some.injEq] at h
      subst h
      obtain ⟨-, hkind⟩ := u8_iff.mp hkind
      obtain ⟨-, hcell⟩ := u8_iff.mp hcell
      obtain ⟨-, hgauge⟩ := u8_iff.mp hgauge
      obtain ⟨-, hx⟩ := u16_iff.mp hx
      obtain ⟨-, hy⟩ := u16_iff.mp hy
      obtain ⟨-, hwidth⟩ := u16_iff.mp hwidth
      obtain ⟨-, hheight⟩ := u16_iff.mp hheight
      obtain ⟨-, hpw⟩ := u16_iff.mp hpw
      obtain ⟨-, hph⟩ := u16_iff.mp hph
      obtain ⟨-, hname, hname'⟩ := (text_iff _ (by decide)).mp hname
      obtain ⟨-, hgn, hgn'⟩ := (text_iff _ (by decide)).mp hgn
      obtain ⟨-, hinfo, hinfo'⟩ := (text_iff _ (by decide)).mp hinfo
      refine ⟨?_, ⟨kind_iff.mp hnamed, hname', hgn', hinfo'⟩, rfl⟩
      rw [hkind, hcell, hgauge, hx, hy, hwidth, hheight, hpw, hph, hname, hgn, hinfo, hend, drop_length, append_nil]
      rfl
    · cases h
  · rintro ⟨hdrop, hlegible, hplace⟩
    have hend : 2 + (record m).length = b.length := by
      have hlength := congrArg List.length hdrop
      rw [length_drop] at hlength
      have : 0 < (record m).length := Nat.succ_pos _
      omega
    have hlength := length_record m
    obtain ⟨hkind, hdrop⟩ := u8_of_drop hdrop
    obtain ⟨hcell, hdrop⟩ := u8_of_drop hdrop
    obtain ⟨hgauge, hdrop⟩ := u8_of_drop hdrop
    obtain ⟨hx, hdrop⟩ := u16_of_drop hdrop
    obtain ⟨hy, hdrop⟩ := u16_of_drop hdrop
    obtain ⟨hwidth, hdrop⟩ := u16_of_drop hdrop
    obtain ⟨hheight, hdrop⟩ := u16_of_drop hdrop
    obtain ⟨hpw, hdrop⟩ := u16_of_drop hdrop
    obtain ⟨hph, hdrop⟩ := u16_of_drop hdrop
    obtain ⟨hname, hdrop⟩ := text_of_drop (by decide) (by decide) hlegible.name hdrop
    obtain ⟨hgn, hdrop⟩ := text_of_drop (by decide) (by decide) hlegible.gauge_name hdrop
    obtain ⟨hinfo, -⟩ := text_of_drop (by decide) (by decide) hlegible.info (hdrop.trans (append_nil _).symm)
    refine bind_some_eq hkind ((if_neg (kind_iff.mpr hlegible.kind)).trans ?_)
    refine bind_some_eq hcell (bind_some_eq hgauge ?_)
    refine bind_some_eq hx (bind_some_eq hy (bind_some_eq hwidth (bind_some_eq hheight ?_)))
    refine bind_some_eq hpw (bind_some_eq hph ?_)
    refine bind_some_eq hname (bind_some_eq hgn (bind_some_eq hinfo ?_))
    exact (if_pos (by omega)).trans (congrArg some hplace)

theorem text_eq (s : List UInt8) (limit : Nat) :
    text s limit = UInt8.ofNat (s.take limit).length :: s.take limit := by
  rw [text, length_take]
  by_cases h : s.length > limit
  · rw [if_pos h, Nat.min_eq_left (by omega)]
  · rw [if_neg h, Nat.min_eq_right (by omega), take_length, take_of_length_le (by omega)]

theorem text_whole (t : Text size) {limit : Nat} (h : t.chars.length ≤ limit) : text t.chars limit = whole t := by
  rw [text_eq, take_of_length_le h]
  rfl

/-- What is left of a mark in its payload: the info text gives way, and the place is not told. -/
def cut (m : Mark) : Mark :=
  { unplaced m with
    info := .put info_room
      (m.info.chars.take (kMaxPayload - (20 + m.name.chars.length + m.gauge_name.chars.length))) }

theorem chars_cut_info (m : Mark) : (cut m).info.chars =
    m.info.chars.take (kMaxPayload - (20 + m.name.chars.length + m.gauge_name.chars.length)) := by
  have hfits := m.info.fits
  refine chars_put info_room ?_ fun c hc => m.info.terminated c (mem_of_mem_take hc)
  rw [length_take]
  omega

theorem fields_eq (m : Mark) : fields m =
    kVersion :: 0 :: m.kind.value :: m.cell :: m.gauge :: (word m.x ++ (word m.y ++ (word m.width ++
      (word m.height ++ (word m.panel_width ++ (word m.panel_height ++
        (whole m.name ++ whole m.gauge_name))))))) := by
  have hname : text m.name.chars (48 - 1) = whole m.name := text_whole _ (Nat.le_of_lt_succ m.name.fits)
  have hgauge : text m.gauge_name.chars (48 - 1) = whole m.gauge_name :=
    text_whole _ (Nat.le_of_lt_succ m.gauge_name.fits)
  rw [fields, hname, hgauge]
  simp only [flatMap_cons, flatMap_nil, append_nil, cons_append, nil_append, append_assoc]

/-- The payload is the version, the length of the rest, and the record of what is left of the mark. -/
theorem encode_payload_record (m : Mark) :
    encode_payload m = kVersion :: UInt8.ofNat (record (cut m)).length :: record (cut m) := by
  have hlength : (fields m).length = 19 + m.name.chars.length + m.gauge_name.chars.length := by
    rw [fields_eq]
    simp only [word, whole, length_cons, length_append, length_nil]
    omega
  have hfits := m.info.fits
  have hinfo : text m.info.chars (info_limit (fields m).length) = whole (cut m).info := by
    have htake : m.info.chars.take (info_limit (fields m).length) = (cut m).info.chars := by
      rw [chars_cut_info, take_eq_take_iff, info_limit_eq, hlength, kMaxPayload]
      omega
    rw [text_eq, htake]
    rfl
  have hall : fields m ++ whole (cut m).info = kVersion :: 0 :: record (cut m) := by
    rw [fields_eq, record]
    simp only [cons_append, append_assoc]
    rfl
  rw [encode_payload_eq, hinfo, hall]
  rfl

theorem parse_encode (h : Legible m) : parse (encode_payload m) = some (cut m) := by
  refine parse_iff.mpr ⟨by rw [encode_payload_record]; rfl, ⟨h.kind, h.name, h.gauge_name, ?_⟩, rfl⟩
  rw [chars_cut_info]
  exact fun c hc => h.info c (mem_of_mem_take hc)

/-- A mark whose record fits the payload loses nothing. -/
theorem cut_of_fits (hplace : unplaced m = m) (h : (record m).length + 2 ≤ kMaxPayload) : cut m = m := by
  rw [length_record, kMaxPayload] at h
  have hinfo : Text.put info_room (m.info.chars.take
      (kMaxPayload - (20 + m.name.chars.length + m.gauge_name.chars.length))) = m.info := by
    rw [take_of_length_le (by rw [kMaxPayload]; omega), put_self]
  rw [cut, hplace, hinfo]

theorem encode_parse (hsize : b.length ≤ kMaxPayload)
    (hversion : b[0]? = some kVersion) (hlength : b[1]? = some (UInt8.ofNat (b.length - 2)))
    (h : parse b = some m) : encode_payload m = b := by
  obtain ⟨hdrop, -, hplace⟩ := parse_iff.mp h
  have hlen : (record m).length = b.length - 2 := by
    rw [← hdrop, length_drop]
  have hb : b = kVersion :: UInt8.ofNat (record m).length :: record m := by
    rw [getElem?_iff_drop] at hversion hlength
    rw [← hdrop, hdrop, hlen, ← hdrop, ← hlength, ← hversion, drop_zero]
  have hcut : cut m = m := by
    refine cut_of_fits hplace ?_
    have := congrArg List.length hb
    simp only [length_cons] at this
    omega
  rw [encode_payload_record, hcut, hb]

end taxi_camera.panel_marks
