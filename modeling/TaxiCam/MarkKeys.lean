-- Keys of displays: what `parse_key` reads from a key is the gauge, the rank and
-- the count it was made from, when they fit the key.
import TaxiCam.MarkIdentity

namespace taxi_camera.mark_identity

open List

/-! ## The rank at the end of a text -/

variable {gauge text : List UInt8} {count rank : Nat} {parsed : ParsedKey} {c : UInt8}

theorem rfind_of_not_mem (h : c ∉ text) : rfind c text = none := by
  induction text with
  | nil => rfl
  | cons x rest ih =>
    rw [mem_cons, not_or] at h
    rw [rfind, ih h.2]
    exact if_neg fun hx => h.1 hx.symm

/-- The last place of a character. -/
theorem rfind_append (before : List UInt8) {after : List UInt8} (h : c ∉ after) :
    rfind c (before ++ c :: after) = some before.length := by
  induction before with
  | nil =>
    rw [nil_append, rfind, rfind_of_not_mem h]
    exact if_pos rfl
  | cons x before ih => rw [cons_append, rfind, ih, length_cons]

theorem not_digit_of (h : c < 48 ∨ 57 < c) : decimal.is_digit c = false := by
  unfold decimal.is_digit
  rw [decide_eq_false_iff_not, not_and_or, UInt8.not_le, UInt8.not_le]
  exact h

theorem not_mem_print (h : decimal.is_digit c = false) (n : Nat) : c ∉ decimal.print n := by
  intro hc
  rw [decimal.print_digits n c hc] at h
  cases h

theorem scan_unsigned_print {n : Nat} (hn : n < 0x100000000) {rest : List UInt8}
    (hrest : ∀ c ∈ rest.head?, decimal.is_digit c = false) :
    scan_unsigned (decimal.print n ++ rest) = some (n, rest) := by
  obtain ⟨htake, hdrop⟩ := decimal.takeWhile_print n hrest
  obtain ⟨d, ds, hprint⟩ := exists_cons_of_ne_nil (decimal.print_ne_nil n)
  have hd : decimal.is_digit d = true := decimal.print_digits n d (hprint ▸ mem_cons_self)
  unfold decimal.is_digit at hd
  rw [decide_eq_true_eq, UInt8.le_iff_toNat_le, UInt8.le_iff_toNat_le] at hd
  have hspace : is_space d = false := by
    unfold is_space
    rw [decide_eq_false_iff_not, UInt8.le_iff_toNat_le, UInt8.le_iff_toNat_le, ← UInt8.toNat_inj]
    have h32 : UInt8.toNat 32 = 32 := rfl
    have h13 : UInt8.toNat 13 = 13 := rfl
    have h48 : UInt8.toNat 48 = 48 := rfl
    omega
  have hsign (c : UInt8) (hc : c.toNat < 48) : (d :: (ds ++ rest)).head? ≠ some c := by
    rintro h
    rw [List.head?_cons, Option.some.injEq] at h
    rw [h] at hd
    have h48 : UInt8.toNat 48 = 48 := rfl
    omega
  unfold scan_unsigned
  rw [hprint, cons_append] at htake hdrop ⊢
  rw [dropWhile_cons_of_neg (by simp [hspace])]
  have hminus := hsign 45 (by decide)
  have hplus := hsign 43 (by decide)
  simp only [hminus, hplus, or_self, if_false, decide_false, htake, hdrop]
  rw [if_neg (cons_ne_nil d ds), ← hprint, decimal.value_print]
  unfold to_unsigned
  rw [if_neg (by omega), if_neg Bool.false_ne_true, Nat.mod_eq_of_lt hn]

theorem scan_rank_print (hr : rank < 0x100000000) (hc : count < 0x100000000) :
    scan_rank (35 :: decimal.print rank ++ 47 :: decimal.print count) = some (rank, count) := by
  have hslash : ∀ c ∈ (47 :: decimal.print count).head?, decimal.is_digit c = false := by
    intro c hc
    rw [List.head?_cons, Option.mem_some_iff] at hc
    rw [← hc]
    exact not_digit_of (by decide)
  have hend : scan_unsigned (decimal.print count) = some (count, []) := by
    have hnone : ∀ c ∈ ([] : List UInt8).head?, decimal.is_digit c = false := nofun
    have h := scan_unsigned_print hc hnone
    rwa [append_nil] at h
  rw [cons_append, scan_rank, scan_unsigned_print hr hslash]
  simp only [hend]

/-- A rank that was printed after a text is found again. -/
theorem ranked_print (text : List UInt8) (hr : rank < count) (hone : 1 < count) (hc : count < 0x100000000) :
    ranked (text ++ (35 :: decimal.print rank ++ 47 :: decimal.print count)) =
      some { gauge := text, rank, count } := by
  have hlast : (35 : UInt8) ∉ decimal.print rank ++ 47 :: decimal.print count := by
    have hdigit : decimal.is_digit 35 = false := not_digit_of (by decide)
    rw [mem_append, mem_cons]
    rintro (h | h | h)
    · exact not_mem_print hdigit rank h
    · exact absurd h (by decide)
    · exact not_mem_print hdigit count h
  unfold ranked
  rw [cons_append, rfind_append text hlast]
  dsimp only
  rw [drop_left, ← cons_append, scan_rank_print (Nat.lt_trans hr hc) hc]
  dsimp only
  rw [if_pos ⟨hone, hr⟩, take_left]

/-! ## Keys -/

/-- What a key keeps of the gauge name. -/
def kept (gauge : List UInt8) (rank count : Nat) : List UInt8 :=
  gauge.take (KeySize - 2 - (if count > 1 then rank_suffix rank count else []).length)

/-- The rank and the count stand in the suffix as they are. -/
def RankFits (rank count : Nat) : Prop :=
  (decimal.print rank).length + (decimal.print count).length ≤ 13

instance (rank count : Nat) : Decidable (RankFits rank count) :=
  inferInstanceAs (Decidable (_ ≤ 13))

theorem rank_suffix_of_fits (h : RankFits rank count) :
    rank_suffix rank count = 35 :: decimal.print rank ++ 47 :: decimal.print count := by
  unfold RankFits at h
  apply take_of_length_le
  simp only [length_append, length_cons]
  omega

theorem kept_isPrefix (gauge : List UInt8) (rank count : Nat) : kept gauge rank count <+: gauge := take_prefix _ _

/-- A key that is not as long as a key can be has the whole gauge name. -/
theorem kept_eq_of_length (h : (make_key gauge rank count).length ≠ KeySize - 1) : kept gauge rank count = gauge := by
  have hsuffix : (if count > 1 then rank_suffix rank count else []).length ≤ 15 := by
    split
    · unfold rank_suffix
      rw [length_take]
      omega
    · exact Nat.zero_le _
  unfold make_key at h
  apply take_of_length_le
  rw [length_append, length_cons, length_take] at h
  unfold KeySize at h ⊢
  omega

theorem parse_key_cons (h : parse_key (64 :: text) = some parsed) : parsed = (ranked text).getD { gauge := text } := by
  simp only [parse_key] at h
  split at h
  · cases h
  split at h
  · cases h
  · exact (Option.some.inj h).symm

/-- What is read from a key. Where the gauge's textures are one, the name must not end in a rank of
its own; where they are several, the rank and the count must fit. -/
theorem parse_make_key (hr : rank < count) (hc : count < 0x100000000)
    (hone : count = 1 → ranked (gauge.take (KeySize - 2)) = none)
    (hfits : 1 < count → RankFits rank count)
    (h : parse_key (make_key gauge rank count) = some parsed) :
    parsed = { gauge := kept gauge rank count, rank, count } := by
  by_cases hmany : 1 < count
  · have hsuffix := rank_suffix_of_fits (hfits hmany)
    have hkey : make_key gauge rank count = 64 :: (kept gauge rank count ++
        (35 :: decimal.print rank ++ 47 :: decimal.print count)) := by
      unfold make_key kept
      rw [if_pos hmany, hsuffix, cons_append]
    rw [hkey] at h
    rw [parse_key_cons h, ranked_print _ hr hmany hc, Option.getD_some]
  obtain rfl : count = 1 := by omega
  obtain rfl : rank = 0 := by omega
  have hkept : kept gauge 0 1 = gauge.take (KeySize - 2) := rfl
  have hkey : make_key gauge 0 1 = 64 :: kept gauge 0 1 := by
    unfold make_key kept
    rw [if_neg hmany, append_nil]
  rw [hkey] at h
  rw [parse_key_cons h, hkept, hone rfl, Option.getD_none]

end taxi_camera.mark_identity
