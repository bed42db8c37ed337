-- Compression is lossless: every match that the chains give is a stretch that
-- the input repeats, and inflating the stream gives the input back.
import TaxiCam.DeflateBits

namespace taxi_camera.standalone

open deflate_detail bit_streams rfc1951 lz77 List

/-! ## The tables -/

theorem last_at_most_spec (table : List Nat) (value l : Nat) (hfirst : table.getD 0 0 ≤ value) :
    last_at_most table value l ≤ l ∧ table.getD (last_at_most table value l) 0 ≤ value ∧
      (last_at_most table value l < l → value < table.getD (last_at_most table value l + 1) 0) := by
  induction l with
  | zero => exact ⟨Nat.le_refl 0, hfirst, fun h => absurd h (Nat.lt_irrefl 0)⟩
  | succ l ih =>
    obtain ⟨hle, hvalue, hnext⟩ := ih
    rw [last_at_most]
    split
    · rename_i hbig
      refine ⟨Nat.le_succ_of_le hle, hvalue, fun _ => ?_⟩
      rcases Nat.lt_or_eq_of_le hle with hlt | heq
      · exact hnext hlt
      · rwa [heq]
    rename_i hsmall
    exact ⟨Nat.le_refl _, Nat.not_lt.mp hsmall, fun h => absurd h (Nat.lt_irrefl _)⟩

/-- The lengths of the code are those of the RFC, and no length is left out between two of them. -/
theorem length_tables : ∀ l < 29, length_base (257 + l) = LengthBase.getD l 0 ∧
    length_extra (257 + l) = LengthExtra.getD l 0 ∧
    (l < 28 → LengthBase.getD (l + 1) 0 ≤ LengthBase.getD l 0 + 2 ^ LengthExtra.getD l 0) := by
  decide +kernel

theorem distance_tables : ∀ d < 30, distance_base d = DistanceBase.getD d 0 ∧
    distance_extra d = DistanceExtra.getD d 0 ∧
    (d < 29 → DistanceBase.getD (d + 1) 0 ≤ DistanceBase.getD d 0 + 2 ^ DistanceExtra.getD d 0) := by
  decide +kernel

variable {w : BitWriter} {distance length : Nat}

theorem length_code (hmin : 3 ≤ length) (hmax : length ≤ 258) :
    let l := last_at_most LengthBase length (LengthBase.length - 1)
    l < 29 ∧ LengthBase.getD l 0 ≤ length ∧ length - LengthBase.getD l 0 < 2 ^ LengthExtra.getD l 0 := by
  obtain ⟨hle, hvalue, hnext⟩ := last_at_most_spec LengthBase length (LengthBase.length - 1) hmin
  intro l
  change LengthBase.getD l 0 ≤ length at hvalue
  refine ⟨Nat.lt_succ_of_le hle, hvalue, ?_⟩
  rcases Nat.lt_or_eq_of_le hle with hlt | heq
  · have hstep := (length_tables l (Nat.lt_succ_of_le hle)).2.2 hlt
    have := hnext hlt
    change length < LengthBase.getD (l + 1) 0 at this
    omega
  have hl : l = 28 := heq
  rw [hl] at hvalue ⊢
  have hbase : LengthBase.getD 28 0 = 258 := rfl
  rw [hbase] at hvalue ⊢
  have hpos := Nat.two_pow_pos (LengthExtra.getD 28 0)
  omega

theorem distance_code (hmin : 1 ≤ distance) (hmax : distance ≤ 32768) :
    let d := last_at_most DistanceBase distance (DistanceBase.length - 1)
    d < 30 ∧ DistanceBase.getD d 0 ≤ distance ∧ distance - DistanceBase.getD d 0 < 2 ^ DistanceExtra.getD d 0 := by
  obtain ⟨hle, hvalue, hnext⟩ := last_at_most_spec DistanceBase distance (DistanceBase.length - 1) hmin
  intro d
  change DistanceBase.getD d 0 ≤ distance at hvalue
  refine ⟨Nat.lt_succ_of_le hle, hvalue, ?_⟩
  rcases Nat.lt_or_eq_of_le hle with hlt | heq
  · have hstep := (distance_tables d (Nat.lt_succ_of_le hle)).2.2 hlt
    have := hnext hlt
    change distance < DistanceBase.getD (d + 1) 0 at this
    omega
  have hd : d = 29 := heq
  rw [hd] at hvalue ⊢
  have hbase : DistanceBase.getD 29 0 = 24577 := rfl
  have hextra : DistanceExtra.getD 29 0 = 13 := rfl
  rw [hbase] at hvalue
  rw [hbase, hextra]
  omega

/-- A match is written as the RFC has it. -/
theorem put_match_codes (h : w.Ready)
    (hlength : 3 ≤ length ∧ length ≤ 258) (hdistance : 1 ≤ distance ∧ distance ≤ 32768) :
    (put_match w length distance).Ready ∧ ∃ code,
      (put_match w length distance).bits = w.bits ++ code ∧ Codes code (.copy length distance) := by
  obtain ⟨hl, hlbase, hlextra⟩ := length_code hlength.1 hlength.2
  obtain ⟨hd, hdbase, hdextra⟩ := distance_code hdistance.1 hdistance.2
  unfold put_match
  generalize last_at_most LengthBase length (LengthBase.length - 1) = l at *
  generalize last_at_most DistanceBase distance (DistanceBase.length - 1) = d at *
  obtain ⟨hready, hbits⟩ := h.symbol (257 + l)
  obtain ⟨hready', hbits'⟩ := hready.put hlextra
  obtain ⟨hready'', hbits''⟩ := hready'.code d 5
  obtain ⟨hdone, hall⟩ := hready''.put hdextra
  obtain ⟨hbase, hextra, -⟩ := length_tables l hl
  obtain ⟨hfar, hmore, -⟩ := distance_tables d hd
  rw [← hextra] at hlextra
  rw [← hmore] at hdextra
  have hsymbol : 257 ≤ 257 + l ∧ 257 + l ≤ 285 := by omega
  have hcodes := codes_copy hsymbol (Nat.le_of_lt_succ hd) hlextra hdextra
  rw [hextra, hmore, hbase, hfar, Nat.add_sub_cancel' hlbase, Nat.add_sub_cancel' hdbase] at hcodes
  refine ⟨hdone, _, ?_, hcodes⟩
  rw [hall, hbits'', hbits', hbits, append_assoc, append_assoc, append_assoc]

/-! ## Matches -/

variable {input : List UInt8} {t : Chains} {i limit : Nat}

/-- The chains hold positions before `i` only. -/
def Chains.Before (t : Chains) (i : Nat) : Prop :=
  (∀ h, t.head h < i) ∧ ∀ slot, t.previous slot < i

theorem before_new : ({} : Chains).Before 0 := ⟨fun _ => Int.negSucc_lt_zero 0, fun _ => Int.negSucc_lt_zero 0⟩

theorem Chains.Before.insert (h : t.Before i) : (insert input t i).Before (i + 1) := by
  have hgrow {a : Int} (ha : a < i) : a < (i + 1 : Nat) := by omega
  unfold standalone.insert
  split
  · exact ⟨fun x => hgrow (h.1 x), fun x => hgrow (h.2 x)⟩
  refine ⟨fun x => ?_, fun x => ?_⟩
  · dsimp only
    rw [Function.update_apply]
    split
    · omega
    · exact hgrow (h.1 x)
  · dsimp only
    rw [Function.update_apply]
    split
    · exact hgrow (h.1 _)
    · exact hgrow (h.2 x)

theorem Chains.Before.insert_all (h : t.Before i) (k : Nat) : (insert_all input i k t).Before (i + k) := by
  induction k with
  | zero => exact h
  | succ k ih => exact ih.insert

theorem match_length_spec (input : List UInt8) (c i limit length : Nat) (h : length ≤ limit) :
    match_length input c i limit length ≤ limit ∧ ∀ k, length ≤ k →
      k < match_length input c i limit length → input[c + k]? = input[i + k]? := by
  induction length using match_length.induct input c i limit with
  | case1 length hsame ih =>
    obtain ⟨hle, hall⟩ := ih hsame.1
    rw [match_length, if_pos hsame]
    refine ⟨hle, fun k hk hlt => ?_⟩
    rcases Nat.lt_or_eq_of_le hk with hk | rfl
    · exact hall k hk hlt
    · exact hsame.2
  | case2 length hdiff =>
    rw [match_length, if_neg hdiff]
    exact ⟨h, fun k hk hlt => absurd hlt (Nat.not_lt.mpr hk)⟩

/-- A stretch that the input has had before, inside the window. -/
def Repeats (input : List UInt8) (i limit : Nat) (best : Nat × Nat) : Prop :=
  best.1 = 0 ∨ best.1 ≤ limit ∧ 0 < best.2 ∧ best.2 ≤ i ∧ best.2 ≤ Window ∧
    ∀ k < best.1, input[i - best.2 + k]? = input[i + k]?

theorem repeats_match {c : Nat} (hc : c < i) (hnear : i - c ≤ Window) :
    Repeats input i limit (match_length input c i limit 0, i - c) := by
  obtain ⟨hle, hall⟩ := match_length_spec input c i limit 0 (Nat.zero_le _)
  refine .inr ⟨hle, by dsimp only; omega, Nat.sub_le .., hnear, fun k hk => ?_⟩
  rw [Nat.sub_sub_self (Nat.le_of_lt hc)]
  exact hall k (Nat.zero_le _) hk

theorem search_repeats (hbefore : t.Before i) {candidate : Int} (hcandidate : candidate < i)
    {best : Nat × Nat} (hbest : Repeats input i limit best) (chain : Nat) :
    Repeats input i limit (search input t i limit chain candidate best) := by
  induction chain generalizing candidate best with
  | zero => exact hbest
  | succ chain ih =>
    rw [search]
    split
    · exact hbest
    rename_i hpos
    have hc : candidate.toNat < i := by omega
    have hnext : t.previous (candidate.toNat &&& (Window - 1)) < i := hbefore.2 _
    dsimp only
    split
    · exact hbest
    rename_i hnear
    have hmatch : Repeats input i limit (match_length input candidate.toNat i limit 0, i - candidate.toNat) :=
      repeats_match hc (Nat.not_lt.mp hnear)
    split
    · split
      · split
        · exact hmatch
        · exact ih hnext hmatch
      · exact ih hnext hbest
    · exact ih hnext hbest

/-- A match that is long enough to be written is a copy of what has gone before. -/
theorem best_match_copies (hbefore : t.Before i) (hlong : MinMatch ≤ (best_match input t i).1) :
    (best_match input t i).1 ≤ 258 ∧ 1 ≤ (best_match input t i).2 ∧
      (best_match input t i).2 ≤ 32768 ∧ i + (best_match input t i).1 ≤ input.length ∧
      expand (input.take i) [.copy (best_match input t i).1 (best_match input t i).2] =
        some (input.take (i + (best_match input t i).1)) := by
  have hrepeats : Repeats input i (min MaxMatch (input.length - i)) (best_match input t i) := by
    unfold best_match
    split
    · exact search_repeats hbefore (hbefore.1 _) (.inl rfl) _
    · exact .inl rfl
  have hfits : i + MinMatch ≤ input.length := by
    by_contra hshort
    unfold best_match at hlong
    rw [if_neg hshort] at hlong
    exact absurd hlong (by decide)
  generalize best_match input t i = best at *
  rw [MinMatch] at hlong hfits
  rcases hrepeats with hzero | ⟨hle, hpos, hback, hnear, hsame⟩
  · omega
  rw [MaxMatch] at hle
  have hlength : (input.take i).length = i := by
    rw [length_take]
    omega
  refine ⟨by omega, hpos, hnear, by omega, ?_⟩
  rw [expand, Token.expand, hlength, if_pos ⟨hpos, hback⟩, Option.bind_some, expand,
    copied_take hpos hback (by omega) hsame]

/-! ## The loop -/

/-- The tokens that the loop writes from a position on expand to the whole input. -/
theorem deflate_from_tokens (hready : w.Ready) (hbefore : t.Before i) (hi : i ≤ input.length) :
    (deflate_from input i t w).Ready ∧ ∃ pairs : List (List Bool × Token UInt8),
      (deflate_from input i t w).bits = w.bits ++ pairs.flatMap (·.1) ∧
      (∀ pair ∈ pairs, Codes pair.1 pair.2) ∧
      expand (input.take i) (pairs.map (·.2)) = some input := by
  induction hn : input.length - i using Nat.strong_induction_on generalizing i t w with
  | _ n ih =>
    rw [deflate_from]
    split
    · rename_i hlt
      dsimp only
      split
      · rename_i hlong
        obtain ⟨hmax, hpos, hnear, hend, hcopy⟩ := best_match_copies hbefore hlong
        have hmin : 3 ≤ (best_match input t i).1 := hlong
        obtain ⟨hready', code, hbits, hcode⟩ := put_match_codes hready ⟨hmin, hmax⟩ ⟨hpos, hnear⟩
        obtain ⟨hdone, pairs, hpairs, hcodes, hexpand⟩ := ih _ (by omega) hready' (hbefore.insert_all _) hend rfl
        refine ⟨hdone, (code, _) :: pairs, ?_, forall_mem_cons.mpr ⟨hcode, hcodes⟩, ?_⟩
        · rw [hpairs, hbits, flatMap_cons, append_assoc]
        · rw [expand, Option.bind_eq_some_iff] at hcopy
          obtain ⟨next, hnext, hlast⟩ := hcopy
          obtain rfl := Option.some.inj hlast
          rw [map_cons, expand, hnext, Option.bind_some, hexpand]
      obtain ⟨hready', hbits⟩ := hready.symbol (byte input i)
      obtain ⟨hdone, pairs, hpairs, hcodes, hexpand⟩ := ih _ (by omega) hready' hbefore.insert hlt rfl
      have hbyte : byte input i = input[i].toNat := by
        rw [byte, getElem?_eq_getElem hlt]
        rfl
      rw [hbyte] at hbits
      refine ⟨hdone, (fixed_code input[i].toNat, .literal input[i]) :: pairs, ?_,
        forall_mem_cons.mpr ⟨codes_literal _, hcodes⟩, ?_⟩
      · rw [hpairs, hbyte, hbits, flatMap_cons, append_assoc]
      · rw [map_cons, expand, Token.expand, Option.bind_some, take_append_getElem hlt]
        exact hexpand
    · rename_i hend
      refine ⟨hready, [], (append_nil _).symm, by simp, ?_⟩
      rw [take_of_length_le (by omega)]
      rfl

/-- The stream is one block of tokens that expand to the input. -/
theorem deflate_fixed_block (input : List UInt8) :
    ∃ (pairs : List (List Bool × Token UInt8)) (padding : List Bool),
      (deflate_fixed input).flatMap byte_bits =
        lsb 1 1 ++ (lsb 2 1 ++ (pairs.flatMap (·.1) ++ (fixed_code 256 ++ padding))) ∧
      (∀ pair ∈ pairs, Codes pair.1 pair.2) ∧ expand [] (pairs.map (·.2)) = some input ∧
      padding.length < 8 := by
  obtain ⟨hnew, hempty⟩ := BitWriter.ready_new
  obtain ⟨hfinal, hfinalbits⟩ := hnew.put (show 1 < 2 ^ 1 by decide)
  obtain ⟨hkind, hkindbits⟩ := hfinal.put (show 1 < 2 ^ 2 by decide)
  obtain ⟨hready, pairs, hbits, hcodes, hexpand⟩ := deflate_from_tokens hkind before_new (Nat.zero_le input.length)
  obtain ⟨hend, hendbits⟩ := hready.symbol 256
  obtain ⟨padding, hstream, hpadding⟩ := hend.finish
  refine ⟨pairs, padding, ?_, hcodes, hexpand, hpadding⟩
  rw [deflate_fixed, hstream, hendbits, hbits, hkindbits, hfinalbits, hempty]
  simp only [nil_append, append_assoc]

theorem compression_is_lossless (input : List UInt8) : inflate (deflate_fixed input) = some input := by
  obtain ⟨pairs, padding, hbits, hcodes, hexpand, hpadding⟩ := deflate_fixed_block input
  exact inflate_block_of_tokens hcodes hexpand hpadding hbits

end taxi_camera.standalone
