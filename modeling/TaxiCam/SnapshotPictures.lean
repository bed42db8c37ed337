-- The shrunk picture: its size, the boxes that tile the source, the means of their
-- channels, and the file that gives the picture back.
import TaxiCam.DisplaySnapshot
import TaxiCam.BmpFormat
import Mathlib.Algebra.Order.BigOperators.Group.Finset
import Mathlib.Order.Interval.Finset.Nat
import Mathlib.Algebra.Order.Ring.Rat
import Mathlib.Algebra.Group.Action.Defs
import Mathlib.Data.Nat.Cast.Order.Field
import Mathlib.Tactic.Linarith

namespace taxi_camera.standalone.display_snapshot

open buffers List
open UInt32 (le_iff_toNat_le lt_iff_toNat_lt toNat_lt toNat_toUInt64)
open UInt64 (toNat_add toNat_div toNat_mul toNat_ofNat_of_lt')

/-! ## Numbers -/

theorem toNat_larger (a b : UInt32) : (larger_of a b).toNat = max a.toNat b.toNat := by
  unfold larger_of
  split
  · rename_i hlt
    have hnat := lt_iff_toNat_lt.mp hlt
    omega
  rename_i hge
  have hnat := mt lt_iff_toNat_lt.mpr hge
  omega

/-- A product of two 32-bit numbers, and a third, are exact in 64 bits. -/
theorem product_lt {a b c : Nat} (ha : a < 2 ^ 32) (hb : b < 2 ^ 32) (hc : c < 2 ^ 32) : a * b + c < 2 ^ 64 := by
  have hmul : a * b ≤ (2 ^ 32 - 1) * (2 ^ 32 - 1) := Nat.mul_le_mul (by omega) (by omega)
  omega

/-! ## Sizes -/

/-- An edge of `smaller * limit / larger`, rounded, is no longer than the limit and the source. -/
theorem toNat_fit_edge {smaller larger limit : UInt32} (hs : 0 < smaller.toNat) (hm : 0 < limit.toNat)
    (hsl : smaller ≤ larger) (hlimit : limit < larger) :
    0 < (fit_edge smaller larger limit).toNat ∧ (fit_edge smaller larger limit).toNat ≤ limit.toNat ∧
      (fit_edge smaller larger limit).toNat ≤ smaller.toNat := by
  have hsl' : smaller.toNat ≤ larger.toNat := le_iff_toNat_le.mp hsl
  have hlimit' : limit.toNat < larger.toNat := lt_iff_toNat_lt.mp hlimit
  have hlarge := larger.toNat_lt
  have hquotient : (smaller.toNat * limit.toNat + larger.toNat / 2) / larger.toNat ≤ limit.toNat ∧
      (smaller.toNat * limit.toNat + larger.toNat / 2) / larger.toNat ≤ smaller.toNat := by
    have hlast {a b : Nat} (ha : a ≤ larger.toNat) : (a * b + larger.toNat / 2) / larger.toNat ≤ b := by
      refine Nat.lt_succ_iff.mp ((Nat.div_lt_iff_lt_mul (by omega)).mpr ?_)
      have hmul : a * b ≤ larger.toNat * b := Nat.mul_le_mul_right _ ha
      rw [Nat.succ_mul, Nat.mul_comm b]
      omega
    refine ⟨hlast hsl', ?_⟩
    rw [Nat.mul_comm]
    exact hlast (Nat.le_of_lt hlimit')
  have hnat : (((smaller.toUInt64 * limit.toUInt64 + (larger / 2).toUInt64) / larger.toUInt64).toUInt32).toNat =
      (smaller.toNat * limit.toNat + larger.toNat / 2) / larger.toNat := by
    have hbound := product_lt smaller.toNat_lt limit.toNat_lt (show larger.toNat / 2 < 2 ^ 32 by omega)
    have htwo : (2 : UInt32).toNat = 2 := rfl
    rw [UInt64.toNat_toUInt32, toNat_div, toNat_add, toNat_mul, toNat_toUInt64,
      toNat_toUInt64, toNat_toUInt64, toNat_toUInt64, UInt32.toNat_div, htwo]
    rw [Nat.mod_eq_of_lt (show smaller.toNat * limit.toNat < 2 ^ 64 by omega), Nat.mod_eq_of_lt hbound]
    exact Nat.mod_eq_of_lt (by omega)
  have hone : (1 : UInt32).toNat = 1 := rfl
  rw [fit_edge, toNat_larger, hnat, hone]
  omega

/-- A picture, within the limit, and no larger than the source. -/
theorem fit_snapshot_spec {width height limit : UInt32} (hw : 0 < width.toNat) (hh : 0 < height.toNat)
    (hm : 0 < limit.toNat) :
    (0 < (fit_snapshot width height limit).1.toNat ∧ 0 < (fit_snapshot width height limit).2.toNat) ∧
      ((fit_snapshot width height limit).1 ≤ limit ∧ (fit_snapshot width height limit).2 ≤ limit) ∧
      (fit_snapshot width height limit).1 ≤ width ∧ (fit_snapshot width height limit).2 ≤ height := by
  have hpositive {v : UInt32} (hv : 0 < v.toNat) : v ≠ 0 := by
    rintro rfl
    exact absurd hv (Nat.lt_irrefl 0)
  unfold fit_snapshot
  simp only [le_iff_toNat_le, toNat_larger]
  split
  · rename_i hsmall
    rcases hsmall with h | h | h | h
    · exact absurd h (hpositive hw)
    · exact absurd h (hpositive hh)
    · exact absurd h (hpositive hm)
    dsimp only
    omega
  rename_i hlarge
  split
  · rename_i hwide
    have hwide' : height.toNat ≤ width.toNat := le_iff_toNat_le.mp hwide
    have hfit := toNat_fit_edge hh hm hwide (lt_iff_toNat_lt.mpr (by omega))
    dsimp only
    omega
  rename_i htall
  have htall' : width.toNat < height.toNat := by
    have := mt le_iff_toNat_le.mpr htall
    omega
  have hfit := toNat_fit_edge hw hm (le_iff_toNat_le.mpr (Nat.le_of_lt htall')) (lt_iff_toNat_lt.mpr (by omega))
  dsimp only
  omega

/-! ## Boxes -/

variable {bytes count n start v : Nat} {f : Nat → Nat}

/-- Rising bounds cut what is between the first and the last into one piece after the other. -/
theorem exists_unique_cut {p : Nat} (hmono : Monotone f) (hlow : f 0 ≤ p) (hhigh : p < f n) :
    ∃! i, i < n ∧ f i ≤ p ∧ p < f (i + 1) := by
  induction n with
  | zero => exact absurd hhigh (Nat.not_lt.mpr hlow)
  | succ n ih =>
    by_cases hin : p < f n
    · obtain ⟨i, ⟨hi, hfi⟩, hunique⟩ := ih hin
      refine ⟨i, ⟨Nat.lt_succ_of_lt hi, hfi⟩, fun j ⟨_, hfj⟩ => hunique j ⟨?_, hfj⟩⟩
      by_contra hge
      exact absurd (hmono (Nat.le_of_not_lt hge)) (by omega)
    refine ⟨n, ⟨Nat.lt_succ_self n, Nat.le_of_not_lt hin, hhigh⟩, fun j ⟨hj, hfj⟩ => ?_⟩
    by_contra hne
    have hlt : j + 1 ≤ n := by omega
    exact absurd (hmono hlt) (by omega)

/-- Where box `i` of `count` over `size` begins. -/
def cut (count size i : Nat) : Nat := i * size / count

theorem cut_mono (count size : Nat) : Monotone (cut count size) := fun _ _ h =>
  Nat.div_le_div_right (Nat.mul_le_mul_right size h)

theorem cut_last (size : Nat) (h : 0 < count) : cut count size count = size := Nat.mul_div_cancel_left size h

/-- No box is empty where there are no more boxes than source pixels. -/
theorem cut_lt {size : Nat} (i : Nat) (hcount : 0 < count) (h : count ≤ size) :
    cut count size i < cut count size (i + 1) := by
  unfold cut
  rw [Nat.succ_mul]
  calc i * size / count < i * size / count + 1 := Nat.lt_succ_self _
    _ = (i * size + count) / count := (Nat.add_div_right _ hcount).symm
    _ ≤ (i * size + size) / count := Nat.div_le_div_right (Nat.add_le_add_left h _)

section
variable {i count size : UInt32}

theorem toNat_cut (hi : i.toNat ≤ count.toNat) (hcount : 0 < count.toNat) :
    ((i.toUInt64 * size.toUInt64 / count.toUInt64).toUInt32).toNat = cut count.toNat size.toNat i.toNat := by
  have hbound := product_lt i.toNat_lt size.toNat_lt (show 0 < 2 ^ 32 by omega)
  have hsize := size.toNat_lt
  have hlast : cut count.toNat size.toNat i.toNat ≤ size.toNat := by
    rw [← cut_last size.toNat hcount]
    refine (cut_mono _ _ hi).trans ?_
    rw [cut_last _ hcount]
  rw [UInt64.toNat_toUInt32, toNat_div, toNat_mul, toNat_toUInt64, toNat_toUInt64,
    toNat_toUInt64, Nat.mod_eq_of_lt (show i.toNat * size.toNat < 2 ^ 64 by omega)]
  exact Nat.mod_eq_of_lt (by unfold cut at hlast; omega)

theorem toNat_box_begin (hi : i.toNat < count.toNat) :
    (box_begin i count size).toNat = cut count.toNat size.toNat i.toNat :=
  toNat_cut (Nat.le_of_lt hi) (by omega)

theorem toNat_box_end (hi : i.toNat < count.toNat) (h : count ≤ size) :
    (box_end i count size).toNat = cut count.toNat size.toNat (i.toNat + 1) := by
  have hcount := count.toNat_lt
  have hone : (1 : UInt32).toNat = 1 := rfl
  have hnext : (i + 1).toNat = i.toNat + 1 := by
    rw [UInt32.toNat_add, hone, Nat.mod_eq_of_lt (by omega)]
  have hlt := cut_lt i.toNat (show 0 < count.toNat by omega) (le_iff_toNat_le.mp h)
  have hlast : cut count.toNat size.toNat (i.toNat + 1) ≤ size.toNat := by
    have hle := cut_mono count.toNat size.toNat (show i.toNat + 1 ≤ count.toNat by omega)
    rwa [cut_last _ (by omega)] at hle
  have hsize := size.toNat_lt
  have hbegin : (box_begin i count size + 1).toNat = cut count.toNat size.toNat i.toNat + 1 := by
    rw [UInt32.toNat_add, toNat_box_begin hi, hone, Nat.mod_eq_of_lt (by omega)]
  rw [box_end, toNat_larger, hbegin, toNat_cut (by omega) (by omega), hnext]
  omega

end

/-! ## Sums -/

/-- A channel of a source pixel. -/
def source (pixels : List UInt8) (row_pitch : UInt64) (channel sx sy : Nat) : Nat :=
  (pixels.getD (sy * row_pitch.toNat + sx * 4 + channel) 0).toNat

/-- The channel over a box. -/
def total (pixels : List UInt8) (row_pitch : UInt64) (x0 x1 y0 y1 channel : Nat) : Nat :=
  ∑ sy ∈ Finset.Ico y0 y1, ∑ sx ∈ Finset.Ico x0 x1, source pixels row_pitch channel sx sy

section
variable {pixels : List UInt8} {row_pitch : UInt64} {width height : Nat}

/-- A source with all its pixels in the buffer; the last row may end with its last pixel. -/
structure Readable (pixels : List UInt8) (row_pitch : UInt64) (width height : Nat) : Prop where
  pitch : width * 4 ≤ row_pitch.toNat
  rows : (height - 1) * row_pitch.toNat + width * 4 ≤ pixels.length
  memory : pixels.length < 2 ^ 64

variable {channel sx sy : Nat}

theorem Readable.inside (h : Readable pixels row_pitch width height) (hx : sx < width)
    (hy : sy < height) (hc : channel < 4) : sy * row_pitch.toNat + sx * 4 + channel < pixels.length := by
  have hrow : sy * row_pitch.toNat ≤ (height - 1) * row_pitch.toNat := Nat.mul_le_mul_right _ (by omega)
  have hrows := h.rows
  omega

/-- No offset of a byte leaves the buffer or its type. -/
theorem Readable.offset (h : Readable pixels row_pitch width height) (hx : sx < width)
    (hy : sy < height) (hc : channel < 4) :
    (byte_offset row_pitch sx sy channel).toNat = sy * row_pitch.toNat + sx * 4 + channel := by
  have hinside := h.inside hx hy hc
  have hmemory := h.memory
  have hpitch := h.pitch
  have hfour : (4 : UInt64).toNat = 4 := rfl
  have hsy : sy < 2 ^ 64 := by
    have hrow : sy * 1 ≤ sy * row_pitch.toNat := Nat.mul_le_mul_left _ (by omega)
    omega
  have hmul : (UInt64.ofNat sy * row_pitch).toNat = sy * row_pitch.toNat := by
    rw [toNat_mul, toNat_ofNat_of_lt' (by exact hsy), Nat.mod_eq_of_lt (by omega)]
  have hfour_mul : (UInt64.ofNat sx * 4).toNat = sx * 4 := by
    rw [toNat_mul, toNat_ofNat_of_lt' (by change sx < 2 ^ 64; omega), hfour, Nat.mod_eq_of_lt (by omega)]
  have hchannel : (UInt64.ofNat channel).toNat = channel := toNat_ofNat_of_lt' (by change channel < 2 ^ 64; omega)
  rw [byte_offset, toNat_add, toNat_add, hmul, hfour_mul, hchannel,
    Nat.mod_eq_of_lt (show sy * row_pitch.toNat + sx * 4 < 2 ^ 64 by omega), Nat.mod_eq_of_lt (by omega)]

theorem Readable.read (h : Readable pixels row_pitch width height) (hx : sx < width)
    (hy : sy < height) (hc : channel < 4) :
    (display_snapshot.read pixels (byte_offset row_pitch sx sy channel)).toNat =
      source pixels row_pitch channel sx sy := by
  rw [display_snapshot.read, h.offset hx hy hc, source]

end

/-- A loop that adds numbers, in 64 bits. -/
theorem toNat_foldl_add {l : List Nat} {step : UInt64 → Nat → UInt64} {sum : UInt64}
    (hstep : ∀ sum, ∀ a ∈ l, sum.toNat + f a < 2 ^ 64 → (step sum a).toNat = sum.toNat + f a)
    (hroom : sum.toNat + (l.map f).sum < 2 ^ 64) : (l.foldl step sum).toNat = sum.toNat + (l.map f).sum := by
  induction l generalizing sum with
  | nil => simp
  | cons a l ih =>
    rw [map_cons, sum_cons] at hroom
    have hone := hstep sum a mem_cons_self (by omega)
    rw [foldl_cons, ih (fun sum b hb => hstep sum b (mem_cons_of_mem _ hb)) (by omega), hone,
      map_cons, sum_cons, Nat.add_assoc]

theorem sum_Ico_eq (f : Nat → Nat) (a b : Nat) : ∑ i ∈ Finset.Ico a b, f i = ((List.range' a (b - a)).map f).sum := rfl

theorem total_le (pixels : List UInt8) (row_pitch : UInt64) (x0 x1 y0 y1 channel : Nat) :
    total pixels row_pitch x0 x1 y0 y1 channel ≤ 255 * ((y1 - y0) * (x1 - x0)) := by
  have hbyte (sx sy : Nat) : source pixels row_pitch channel sx sy ≤ 255 := Nat.lt_succ_iff.mp (UInt8.toNat_lt _)
  have hrow (sy : Nat) : ∑ sx ∈ Finset.Ico x0 x1, source pixels row_pitch channel sx sy ≤ (x1 - x0) * 255 := by
    refine (Finset.sum_le_card_nsmul _ _ 255 fun sx _ => hbyte sx sy).trans ?_
    rw [Nat.card_Ico, smul_eq_mul]
  refine (Finset.sum_le_card_nsmul _ _ _ fun sy _ => hrow sy).trans ?_
  rw [Nat.card_Ico, smul_eq_mul, ← Nat.mul_assoc, Nat.mul_comm]

/-- The sums are exact. -/
theorem toNat_box_sum {pixels : List UInt8} {row_pitch : UInt64} {width height : Nat} {x0 x1 y0 y1 : UInt32}
    {channel : Nat} (h : Readable pixels row_pitch width height) (hx : x1.toNat ≤ width) (hy : y1.toNat ≤ height)
    (hc : channel < 4) (hroom : 255 * ((y1.toNat - y0.toNat) * (x1.toNat - x0.toNat)) < 2 ^ 64) :
    (box_sum pixels row_pitch x0 x1 y0 y1 channel).toNat =
      total pixels row_pitch x0.toNat x1.toNat y0.toNat y1.toNat channel := by
  have htotal := total_le pixels row_pitch x0.toNat x1.toNat y0.toNat y1.toNat channel
  have hrow (sy : Nat) (hsy : sy ∈ List.range' y0.toNat (y1.toNat - y0.toNat)) (sum : UInt64)
      (hfits : sum.toNat + ∑ sx ∈ Finset.Ico x0.toNat x1.toNat, source pixels row_pitch channel sx sy < 2 ^ 64) :
      ((List.range' x0.toNat (x1.toNat - x0.toNat)).foldl (fun sum sx =>
        sum + (read pixels (byte_offset row_pitch sx sy channel)).toUInt64) sum).toNat =
      sum.toNat + ∑ sx ∈ Finset.Ico x0.toNat x1.toNat, source pixels row_pitch channel sx sy := by
    rw [sum_Ico_eq] at hfits ⊢
    refine toNat_foldl_add (fun sum sx hsx hone => ?_) hfits
    have hsy' := mem_range'_1.mp hsy
    have hsx' := mem_range'_1.mp hsx
    have hread := h.read (show sx < width by omega) (show sy < height by omega) hc
    rw [toNat_add, UInt8.toNat_toUInt64, hread, Nat.mod_eq_of_lt hone]
  have hzero : (0 : UInt64).toNat = 0 := rfl
  have hfits : (0 : UInt64).toNat + ((List.range' y0.toNat (y1.toNat - y0.toNat)).map fun sy =>
      ∑ sx ∈ Finset.Ico x0.toNat x1.toNat, source pixels row_pitch channel sx sy).sum < 2 ^ 64 := by
    rw [hzero, Nat.zero_add, ← sum_Ico_eq]
    exact Nat.lt_of_le_of_lt htotal hroom
  rw [box_sum, toNat_foldl_add (fun sum sy hsy hone => hrow sy hsy sum hone) hfits, hzero, Nat.zero_add, ← sum_Ico_eq]
  rfl

/-! ## Means -/

/-- The byte is the mean of the numbers, rounded, halves up. -/
def RoundsHalfUp (sum n : Nat) (v : UInt8) : Prop :=
  (v.toNat : ℚ) - 1 / 2 ≤ (sum : ℚ) / n ∧ (sum : ℚ) / n < (v.toNat : ℚ) + 1 / 2

theorem toNat_box_mean {sum n : UInt64} (hn : 0 < n.toNat) (hsum : sum.toNat ≤ 255 * n.toNat)
    (hroom : sum.toNat + n.toNat / 2 < 2 ^ 64) :
    (box_mean sum n).toNat = (sum.toNat + n.toNat / 2) / n.toNat := by
  have htwo : (2 : UInt64).toNat = 2 := rfl
  have hbyte : (sum.toNat + n.toNat / 2) / n.toNat < 256 := by
    rw [Nat.div_lt_iff_lt_mul hn]
    omega
  rw [box_mean, UInt64.toNat_toUInt8, toNat_div, toNat_add, toNat_div, htwo, Nat.mod_eq_of_lt hroom]
  exact Nat.mod_eq_of_lt hbyte

theorem rounds_half_up {sum : Nat} {v : UInt8} (hn : 0 < n) (hv : v.toNat = (sum + n / 2) / n) :
    RoundsHalfUp sum n v := by
  have hdiv := Nat.div_add_mod (sum + n / 2) n
  have hmod := Nat.mod_lt (sum + n / 2) hn
  rw [← hv] at hdiv
  have hlow : 2 * (n * v.toNat) ≤ 2 * sum + n := by omega
  have hhigh : 2 * sum + n < 2 * (n * v.toNat) + 2 * n := by omega
  have hn' : (0 : ℚ) < n := Nat.cast_pos.mpr hn
  have hlow' : 2 * ((n : ℚ) * v.toNat) ≤ 2 * sum + n := by exact_mod_cast hlow
  have hhigh' : 2 * (sum : ℚ) + n < 2 * (n * v.toNat) + 2 * n := by exact_mod_cast hhigh
  constructor
  · rw [le_div_iff₀ hn']
    linarith
  · rw [div_lt_iff₀ hn']
    linarith

/-! ## Rows of pixels -/

section
variable {α : Type} {f : Nat → List α} {m n : Nat}

theorem length_chunks (hf : ∀ i < n, (f i).length = m) : ((List.range n).flatMap f).length = n * m := by
  induction n with
  | zero => simp
  | succ n ih =>
    rw [range_succ, flatMap_append, length_append, ih fun i hi => hf i (Nat.lt_succ_of_lt hi),
      flatMap_singleton, hf n (Nat.lt_succ_self n), Nat.succ_mul]

theorem getElem?_chunks (hf : ∀ i < n, (f i).length = m) {i j : Nat} (hi : i < n) (hj : j < m) :
    ((List.range n).flatMap f)[i * m + j]? = (f i)[j]? := by
  induction n with
  | zero => exact absurd hi (Nat.not_lt_zero i)
  | succ n ih =>
    have hfront := length_chunks fun i hi => hf i (Nat.lt_succ_of_lt hi)
    rw [range_succ, flatMap_append, List.getElem?_append, hfront, flatMap_singleton]
    by_cases hlast : i = n
    · subst hlast
      rw [if_neg (by omega), Nat.add_sub_cancel_left]
    have hlt : i + 1 ≤ n := by omega
    have hmul := Nat.mul_le_mul_right m hlt
    rw [Nat.succ_mul] at hmul
    rw [if_pos (by omega)]
    exact ih (fun i hi => hf i (Nat.lt_succ_of_lt hi)) (by omega)

/-- A list is its pieces of one length. -/
theorem flatMap_pieces (l : List α) (n m : Nat) :
    ((List.range n).flatMap fun i => (l.drop (i * m)).take m) = l.take (n * m) := by
  induction n with
  | zero => simp
  | succ n ih => rw [range_succ, flatMap_append, ih, flatMap_singleton, ← take_add, Nat.succ_mul]

end

/-! ## The shrunk picture -/

/-- Which byte of a source pixel the byte `k` of blue, green and red is. -/
def channel_of (bgra : Bool) (k : Nat) : Nat := if bgra then k else 2 - k

section
variable {pixels : List UInt8} {row_pitch : UInt64} {width height max_edge : UInt32} {bgra : Bool}

/-- The place is in box `x`, `y` of the picture. -/
def InBox (width height : UInt32) (size : UInt32 × UInt32) (x y px py : Nat) : Prop :=
  ((box_begin (UInt32.ofNat x) size.1 width).toNat ≤ px ∧ px < (box_end (UInt32.ofNat x) size.1 width).toNat) ∧
    ((box_begin (UInt32.ofNat y) size.2 height).toNat ≤ py ∧ py < (box_end (UInt32.ofNat y) size.2 height).toNat)

variable {b : Box} {h i w x y : Nat} {count size : UInt32}

theorem toNat_index (hi : i < count.toNat) : (UInt32.ofNat i).toNat = i := by
  have hcount := count.toNat_lt
  exact UInt32.toNat_ofNat_of_lt' (by change i < 2 ^ 32; omega)

/-- A box of one direction, in numbers. -/
theorem box_bounds (hi : i < count.toNat) (h : count ≤ size) :
    (box_begin (UInt32.ofNat i) count size).toNat = cut count.toNat size.toNat i ∧
      (box_end (UInt32.ofNat i) count size).toNat = cut count.toNat size.toNat (i + 1) ∧
      cut count.toNat size.toNat i < cut count.toNat size.toNat (i + 1) ∧
      cut count.toNat size.toNat (i + 1) ≤ size.toNat := by
  have hindex := toNat_index hi
  have hbegin : (box_begin (UInt32.ofNat i) count size).toNat = _ :=
    toNat_box_begin (show (UInt32.ofNat i).toNat < count.toNat by omega)
  have hend := toNat_box_end (show (UInt32.ofNat i).toNat < count.toNat by omega) h
  rw [hindex] at hbegin hend
  refine ⟨hbegin, hend, cut_lt i (by omega) (le_iff_toNat_le.mp h), ?_⟩
  have hle := cut_mono count.toNat size.toNat (show i + 1 ≤ count.toNat by omega)
  rwa [cut_last _ (by omega)] at hle

/-- Every place of one direction is in one box. -/
theorem exists_unique_box {p : Nat} (hcount : 0 < count.toNat) (h : count ≤ size)
    (hp : p < size.toNat) : ∃! i, i < count.toNat ∧ (box_begin (UInt32.ofNat i) count size).toNat ≤ p ∧
      p < (box_end (UInt32.ofNat i) count size).toNat := by
  have hfirst : cut count.toNat size.toNat 0 = 0 := by rw [cut, Nat.zero_mul, Nat.zero_div]
  obtain ⟨i, ⟨hi, hlow, hhigh⟩, hunique⟩ := exists_unique_cut (cut_mono count.toNat size.toNat)
    (show cut count.toNat size.toNat 0 ≤ p by omega) (show p < cut count.toNat size.toNat count.toNat by
      rw [cut_last _ hcount]; exact hp)
  refine ⟨i, ⟨hi, ?_, ?_⟩, fun j ⟨hj, hjlow, hjhigh⟩ => hunique j ⟨hj, ?_, ?_⟩⟩
  · rw [(box_bounds hi h).1]
    exact hlow
  · rw [(box_bounds hi h).2.1]
    exact hhigh
  · rwa [(box_bounds hj h).1] at hjlow
  · rwa [(box_bounds hj h).2.1] at hjhigh

theorem length_pixel (x0 x1 y0 y1 : UInt32) : (pixel pixels row_pitch x0 x1 y0 y1 bgra).length = 3 := rfl

theorem downsample_snapshot_eq (h : Readable pixels row_pitch width.toNat height.toNat) (hw : 0 < width.toNat)
    (hh : 0 < height.toNat) : downsample_snapshot pixels row_pitch width height bgra max_edge =
      { width := (fit_snapshot width height max_edge).1
        height := (fit_snapshot width height max_edge).2
        bgr := (List.range (fit_snapshot width height max_edge).2.toNat).flatMap fun y =>
          (List.range (fit_snapshot width height max_edge).1.toNat).flatMap fun x =>
            pixel pixels row_pitch (box_begin (UInt32.ofNat x) (fit_snapshot width height max_edge).1 width)
              (box_end (UInt32.ofNat x) (fit_snapshot width height max_edge).1 width)
              (box_begin (UInt32.ofNat y) (fit_snapshot width height max_edge).2 height)
              (box_end (UInt32.ofNat y) (fit_snapshot width height max_edge).2 height) bgra } := by
  have hpositive {v : UInt32} (hv : 0 < v.toNat) : v ≠ 0 := by
    rintro rfl
    exact absurd hv (Nat.lt_irrefl 0)
  have hpitch := h.pitch
  have hrows := h.rows
  have hwidth := width.toNat_lt
  have hpixels : pixels ≠ [] := by
    rintro rfl
    rw [length_nil] at hrows
    omega
  have hfour : (4 : UInt64).toNat = 4 := rfl
  have hwide : ¬row_pitch < width.toUInt64 * 4 := by
    rw [UInt64.lt_iff_toNat_lt, toNat_mul, toNat_toUInt64, hfour, Nat.mod_eq_of_lt (by omega)]
    omega
  unfold downsample_snapshot
  rw [if_neg (by simp only [not_or]; exact ⟨hpixels, hpositive hw, hpositive hh, hwide⟩)]

/-- The columns and rows of a box of the picture. -/
structure Box where
  x0 : UInt32
  x1 : UInt32
  y0 : UInt32
  y1 : UInt32

def box (width height : UInt32) (size : UInt32 × UInt32) (x y : Nat) : Box :=
  { x0 := box_begin (UInt32.ofNat x) size.1 width
    x1 := box_end (UInt32.ofNat x) size.1 width
    y0 := box_begin (UInt32.ofNat y) size.2 height
    y1 := box_end (UInt32.ofNat y) size.2 height }

/-- The source pixels of a box. -/
def Box.area (b : Box) : Nat := (b.y1.toNat - b.y0.toNat) * (b.x1.toNat - b.x0.toNat)

def Box.total (pixels : List UInt8) (row_pitch : UInt64) (b : Box) (channel : Nat) : Nat :=
  display_snapshot.total pixels row_pitch b.x0.toNat b.x1.toNat b.y0.toNat b.y1.toNat channel

/-- A box inside the source, with something in it. -/
structure Box.Inside (b : Box) (width height : Nat) : Prop where
  columns : b.x0.toNat < b.x1.toNat
  rows : b.y0.toNat < b.y1.toNat
  right : b.x1.toNat ≤ width
  bottom : b.y1.toNat ≤ height

theorem Box.Inside.area_pos (hb : b.Inside w h) : 0 < b.area :=
  Nat.mul_pos (Nat.sub_pos_of_lt hb.rows) (Nat.sub_pos_of_lt hb.columns)

theorem Box.Inside.area_le (hb : b.Inside w h) : b.area ≤ w * h := by
  have hrows := hb.bottom
  have hcolumns := hb.right
  rw [area, Nat.mul_comm]
  exact Nat.mul_le_mul (by omega) (by omega)

theorem box_inside {size : UInt32 × UInt32} (hx : x < size.1.toNat) (hy : y < size.2.toNat)
    (hw : size.1 ≤ width) (hh : size.2 ≤ height) : (box width height size x y).Inside width.toNat height.toNat := by
  obtain ⟨hx0, hx1, hxlt, hxle⟩ := box_bounds hx hw
  obtain ⟨hy0, hy1, hylt, hyle⟩ := box_bounds hy hh
  refine ⟨?_, ?_, ?_, ?_⟩
  · dsimp only [box]
    omega
  · dsimp only [box]
    omega
  · dsimp only [box]
    omega
  · dsimp only [box]
    omega

/-- The sums and the mean of a box are those of the numbers. -/
theorem box_mean_spec (h : Readable pixels row_pitch width.toNat height.toNat)
    (hb : b.Inside width.toNat height.toNat) (hmax : width.toNat * height.toNat * 4 ≤ kDisplaySnapshotMaxBytes)
    {channel : Nat} (hc : channel < 4) :
    ((box_sum pixels row_pitch b.x0 b.x1 b.y0 b.y1 channel).toNat = b.total pixels row_pitch channel ∧
      b.total pixels row_pitch channel + b.area / 2 < 2 ^ 64) ∧
      RoundsHalfUp (b.total pixels row_pitch channel) b.area
        (box_mean (box_sum pixels row_pitch b.x0 b.x1 b.y0 b.y1 channel)
          ((b.y1 - b.y0).toUInt64 * (b.x1 - b.x0).toUInt64)) := by
  have harea := hb.area_le
  have hpos := hb.area_pos
  have htotal : b.total pixels row_pitch channel ≤ 255 * b.area :=
    total_le pixels row_pitch b.x0.toNat b.x1.toNat b.y0.toNat b.y1.toNat channel
  unfold kDisplaySnapshotMaxBytes at hmax
  have hsum : (box_sum pixels row_pitch b.x0 b.x1 b.y0 b.y1 channel).toNat = b.total pixels row_pitch channel :=
    toNat_box_sum h hb.right hb.bottom hc (show 255 * b.area < 2 ^ 64 by omega)
  have hn : ((b.y1 - b.y0).toUInt64 * (b.x1 - b.x0).toUInt64).toNat = b.area := by
    rw [toNat_mul, toNat_toUInt64, toNat_toUInt64,
      UInt32.toNat_sub_of_le _ _ (le_iff_toNat_le.mpr (Nat.le_of_lt hb.rows)),
      UInt32.toNat_sub_of_le _ _ (le_iff_toNat_le.mpr (Nat.le_of_lt hb.columns))]
    exact Nat.mod_eq_of_lt (show b.area < 2 ^ 64 by omega)
  refine ⟨⟨hsum, by omega⟩, rounds_half_up hpos ?_⟩
  rw [toNat_box_mean (by omega) (by rw [hsum, hn]; exact htotal) (by rw [hsum, hn]; omega), hsum, hn]

/-- A byte of the picture. -/
theorem bgr_byte (h : Readable pixels row_pitch width.toNat height.toNat) (hw : 0 < width.toNat)
    (hh : 0 < height.toNat) {k : Nat} (hx : x < (fit_snapshot width height max_edge).1.toNat)
    (hy : y < (fit_snapshot width height max_edge).2.toNat) (hk : k < 3) :
    (downsample_snapshot pixels row_pitch width height bgra max_edge).bgr[
      (y * (fit_snapshot width height max_edge).1.toNat + x) * 3 + k]? =
      let b := box width height (fit_snapshot width height max_edge) x y
      some (box_mean (box_sum pixels row_pitch b.x0 b.x1 b.y0 b.y1 (channel_of bgra k))
        ((b.y1 - b.y0).toUInt64 * (b.x1 - b.x0).toUInt64)) := by
  have hplace : (y * (fit_snapshot width height max_edge).1.toNat + x) * 3 + k =
      y * ((fit_snapshot width height max_edge).1.toNat * 3) + (x * 3 + k) := by
    rw [Nat.add_mul, Nat.mul_assoc, Nat.add_assoc]
  rw [downsample_snapshot_eq h hw hh, hplace]
  rw [getElem?_chunks (fun y _ => length_chunks fun x _ => length_pixel ..) hy (by omega),
    getElem?_chunks (fun x _ => length_pixel ..) hx hk]
  obtain rfl | rfl | rfl : k = 0 ∨ k = 1 ∨ k = 2 := by omega
  · cases bgra <;> rfl
  · cases bgra <;> rfl
  · cases bgra <;> rfl

theorem bgr_length (h : Readable pixels row_pitch width.toNat height.toNat) (hw : 0 < width.toNat)
    (hh : 0 < height.toNat) : (downsample_snapshot pixels row_pitch width height bgra max_edge).bgr.length =
      (fit_snapshot width height max_edge).1.toNat * (fit_snapshot width height max_edge).2.toNat * 3 := by
  rw [downsample_snapshot_eq h hw hh]
  rw [length_chunks fun y _ => length_chunks fun x _ => length_pixel .., ← Nat.mul_assoc]
  congr 1
  exact Nat.mul_comm _ _

end

/-! ## The file -/

open bmp_format zip_format

theorem length_memory (bytes v : Nat) : (memory bytes v).length = bytes := by
  induction bytes generalizing v with
  | zero => rfl
  | succ bytes ih => rw [memory, length_cons, ih]

theorem little_endian_memory (h : v < 256 ^ bytes) : little_endian (memory bytes v) = v := by
  induction bytes generalizing v with
  | zero =>
    rw [Nat.pow_zero] at h
    rw [memory, little_endian]
    omega
  | succ bytes ih =>
    rw [Nat.pow_succ] at h
    rw [memory, little_endian, ih (by omega), UInt8.toNat_ofNat']
    omega

/-- A number of the file, from where it was written. -/
theorem number_of_part {file : List UInt8} (hv : v < 256 ^ bytes)
    (h : part file start bytes = memory bytes v) : number file start bytes = some v := by
  have hfield : (file.drop start).take bytes = memory bytes v := h
  rw [number, hfield]
  rw [if_pos (length_memory bytes v), little_endian_memory hv]

theorem stretch_of_part {file row : List UInt8} {length : Nat} (hrow : row.length = length)
    (h : part file start length = row) : stretch file start length = some row := by
  have hfield : (file.drop start).take length = row := h
  rw [stretch, hfield]
  exact if_pos hrow

theorem mapM_some {α β : Type} {f : α → Option β} {g : α → β} {l : List α} (h : ∀ a ∈ l, f a = some (g a)) :
    l.mapM f = some (l.map g) := by
  induction l with
  | nil => rfl
  | cons a l ih =>
    rw [mapM_cons, h a mem_cons_self, ih fun b hb => h b (mem_cons_of_mem _ hb)]
    rfl

/-- Without its last two bits a number is the multiple of four below it. -/
theorem and_not_three (h : v < 2 ^ 32) : v &&& 4294967292 = v / 4 * 4 := by
  have hmask : (4294967292 : Nat) = (2 ^ 30 - 1) <<< 2 := rfl
  have hshift : v / 4 * 4 = (v >>> 2) <<< 2 := by
    rw [Nat.shiftRight_eq_div_pow, Nat.shiftLeft_eq]
  rw [hmask, hshift]
  refine Nat.eq_of_testBit_eq fun i => ?_
  rw [Nat.testBit_and, Nat.testBit_shiftLeft, Nat.testBit_shiftLeft, Nat.testBit_two_pow_sub_one,
    Nat.testBit_shiftRight]
  by_cases hi : 2 ≤ i
  · have hsum : 2 + (i - 2) = i := by omega
    rw [hsum]
    by_cases hbit : i - 2 < 30
    · simp [hi, hbit]
    have hhigh : v.testBit i = false :=
      Nat.testBit_lt_two_pow (Nat.lt_of_lt_of_le h (Nat.pow_le_pow_right (by omega) (by omega)))
    simp [hhigh]
  · simp [hi]

theorem toNat_bmp_stride {w : UInt32} (h : w.toNat * 3 + 3 < 2 ^ 32) : (bmp_stride w).toNat = row_pitch w.toNat := by
  have hthree : (3 : UInt32).toNat = 3 := rfl
  have hmask : (~~~(3 : UInt32)).toNat = 4294967292 := rfl
  have hsum : (w * 3 + 3).toNat = w.toNat * 3 + 3 := by
    rw [UInt32.toNat_add, UInt32.toNat_mul, hthree, Nat.mod_eq_of_lt (show w.toNat * 3 < 2 ^ 32 by omega),
      Nat.mod_eq_of_lt h]
  rw [bmp_stride, UInt32.toNat_and, hsum, hmask, and_not_three h, row_pitch]
  omega

section
variable {image : SnapshotImage}

/-- The pieces of the file: the two headers, and the rows from the bottom up. -/
def file_pieces (image : SnapshotImage) : List (Nat × List UInt8) :=
  (0, file_header (header_bytes + bmp_stride image.width * image.height) header_bytes) ::
    (14, info_header image.width image.height (bmp_stride image.width * image.height)) ::
      (List.range image.height.toNat).map fun y =>
        (header_bytes.toNat + (image.height.toNat - 1 - y) * (bmp_stride image.width).toNat, image_row image y)

/-- An image with its pixels, small enough for a file. -/
structure Whole (image : SnapshotImage) : Prop where
  width : 0 < image.width.toNat
  height : 0 < image.height.toNat
  length : image.bgr.length = image.width.toNat * image.height.toNat * 3
  fits : 54 + row_pitch image.width.toNat * image.height.toNat < 2 ^ 31

theorem length_file_header (a b : UInt32) : (file_header a b).length = 14 := rfl

theorem length_info_header (w h n : UInt32) : (info_header w h n).length = 40 := rfl

namespace Whole

theorem pitch_ge (image : SnapshotImage) : image.width.toNat * 3 ≤ row_pitch image.width.toNat := by
  unfold row_pitch
  omega

theorem pitch_le (h : Whole image) : row_pitch image.width.toNat ≤ row_pitch image.width.toNat * image.height.toNat :=
  Nat.le_mul_of_pos_right _ h.height

theorem toNat_stride (h : Whole image) : (bmp_stride image.width).toNat = row_pitch image.width.toNat := by
  have hge := pitch_ge image
  have hle := h.pitch_le
  have hfits := h.fits
  exact toNat_bmp_stride (by omega)

theorem toNat_pixels (h : Whole image) : (bmp_stride image.width * image.height).toNat =
    row_pitch image.width.toNat * image.height.toNat := by
  have hfits := h.fits
  rw [UInt32.toNat_mul, h.toNat_stride, Nat.mod_eq_of_lt (by omega)]

/-- The size of the file does not leave its type. -/
theorem toNat_size (h : Whole image) : (header_bytes + bmp_stride image.width * image.height).toNat =
    54 + row_pitch image.width.toNat * image.height.toNat := by
  have hfits := h.fits
  have hheader : header_bytes.toNat = 54 := rfl
  rw [UInt32.toNat_add, h.toNat_pixels, hheader, Nat.mod_eq_of_lt (by omega)]

variable {bytes start v y : Nat}

theorem length_row (h : Whole image) (hy : y < image.height.toNat) :
    (image_row image y).length = image.width.toNat * 3 := by
  have hmul : (y + 1) * (image.width.toNat * 3) ≤ image.height.toNat * (image.width.toNat * 3) :=
    Nat.mul_le_mul_right _ hy
  have hlength : image.bgr.length = image.height.toNat * (image.width.toNat * 3) := by
    rw [h.length, Nat.mul_comm image.width.toNat, Nat.mul_assoc]
  rw [Nat.succ_mul] at hmul
  rw [image_row, length_take, length_drop, hlength, Nat.mul_assoc]
  omega

theorem encode_eq (h : Whole image) : encode_snapshot_bmp image =
    write_all (List.replicate (54 + row_pitch image.width.toNat * image.height.toNat) 0) (file_pieces image) := by
  have hpositive {v : UInt32} (hv : 0 < v.toNat) : v ≠ 0 := by
    rintro rfl
    exact absurd hv (Nat.lt_irrefl 0)
  unfold encode_snapshot_bmp
  rw [if_neg (by simp only [not_or, not_not]; exact ⟨hpositive h.width, hpositive h.height, h.length⟩)]
  dsimp only
  rw [h.toNat_size, write_all, file_pieces, foldl_cons, foldl_cons, foldl_map]

theorem row_place (hy : y < image.height.toNat) :
    (image.height.toNat - 1 - y) * row_pitch image.width.toNat + row_pitch image.width.toNat ≤
      row_pitch image.width.toNat * image.height.toNat := by
  rw [← Nat.succ_mul, Nat.mul_comm]
  exact Nat.mul_le_mul_left _ (by omega)

theorem pieces_fit (h : Whole image) : ∀ piece ∈ file_pieces image,
    Fits (List.replicate (54 + row_pitch image.width.toNat * image.height.toNat) (0 : UInt8)) piece := by
  intro piece hpiece
  rw [file_pieces, mem_cons, mem_cons, mem_map] at hpiece
  rw [Fits, length_replicate]
  rcases hpiece with rfl | rfl | ⟨y, hy, rfl⟩
  · rw [length_file_header]
    omega
  · rw [length_info_header]
    omega
  have hy' := mem_range.mp hy
  have hplace := row_place hy'
  have hge := pitch_ge image
  have hheader : header_bytes.toNat = 54 := rfl
  rw [h.length_row hy', h.toNat_stride, hheader]
  omega

theorem pieces_apart (h : Whole image) : (file_pieces image).Pairwise fun a b => Apart a.1 a.2.length b := by
  have hheader : header_bytes.toNat = 54 := rfl
  have hbehind : ∀ piece ∈ (List.range image.height.toNat).map fun y =>
      (header_bytes.toNat + (image.height.toNat - 1 - y) * (bmp_stride image.width).toNat, image_row image y),
      54 ≤ piece.1 := by
    intro piece hpiece
    obtain ⟨y, -, rfl⟩ := mem_map.mp hpiece
    omega
  rw [file_pieces, pairwise_cons, pairwise_cons]
  refine ⟨fun piece hpiece => ?_, fun piece hpiece => ?_, ?_⟩
  · refine .inl ?_
    rw [length_file_header]
    rcases mem_cons.mp hpiece with rfl | hpiece
    · exact Nat.le_refl 14
    have := hbehind piece hpiece
    omega
  · refine .inl ?_
    rw [length_info_header]
    exact hbehind piece hpiece
  · refine pairwise_map.mpr (pairwise_lt_range.imp_of_mem fun {y y'} hy hy' hlt => .inr ?_)
    have hy := mem_range.mp hy
    have hy' := mem_range.mp hy'
    have hge := pitch_ge image
    have hmul : (image.height.toNat - 1 - y' + 1) * row_pitch image.width.toNat ≤
        (image.height.toNat - 1 - y) * row_pitch image.width.toNat := Nat.mul_le_mul_right _ (by omega)
    rw [Nat.succ_mul] at hmul
    rw [h.length_row hy', h.toNat_stride]
    omega

/-- The pieces as they are read back. -/
theorem part_of_piece (h : Whole image) {bytes : List UInt8}
    (hpiece : (start, bytes) ∈ file_pieces image) : part (encode_snapshot_bmp image) start bytes.length = bytes := by
  rw [h.encode_eq]
  exact part_write_all h.pieces_fit h.pieces_apart hpiece

theorem length_file (h : Whole image) :
    (encode_snapshot_bmp image).length = 54 + row_pitch image.width.toNat * image.height.toNat := by
  rw [h.encode_eq, length_write_all h.pieces_fit, length_replicate]

/-- A field of the first header. -/
theorem file_field (h : Whole image) (hv : v < 256 ^ bytes) (hin : start + bytes ≤ 14)
    (hfield : part (file_header (header_bytes + bmp_stride image.width * image.height) header_bytes) start bytes =
      memory bytes v) : number (encode_snapshot_bmp image) start bytes = some v := by
  refine number_of_part hv ?_
  have hheader := h.part_of_piece mem_cons_self
  rw [length_file_header] at hheader
  rw [← hfield, ← hheader, part_part hin, Nat.zero_add]

/-- A field of the second header. -/
theorem info_field (h : Whole image) (hv : v < 256 ^ bytes) (hin : start + bytes ≤ 40)
    (hfield : part (info_header image.width image.height (bmp_stride image.width * image.height)) start bytes =
      memory bytes v) : number (encode_snapshot_bmp image) (14 + start) bytes = some v := by
  refine number_of_part hv ?_
  have hheader := h.part_of_piece (mem_cons_of_mem _ mem_cons_self)
  rw [length_info_header] at hheader
  rw [← hfield, ← hheader, part_part hin]

theorem row_field (h : Whole image) (hy : y < image.height.toNat) :
    read_row (encode_snapshot_bmp image) 54 image.width.toNat image.height.toNat y = some (image_row image y) := by
  have hlength := h.length_row hy
  have hpiece := h.part_of_piece (mem_cons_of_mem _ (mem_cons_of_mem _ (mem_map_of_mem (mem_range.mpr hy))))
  rw [hlength, h.toNat_stride] at hpiece
  rw [read_row, Nat.mul_comm 3]
  exact stretch_of_part hlength hpiece

/-- The file is the picture. -/
theorem read_back (h : Whole image) : read_bmp (encode_snapshot_bmp image) =
    some ⟨image.width.toNat, image.height.toNat, image.bgr⟩ := by
  have hfits := h.fits
  have hge := pitch_ge image
  have hle := h.pitch_le
  have hwidth := h.width
  have hheight := h.height
  have htall : image.height.toNat ≤ row_pitch image.width.toNat * image.height.toNat :=
    Nat.le_mul_of_pos_left _ (by omega)
  have hsignature := h.file_field (v := 0x4d42) (by omega) (show 0 + 2 ≤ 14 by omega) rfl
  have hsize := h.file_field (toNat_lt _) (show 2 + 4 ≤ 14 by omega) rfl
  have hreserved := h.file_field (v := 0) (by omega) (show 6 + 4 ≤ 14 by omega) rfl
  have hoffset := h.file_field (v := 54) (by omega) (show 10 + 4 ≤ 14 by omega) rfl
  have hheader := h.info_field (v := 40) (by omega) (show 0 + 4 ≤ 40 by omega) rfl
  have hw := h.info_field image.width.toNat_lt (show 4 + 4 ≤ 40 by omega) rfl
  have hh := h.info_field image.height.toNat_lt (show 8 + 4 ≤ 40 by omega) rfl
  have hplanes := h.info_field (v := 1) (by omega) (show 12 + 2 ≤ 40 by omega) rfl
  have hbits := h.info_field (v := 24) (by omega) (show 14 + 2 ≤ 40 by omega) rfl
  have hcompression := h.info_field (v := 0) (by omega) (show 16 + 4 ≤ 40 by omega) rfl
  have himage := h.info_field (toNat_lt _) (show 20 + 4 ≤ 40 by omega) rfl
  rw [h.toNat_size] at hsize
  rw [h.toNat_pixels] at himage
  have hrows : (List.range image.height.toNat).mapM
      (read_row (encode_snapshot_bmp image) 54 image.width.toNat image.height.toNat) =
      some ((List.range image.height.toNat).map (image_row image)) :=
    mapM_some fun y hy => h.row_field (mem_range.mp hy)
  have hall : ((List.range image.height.toNat).map (image_row image)).flatten = image.bgr := by
    have hpieces := flatMap_pieces image.bgr image.height.toNat (image.width.toNat * 3)
    rw [take_of_length_le (by rw [h.length, Nat.mul_comm image.width.toNat, Nat.mul_assoc])] at hpieces
    rw [← flatMap_def]
    refine Eq.trans (flatMap_congr fun y _ => ?_) hpieces
    rw [image_row, Nat.mul_assoc]
  unfold read_bmp
  simp only [hsignature, hsize, hreserved, hoffset, hheader, hw, hh, hplanes, hbits, hcompression, himage,
    Option.bind_eq_bind, Option.bind_some, h.length_file]
  rw [if_neg (by omega), if_neg (by omega), if_neg (by omega), hrows, Option.bind_some, hall]

end Whole

end

/-! ## The snapshot -/

section
variable {pixels : List UInt8} {row_pitch : UInt64} {width height max_edge : UInt32} {bgra : Bool}

/-- What a snapshot is of its source: of a size within the limit and the source, its boxes the source
picture without an overlap or a gap, its bytes the rounded means, every number exact in its type, and
its file the picture. -/
structure Exact (pixels : List UInt8) (row_pitch : UInt64) (width height max_edge : UInt32) (bgra : Bool)
    (size : UInt32 × UInt32) (image : SnapshotImage) : Prop where
  nonempty : 0 < size.1.toNat ∧ 0 < size.2.toNat
  limited : size.1 ≤ max_edge ∧ size.2 ≤ max_edge
  not_larger : size.1 ≤ width ∧ size.2 ≤ height
  sized : image.width = size.1 ∧ image.height = size.2 ∧
    image.bgr.length = size.1.toNat * size.2.toNat * 3
  boxes : ∀ px < width.toNat, ∀ py < height.toNat, ∃! p : Nat × Nat,
    (p.1 < size.1.toNat ∧ p.2 < size.2.toNat) ∧ InBox width height size p.1 p.2 px py
  inside : ∀ x < size.1.toNat, ∀ y < size.2.toNat, (box width height size x y).Inside width.toNat height.toNat
  means : ∀ x < size.1.toNat, ∀ y < size.2.toNat, ∀ k < 3, ∃ v,
    image.bgr[(y * size.1.toNat + x) * 3 + k]? = some v ∧
      RoundsHalfUp ((box width height size x y).total pixels row_pitch (channel_of bgra k))
        (box width height size x y).area v
  sums : ∀ x < size.1.toNat, ∀ y < size.2.toNat, ∀ k < 3,
    let b := box width height size x y
    (box_sum pixels row_pitch b.x0 b.x1 b.y0 b.y1 (channel_of bgra k)).toNat =
        b.total pixels row_pitch (channel_of bgra k) ∧
      b.total pixels row_pitch (channel_of bgra k) + b.area / 2 < 2 ^ 64
  offsets : ∀ sx < width.toNat, ∀ sy < height.toNat, ∀ channel < 4,
    (byte_offset row_pitch sx sy channel).toNat = sy * row_pitch.toNat + sx * 4 + channel ∧
      sy * row_pitch.toNat + sx * 4 + channel < pixels.length
  file_size : (header_bytes + bmp_stride size.1 * size.2).toNat =
    54 + bmp_format.row_pitch size.1.toNat * size.2.toNat
  read_back : bmp_format.read_bmp (encode_snapshot_bmp image) = some ⟨size.1.toNat, size.2.toNat, image.bgr⟩

theorem exists_unique_pixel {size : UInt32 × UInt32} (hpos : 0 < size.1.toNat ∧ 0 < size.2.toNat)
    (hw : size.1 ≤ width) (hh : size.2 ≤ height) {px py : Nat} (hx : px < width.toNat) (hy : py < height.toNat) :
    ∃! p : Nat × Nat, (p.1 < size.1.toNat ∧ p.2 < size.2.toNat) ∧ InBox width height size p.1 p.2 px py := by
  obtain ⟨x, ⟨hxlt, hxin⟩, hxonly⟩ := exists_unique_box hpos.1 hw hx
  obtain ⟨y, ⟨hylt, hyin⟩, hyonly⟩ := exists_unique_box hpos.2 hh hy
  refine ⟨(x, y), ⟨⟨hxlt, hylt⟩, hxin, hyin⟩, ?_⟩
  rintro ⟨x', y'⟩ ⟨⟨hxlt', hylt'⟩, hxin', hyin'⟩
  rw [hxonly x' ⟨hxlt', hxin'⟩, hyonly y' ⟨hylt', hyin'⟩]

theorem image_size (max_edge : UInt32) (bgra : Bool) (h : Readable pixels row_pitch width.toNat height.toNat)
    (hw : 0 < width.toNat) (hh : 0 < height.toNat) :
    (downsample_snapshot pixels row_pitch width height bgra max_edge).width = (fit_snapshot width height max_edge).1 ∧
      (downsample_snapshot pixels row_pitch width height bgra max_edge).height =
        (fit_snapshot width height max_edge).2 := by
  rw [downsample_snapshot_eq h hw hh]
  exact ⟨rfl, rfl⟩

/-- A picture of an accepted source fits a file. -/
theorem whole_image (bgra : Bool) (h : Readable pixels row_pitch width.toNat height.toNat)
    (hw : 0 < width.toNat) (hh : 0 < height.toNat) (hm : 0 < max_edge.toNat)
    (hmax : width.toNat * height.toNat * 4 ≤ kDisplaySnapshotMaxBytes) :
    Whole (downsample_snapshot pixels row_pitch width height bgra max_edge) := by
  obtain ⟨hpos, -, hwidth, hheight⟩ := fit_snapshot_spec hw hh hm
  have hsize := image_size max_edge bgra h hw hh
  have hpixels : (fit_snapshot width height max_edge).1.toNat * (fit_snapshot width height max_edge).2.toNat ≤
      width.toNat * height.toNat :=
    Nat.mul_le_mul (le_iff_toNat_le.mp hwidth) (le_iff_toNat_le.mp hheight)
  refine ⟨?_, ?_, ?_, ?_⟩
  · rw [hsize.1]
    exact hpos.1
  · rw [hsize.2]
    exact hpos.2
  · rw [hsize.1, hsize.2, bgr_length h hw hh]
  · rw [hsize.1, hsize.2]
    unfold kDisplaySnapshotMaxBytes at hmax
    have hpitch : bmp_format.row_pitch (fit_snapshot width height max_edge).1.toNat ≤
        (fit_snapshot width height max_edge).1.toNat * 6 := by
      unfold bmp_format.row_pitch
      omega
    have hrows := Nat.mul_le_mul_right (fit_snapshot width height max_edge).2.toNat hpitch
    rw [Nat.mul_right_comm] at hrows
    omega

/-- The picture of every accepted source is exact, and so is its file. -/
theorem snapshots_are_exact (pixels : List UInt8) (row_pitch : UInt64) (width height : UInt32) (bgra : Bool)
    (max_edge : UInt32) (hw : 0 < width.toNat) (hh : 0 < height.toNat) (hm : 0 < max_edge.toNat)
    (hmax : width.toNat * height.toNat * 4 ≤ kDisplaySnapshotMaxBytes)
    (h : Readable pixels row_pitch width.toNat height.toNat) :
    Exact pixels row_pitch width height max_edge bgra (fit_snapshot width height max_edge)
      (downsample_snapshot pixels row_pitch width height bgra max_edge) := by
  obtain ⟨hpos, hlimit, hwidth, hheight⟩ := fit_snapshot_spec hw hh hm
  have hwhole := whole_image bgra h hw hh hm hmax
  obtain ⟨hiw, hih⟩ := image_size max_edge bgra h hw hh
  have hchannel {k : Nat} (hk : k < 3) : channel_of bgra k < 4 := by
    unfold channel_of
    split <;> omega
  refine ⟨hpos, hlimit, ⟨hwidth, hheight⟩, ⟨hiw, hih, bgr_length h hw hh⟩, fun px hx py hy => ?_,
    fun x hx y hy => box_inside hx hy hwidth hheight, fun x hx y hy k hk => ?_, fun x hx y hy k hk => ?_,
    fun sx hx sy hy channel hc => ⟨h.offset hx hy hc, h.inside hx hy hc⟩, ?_, ?_⟩
  · exact exists_unique_pixel hpos hwidth hheight hx hy
  · exact ⟨_, bgr_byte h hw hh hx hy hk, (box_mean_spec h (box_inside hx hy hwidth hheight) hmax (hchannel hk)).2⟩
  · exact (box_mean_spec h (box_inside hx hy hwidth hheight) hmax (hchannel hk)).1
  · have hsize := hwhole.toNat_size
    rwa [hiw, hih] at hsize
  · have hread := hwhole.read_back
    rwa [hiw, hih] at hread

/-- Two rows of three pixels, four bytes apart, shrunk to an edge of two. -/
theorem a_small_snapshot : Exact ((List.range 28).map UInt8.ofNat) 16 3 2 2 true (fit_snapshot 3 2 2)
    (downsample_snapshot ((List.range 28).map UInt8.ofNat) 16 3 2 true 2) :=
  snapshots_are_exact _ 16 3 2 true 2 (by decide) (by decide) (by decide) (by decide)
    ⟨by decide, by decide, by decide⟩

end

end taxi_camera.standalone.display_snapshot
