-- The user's display choices for a profile, and their validator, of
-- src/profiles/discovered.hpp.
import TaxiCam.FrameOutput

namespace taxi_camera.profiles

def MaxPanelName : Nat := 32

abbrev PanelName := Vector UInt8 MaxPanelName

namespace discovered_detail

/-- Printable ASCII with a 0 behind it, and nothing else in the array. -/
def terminated_name (text : List UInt8) (allow_empty : Bool) : Bool :=
  match text.idxOf? 0 with
  | none => false
  | some stop => !(stop = 0 && !allow_empty) && ((text.take stop).all fun c => !(c < 32 || c > 126)) &&
      (text.drop stop).all (· = 0)

end discovered_detail

/-- Per side, another panel by name and a display area in that texture's pixels. -/
structure DisplayOverride where
  textures : Fin MaxDisplaySides → PanelName
  areas : Fin MaxDisplaySides → DisplayRect

def empty_area (r : DisplayRect) : Bool := r.left = 0 && r.top = 0 && r.right = 0 && r.bottom = 0

/-- The first character of a side's panel name is there. -/
def DisplayOverride.named (o : DisplayOverride) (side : Fin MaxDisplaySides) : Bool :=
  (o.textures side).toList.headD 0 ≠ 0

open discovered_detail in
/-- One turn of the loop of `valid_override`. -/
def valid_side (sides : Nat) (fit_texture : Bool) (padding : DisplayInsets) (o : DisplayOverride)
    (side : Fin MaxDisplaySides) : Bool :=
  let a := o.areas side
  if !terminated_name (o.textures side).toList true ∨ side.val ≥ sides ∧ (o.named side ∨ !empty_area a) then false
  else if empty_area a then true
  -- A real rectangle on a texture. A catalog profile keeps a whole display.
  else if a.right ≤ a.left ∨ a.bottom ≤ a.top ∨ a.right.toNat > MaxPanelEdge ∨ a.bottom.toNat > MaxPanelEdge ∨
      !fit_texture ∧ (a.right - a.left < 64 ∨ a.bottom - a.top < 64) then false
  else
    let content := inset_rect a padding
    !(content.right ≤ content.left ∨ content.bottom ≤ content.top)

def valid_choices (sides : Nat) (fit_texture : Bool) (padding : DisplayInsets) (o : DisplayOverride) : Bool :=
  (List.finRange MaxDisplaySides).all (valid_side sides fit_texture padding o)

theorem lower_side : 2 < MaxDisplaySides := Nat.lt_succ_self 2

def pilot_pair (p : AircraftProfile) : Bool := !p.fit_texture && p.display_layout = .pair

def override_sides (base : AircraftProfile) (o : DisplayOverride) : Nat :=
  if base.sides = 2 ∧ pilot_pair base ∧ o.named ⟨2, lower_side⟩ then 3 else base.sides

def valid_override (base : AircraftProfile) (o : DisplayOverride) : Bool :=
  valid_choices (override_sides base o) base.fit_texture base.camera_padding o

/-! ## Insets -/

theorem toNat_width {a b : UInt32} (h : a.toNat ≤ b.toNat) : (b - a).toNat = b.toNat - a.toNat :=
  UInt32.toNat_sub_of_le _ _ (UInt32.le_iff_toNat_le.mpr h)

theorem toNat_moved {a b c : UInt32} (h : a.toNat + b.toNat ≤ c.toNat) : (a + b).toNat = a.toNat + b.toNat := by
  have hc := c.toNat_lt
  rw [UInt32.toNat_add, Nat.mod_eq_of_lt]
  omega

variable {padding : DisplayInsets} {outer : DisplayRect}

/-- An area that is larger than its insets has room for the cameras. -/
theorem room_for_cameras (hwidth : outer.left.toNat + padding.left.toNat + padding.right.toNat < outer.right.toNat)
    (hheight : outer.top.toNat + padding.top.toNat + padding.bottom.toNat < outer.bottom.toNat) :
    (inset_rect outer padding).left < (inset_rect outer padding).right ∧
      (inset_rect outer padding).top < (inset_rect outer padding).bottom := by
  have hempty : ¬(outer.right ≤ outer.left ∨ outer.bottom ≤ outer.top) := by
    simp only [UInt32.le_iff_toNat_le]
    omega
  have hw : (outer.right - outer.left).toNat = outer.right.toNat - outer.left.toNat := toNat_width (by omega)
  have hh : (outer.bottom - outer.top).toNat = outer.bottom.toNat - outer.top.toNat := toNat_width (by omega)
  have hw' : (outer.right - outer.left - padding.left).toNat =
      outer.right.toNat - outer.left.toNat - padding.left.toNat := by
    rw [toNat_width (by omega), hw]
  have hh' : (outer.bottom - outer.top - padding.top).toNat =
      outer.bottom.toNat - outer.top.toNat - padding.top.toNat := by
    rw [toNat_width (by omega), hh]
  unfold inset_rect
  rw [if_neg hempty]
  rw [if_neg (by simp only [ge_iff_le, UInt32.le_iff_toNat_le, hw, hh, hw', hh']; omega)]
  simp only [UInt32.lt_iff_toNat_lt]
  rw [toNat_moved (c := outer.right) (by omega), toNat_moved (c := outer.bottom) (by omega),
    toNat_width (by omega), toNat_width (by omega)]
  omega

/-- Insets that leave something of an area are smaller than it. -/
theorem insets_of_room (h : (inset_rect outer padding).left < (inset_rect outer padding).right) :
    outer.left.toNat + padding.left.toNat + padding.right.toNat < outer.right.toNat ∧
      outer.top.toNat + padding.top.toNat + padding.bottom.toNat < outer.bottom.toNat := by
  unfold inset_rect at h
  split at h
  · exact absurd h (UInt32.lt_irrefl _)
  rename_i hempty
  dsimp only at h
  split at h
  · exact absurd h (UInt32.lt_irrefl _)
  rename_i hroom
  simp only [not_or, UInt32.not_le, ge_iff_le, UInt32.lt_iff_toNat_lt] at hempty hroom
  have hw := toNat_width (Nat.le_of_lt hempty.1)
  have hh := toNat_width (Nat.le_of_lt hempty.2)
  have hw' := toNat_width (a := padding.left) (b := outer.right - outer.left) (by omega)
  have hh' := toNat_width (a := padding.top) (b := outer.bottom - outer.top) (by omega)
  omega

/-! ## Choices -/

section
variable {sides : Nat} {fit_texture : Bool} {padding : DisplayInsets} {o : DisplayOverride}
  {side : Fin MaxDisplaySides}

theorem name_of_valid_side (h : valid_side sides fit_texture padding o side = true) :
    discovered_detail.terminated_name (o.textures side).toList true = true := by
  unfold valid_side at h
  dsimp only at h
  split at h
  · cases h
  rename_i hname
  rw [not_or, Bool.not_eq_true', Bool.not_eq_false] at hname
  exact hname.1

/-- A side's check reads that side alone. -/
theorem valid_side_congr {o' : DisplayOverride} (htextures : o'.textures side = o.textures side)
    (hareas : o'.areas side = o.areas side) :
    valid_side sides fit_texture padding o' side = valid_side sides fit_texture padding o side := by
  unfold valid_side DisplayOverride.named
  rw [htextures, hareas]

/-- A side with a real area takes it where the insets leave room, and the shape of a catalog profile. -/
theorem valid_side_of_area {a : DisplayRect} (ha : o.areas side = a)
    (hname : discovered_detail.terminated_name (o.textures side).toList true = true) (hside : side.val < sides)
    (hright : a.right.toNat ≤ MaxPanelEdge) (hbottom : a.bottom.toNat ≤ MaxPanelEdge)
    (hwidth : a.left.toNat + padding.left.toNat + padding.right.toNat < a.right.toNat)
    (hheight : a.top.toNat + padding.top.toNat + padding.bottom.toNat < a.bottom.toNat)
    (hfixed : fit_texture = false → a.left.toNat + 64 ≤ a.right.toNat ∧ a.top.toNat + 64 ≤ a.bottom.toNat) :
    valid_side sides fit_texture padding o side = true := by
  have hcontent := room_for_cameras hwidth hheight
  have hw : (a.right - a.left).toNat = a.right.toNat - a.left.toNat := toNat_width (by omega)
  have hh : (a.bottom - a.top).toNat = a.bottom.toNat - a.top.toNat := toNat_width (by omega)
  have hempty : empty_area a = false := by
    rw [empty_area, Bool.and_eq_false_iff, Bool.and_eq_false_iff]
    refine .inl (.inr (decide_eq_false fun hzero => ?_))
    rw [hzero, UInt32.toNat_zero] at hwidth
    omega
  have hreal : ¬(a.right ≤ a.left ∨ a.bottom ≤ a.top ∨ a.right.toNat > MaxPanelEdge ∨
      a.bottom.toNat > MaxPanelEdge ∨ (!fit_texture) = true ∧ (a.right - a.left < 64 ∨ a.bottom - a.top < 64)) := by
    have h64 : (64 : UInt32).toNat = 64 := rfl
    simp only [UInt32.le_iff_toNat_le, UInt32.lt_iff_toNat_lt, hw, hh, h64, Bool.not_eq_true']
    rintro (h | h | h | h | ⟨hfit, h⟩)
    · omega
    · omega
    · omega
    · omega
    · have := hfixed hfit
      omega
  unfold valid_side
  rw [ha, if_neg, hempty, if_neg Bool.false_ne_true, if_neg hreal]
  · simp only [UInt32.not_le.mpr hcontent.1, UInt32.not_le.mpr hcontent.2, or_self, decide_false, Bool.not_false]
  · rw [hname]
    simp only [Bool.not_true, Bool.false_eq_true, false_or, not_and]
    intro hbeyond
    omega

end

end taxi_camera.profiles
