-- A display area moved and resized over a picture of its texture, of
-- src/app/area_edit.hpp: whatever is dragged where, the validator takes it.
import TaxiCam.Discovered

namespace taxi_camera.standalone.area_edit

open profiles List

/-! ## Numbers -/

/-- `static_cast<int>` of an unsigned number. -/
def as_int (v : UInt32) : Int := if v.toNat < 0x80000000 then v.toNat else v.toNat - 0x100000000

/-- `static_cast<unsigned>` of a number. -/
def as_unsigned (v : Int) : UInt32 := UInt32.ofNat (v % 0x100000000).toNat

/-- `std::clamp` -/
def clamp (v low high : Int) : Int := if v < low then low else if high < v then high else v

theorem as_int_small {v : UInt32} (h : v.toNat ≤ MaxPanelEdge) : as_int v = v.toNat := by
  unfold MaxPanelEdge at h
  exact if_pos (by omega)

theorem toNat_as_unsigned {v : Int} (h : 0 ≤ v) (hlt : v ≤ MaxPanelEdge) : ((as_unsigned v).toNat : Int) = v := by
  unfold MaxPanelEdge at hlt
  rw [as_unsigned, UInt32.toNat_ofNat']
  omega

theorem clamp_between {v low high : Int} (h : low ≤ high) : low ≤ clamp v low high ∧ clamp v low high ≤ high := by
  unfold clamp
  split
  · omega
  · split <;> omega

theorem clamp_of_between {v low high : Int} (hlow : low ≤ v) (hhigh : v ≤ high) : clamp v low high = v := by
  rw [clamp, if_neg (by omega), if_neg (by omega)]

/-! ## The functions -/

structure Limits where
  min_width : Int := 16
  min_height : Int := 16

/-- Large enough to keep a camera inside the profile's padding. -/
def limits (p : profiles.AircraftProfile) : Limits :=
  let pad := p.camera_padding
  let least : Int := if p.fit_texture then 16 else 64
  { min_width := max least (as_int (pad.left + pad.right) + 16)
    min_height := max least (as_int (pad.top + pad.bottom) + 16) }

/-- The left or top edge under a handle. -/
def drag_low (low high d least : Int) : Int := clamp (low + d) 0 (max (high - least) 0)

/-- The right or bottom edge under a handle. -/
def drag_high (low high d least size : Int) : Int := clamp (high + d) (min (low + least) size) size

/-- The left or top edge of the whole frame. -/
def drag_frame (low d extent size : Int) : Int := clamp (low + d) 0 (max (size - extent) 0)

/-- Handles 0 to 3 are the corners, 4 to 7 the edges' middles, 8 the whole frame. -/
def drag (start : DisplayRect) (handle dx dy tw th : Int) (least : Limits) : DisplayRect :=
  let left := as_int start.left
  let top := as_int start.top
  let right := as_int start.right
  let bottom := as_int start.bottom
  if handle = 8 then
    let w := right - left
    let h := bottom - top
    let left := drag_frame left dx w tw
    let top := drag_frame top dy h th
    { left := as_unsigned (max left 0)
      top := as_unsigned (max top 0)
      right := as_unsigned (max (left + w) 0)
      bottom := as_unsigned (max (top + h) 0) }
  else
    let left := if handle = 0 ∨ handle = 3 ∨ handle = 7 then drag_low left right dx least.min_width else left
    let right := if handle = 1 ∨ handle = 2 ∨ handle = 5 then drag_high left right dx least.min_width tw else right
    let top := if handle = 0 ∨ handle = 1 ∨ handle = 4 then drag_low top bottom dy least.min_height else top
    let bottom :=
      if handle = 2 ∨ handle = 3 ∨ handle = 6 then drag_high top bottom dy least.min_height th else bottom
    { left := as_unsigned (max left 0)
      top := as_unsigned (max top 0)
      right := as_unsigned (max right 0)
      bottom := as_unsigned (max bottom 0) }

/-- How long a side of a gauge becomes. -/
def fit_extent (low high least size : Int) : Int := min (max (high - low) least) size

/-- Where it begins: about its old middle, on the texture. -/
def fit_low (low high extent size : Int) : Int :=
  clamp (Int.tdiv (low + high) 2 - Int.tdiv extent 2) 0 (max (size - extent) 0)

/-- A gauge's rectangle made a usable area. -/
def fit (r : DisplayRect) (tw th : Int) (least : Limits) : DisplayRect :=
  let w := fit_extent (as_int r.left) (as_int r.right) least.min_width tw
  let h := fit_extent (as_int r.top) (as_int r.bottom) least.min_height th
  let left := fit_low (as_int r.left) (as_int r.right) w tw
  let top := fit_low (as_int r.top) (as_int r.bottom) h th
  { left := as_unsigned left, top := as_unsigned top, right := as_unsigned (left + w),
    bottom := as_unsigned (top + h) }

/-! ## One dimension -/

/-- From `low` to `high` is on the texture, and not shorter than the limit. -/
def Spans (least size low high : Int) : Prop := 0 ≤ low ∧ low + least ≤ high ∧ high ≤ size

variable {least size low high d : Int}

theorem drag_low_spans (h : Spans least size low high) (_ : 0 ≤ least) :
    Spans least size (drag_low low high d least) high := by
  obtain ⟨hlow, hroom, hhigh⟩ := h
  have hclamp := clamp_between (v := low + d) (show 0 ≤ max (high - least) 0 by omega)
  rw [← drag_low] at hclamp
  exact ⟨hclamp.1, by omega, hhigh⟩

theorem drag_high_spans (h : Spans least size low high) : Spans least size low (drag_high low high d least size) := by
  obtain ⟨hlow, hroom, hhigh⟩ := h
  have hclamp := clamp_between (v := high + d) (show min (low + least) size ≤ size by omega)
  rw [← drag_high] at hclamp
  exact ⟨hlow, by omega, hclamp.2⟩

theorem drag_frame_spans (h : Spans least size low high) :
    Spans least size (drag_frame low d (high - low) size) (drag_frame low d (high - low) size + (high - low)) := by
  obtain ⟨hlow, hroom, hhigh⟩ := h
  have hclamp := clamp_between (v := low + d) (show 0 ≤ max (size - (high - low)) 0 by omega)
  rw [← drag_frame] at hclamp
  exact ⟨hclamp.1, by omega, by omega⟩

/-- A fitted side spans whatever it was made from. -/
theorem fit_spans (low high : Int) (_ : 0 ≤ least) (hsize : least ≤ size) :
    Spans least size (fit_low low high (fit_extent low high least size) size)
      (fit_low low high (fit_extent low high least size) size + fit_extent low high least size) := by
  have hextent : least ≤ fit_extent low high least size ∧ fit_extent low high least size ≤ size := by
    unfold fit_extent
    omega
  have hclamp := clamp_between (v := Int.tdiv (low + high) 2 - Int.tdiv (fit_extent low high least size) 2)
    (show 0 ≤ max (size - fit_extent low high least size) 0 by omega)
  rw [← fit_low] at hclamp
  exact ⟨hclamp.1, by omega, by omega⟩

/-- A side that spans already stays where it is. -/
theorem fit_of_spans (h : Spans least size low high) (_ : 0 ≤ least) :
    fit_extent low high least size = high - low ∧ fit_low low high (high - low) size = low := by
  obtain ⟨hlow, hroom, hhigh⟩ := h
  refine ⟨by unfold fit_extent; omega, ?_⟩
  have hmiddle : Int.tdiv (low + high) 2 - Int.tdiv (high - low) 2 = low := by
    rw [Int.tdiv_eq_ediv_of_nonneg (by omega), Int.tdiv_eq_ediv_of_nonneg (by omega)]
    omega
  rw [fit_low, hmiddle]
  exact clamp_of_between hlow (by omega)

/-! ## Profiles -/

def Pmdg777TopPadding : UInt32 := 85

/-- The built-in profiles keep the usual insets, or those of the PMDG 777s; the insets of a set-up
aircraft leave room on the panel that a side was set up on (`valid_layout`). -/
inductive Usable (p : profiles.AircraftProfile) : Prop
  | built_in (hfixed : p.fit_texture = false)
      (hpadding : p.camera_padding = { left := 16, top := 12, right := 16, bottom := 0 } ∨
        p.camera_padding = { top := Pmdg777TopPadding })
  | set_up (hfits : p.fit_texture = true) (width height mips : Nat)
      (hshape : panel_texture_shape width height mips 28 = true)
      (hroom : (inset_rect { right := UInt32.ofNat width, bottom := UInt32.ofNat height } p.camera_padding).left <
        (inset_rect { right := UInt32.ofNat width, bottom := UInt32.ofNat height } p.camera_padding).right)

variable {p : profiles.AircraftProfile}

theorem Usable.padding_small (h : Usable p) :
    p.camera_padding.left.toNat + p.camera_padding.right.toNat < MaxPanelEdge ∧
      p.camera_padding.top.toNat + p.camera_padding.bottom.toNat < MaxPanelEdge := by
  cases h with
  | built_in hfixed hpadding =>
    rcases hpadding with h | h <;> rw [h] <;> decide
  | set_up hfits width height mips hshape hroom =>
    obtain ⟨hw, hh⟩ := insets_of_room hroom
    simp only [panel_texture_shape, Bool.and_eq_true, decide_eq_true_eq] at hshape
    simp only [UInt32.toNat_ofNat', UInt32.toNat_zero] at hw hh
    omega

/-- The limits leave 16 pixels between the insets, and 64 for a display that keeps its shape. -/
theorem limits_room (h : Usable p) :
    p.camera_padding.left.toNat + p.camera_padding.right.toNat + 16 ≤ (limits p).min_width ∧
      p.camera_padding.top.toNat + p.camera_padding.bottom.toNat + 16 ≤ (limits p).min_height ∧
      (p.fit_texture = false → 64 ≤ (limits p).min_width ∧ 64 ≤ (limits p).min_height) := by
  obtain ⟨hw, hh⟩ := h.padding_small
  have hmax : MaxPanelEdge = 16384 := rfl
  have hsumw : (p.camera_padding.left + p.camera_padding.right).toNat =
      p.camera_padding.left.toNat + p.camera_padding.right.toNat := by
    rw [UInt32.toNat_add, Nat.mod_eq_of_lt (by omega)]
  have hsumh : (p.camera_padding.top + p.camera_padding.bottom).toNat =
      p.camera_padding.top.toNat + p.camera_padding.bottom.toNat := by
    rw [UInt32.toNat_add, Nat.mod_eq_of_lt (by omega)]
  rw [limits]
  dsimp only
  rw [as_int_small (by rw [hsumw]; omega), as_int_small (by rw [hsumh]; omega), hsumw, hsumh]
  refine ⟨by omega, by omega, fun hfixed => ?_⟩
  rw [hfixed]
  exact ⟨by simp, by simp⟩

/-! ## Areas -/

/-- The area lies on the texture, and is no smaller than the limits. -/
structure OnTexture (least : Limits) (tw th : Int) (a : DisplayRect) : Prop where
  across : Spans least.min_width tw a.left.toNat a.right.toNat
  down : Spans least.min_height th a.top.toNat a.bottom.toNat

/-- What a handle does not move stays where it was. -/
structure Keeps (handle : Int) (a b : DisplayRect) : Prop where
  left : handle ∉ [0, 3, 7, 8] → b.left = a.left
  right : handle ∉ [1, 2, 5, 8] → b.right = a.right
  top : handle ∉ [0, 1, 4, 8] → b.top = a.top
  bottom : handle ∉ [2, 3, 6, 8] → b.bottom = a.bottom
  size : handle = 8 → b.right - b.left = a.right - a.left ∧ b.bottom - b.top = a.bottom - a.top

/-- With the area, any choices of the user are as valid as before. -/
def Accepted (p : profiles.AircraftProfile) (a : DisplayRect) : Prop :=
  ∀ (o : DisplayOverride) (side : Fin MaxDisplaySides), valid_override p o = true →
    side.val < override_sides p o →
      valid_override p { o with areas := Function.update o.areas side a } = true

variable {tw th : Int} {a : DisplayRect}

theorem OnTexture.accepted (hp : Usable p) (hw : tw ≤ MaxPanelEdge) (hh : th ≤ MaxPanelEdge)
    (h : OnTexture (limits p) tw th a) : Accepted p a := by
  intro o side hvalid hside
  obtain ⟨hacross, hdown, hfixed⟩ := limits_room hp
  obtain ⟨-, hwidth, hright⟩ := h.across
  obtain ⟨-, hheight, hbottom⟩ := h.down
  unfold valid_override valid_choices at hvalid ⊢
  rw [all_eq_true] at hvalid ⊢
  intro other hother
  have hold := hvalid other hother
  by_cases hsame : other = side
  · subst hsame
    have hname := name_of_valid_side hold
    refine valid_side_of_area (Function.update_self ..) hname hside (by omega) (by omega) (by omega) (by omega) ?_
    intro hfit
    have := hfixed hfit
    omega
  rw [← hold]
  exact valid_side_congr rfl (Function.update_of_ne hsame ..)

theorem as_unsigned_edge (v : UInt32) : as_unsigned (max (v.toNat : Int) 0) = v := by
  have hv := v.toNat_lt
  have hnat : ((max (v.toNat : Int) 0) % 0x100000000).toNat = v.toNat := by omega
  rw [as_unsigned, hnat, UInt32.ofNat_toNat]

/-- An edge that the handle does not move. -/
theorem edge_stays {handle i j k moved : Int} {v : UInt32} (h : handle ∉ [i, j, k, 8]) :
    as_unsigned (max (if handle = i ∨ handle = j ∨ handle = k then moved else (v.toNat : Int)) 0) = v := by
  have hstays : ¬(handle = i ∨ handle = j ∨ handle = k) := by
    simp only [mem_cons, not_mem_nil, or_false] at h
    omega
  rw [if_neg hstays, as_unsigned_edge]

variable {least : Limits} {left top right bottom : Int} {start : DisplayRect}

/-- The area of edges that span. -/
theorem on_texture_of_spans (hw : tw ≤ MaxPanelEdge) (hh : th ≤ MaxPanelEdge)
    (hacross : Spans least.min_width tw left right) (hdown : Spans least.min_height th top bottom)
    (hwidth : 0 ≤ least.min_width) (hheight : 0 ≤ least.min_height) :
    OnTexture least tw th
      { left := as_unsigned left, top := as_unsigned top, right := as_unsigned right,
        bottom := as_unsigned bottom } := by
  have hx := hacross
  have hy := hdown
  obtain ⟨hleft, hroom, hright⟩ := hx
  obtain ⟨htop, hroom', hbottom⟩ := hy
  constructor
  · rwa [toNat_as_unsigned hleft (by omega), toNat_as_unsigned (v := right) (by omega) (by omega)]
  · rwa [toNat_as_unsigned htop (by omega), toNat_as_unsigned (v := bottom) (by omega) (by omega)]

/-- The code takes the larger of an edge and 0 first. -/
theorem on_texture_of_dragged (hw : tw ≤ MaxPanelEdge) (hh : th ≤ MaxPanelEdge)
    (hacross : Spans least.min_width tw left right) (hdown : Spans least.min_height th top bottom)
    (hwidth : 0 ≤ least.min_width) (hheight : 0 ≤ least.min_height) :
    OnTexture least tw th
      { left := as_unsigned (max left 0), top := as_unsigned (max top 0), right := as_unsigned (max right 0),
        bottom := as_unsigned (max bottom 0) } := by
  have hx := hacross
  have hy := hdown
  obtain ⟨hleft, hroom, hright⟩ := hx
  obtain ⟨htop, hroom', hbottom⟩ := hy
  rw [max_eq_left hleft, max_eq_left htop, max_eq_left (show 0 ≤ right by omega),
    max_eq_left (show 0 ≤ bottom by omega)]
  exact on_texture_of_spans hw hh hacross hdown hwidth hheight

/-- The edges of an area on the texture are small numbers. -/
theorem OnTexture.as_int (h : OnTexture least tw th a) (hw : tw ≤ MaxPanelEdge) (hh : th ≤ MaxPanelEdge)
    (hwidth : 0 ≤ least.min_width) (hheight : 0 ≤ least.min_height) :
    area_edit.as_int a.left = a.left.toNat ∧ area_edit.as_int a.top = a.top.toNat ∧
      area_edit.as_int a.right = a.right.toNat ∧ area_edit.as_int a.bottom = a.bottom.toNat := by
  obtain ⟨hleft, hroom, hright⟩ := h.across
  obtain ⟨htop, hroom', hbottom⟩ := h.down
  exact ⟨as_int_small (by omega), as_int_small (by omega), as_int_small (by omega), as_int_small (by omega)⟩

/-- A dragged area stays on the texture, whatever the handle and the movement. -/
theorem drag_on_texture (hw : tw ≤ MaxPanelEdge) (hh : th ≤ MaxPanelEdge) (hwidth : 0 ≤ least.min_width)
    (hheight : 0 ≤ least.min_height) (h : OnTexture least tw th start) (handle dx dy : Int) :
    OnTexture least tw th (drag start handle dx dy tw th least) := by
  obtain ⟨hl, ht, hr, hb⟩ := h.as_int hw hh hwidth hheight
  unfold drag
  rw [hl, ht, hr, hb]
  split
  · exact on_texture_of_dragged hw hh (drag_frame_spans h.across) (drag_frame_spans h.down) hwidth hheight
  refine on_texture_of_dragged hw hh ?_ ?_ hwidth hheight
  · by_cases hlow : handle = 0 ∨ handle = 3 ∨ handle = 7
    · rw [if_pos hlow, if_neg (by omega)]
      exact drag_low_spans h.across hwidth
    rw [if_neg hlow]
    split
    · exact drag_high_spans h.across
    · exact h.across
  · by_cases hlow : handle = 0 ∨ handle = 1 ∨ handle = 4
    · rw [if_pos hlow, if_neg (by omega)]
      exact drag_low_spans h.down hheight
    rw [if_neg hlow]
    split
    · exact drag_high_spans h.down
    · exact h.down

/-- The frame keeps its size where it is moved. -/
theorem moved_width {low extent : Int} (hlow : 0 ≤ low) (_ : 0 ≤ extent) (hsize : low + extent ≤ MaxPanelEdge)
    {l r : UInt32} (hlr : l.toNat ≤ r.toNat) (h : extent = r.toNat - l.toNat) :
    as_unsigned (max (low + extent) 0) - as_unsigned (max low 0) = r - l := by
  have hl := toNat_as_unsigned (v := max low 0) (by omega) (by omega)
  have hr := toNat_as_unsigned (v := max (low + extent) 0) (by omega) (by omega)
  rw [← UInt32.toNat_inj, toNat_width (by omega), toNat_width hlr]
  omega

theorem drag_keeps (hw : tw ≤ MaxPanelEdge) (hh : th ≤ MaxPanelEdge) (hwidth : 0 ≤ least.min_width)
    (hheight : 0 ≤ least.min_height) (h : OnTexture least tw th start) (handle dx dy : Int) :
    Keeps handle start (drag start handle dx dy tw th least) := by
  obtain ⟨hl, ht, hr, hb⟩ := h.as_int hw hh hwidth hheight
  unfold drag
  rw [hl, ht, hr, hb]
  split
  · rename_i hframe
    obtain ⟨hx, hx', hx''⟩ := drag_frame_spans (d := dx) h.across
    obtain ⟨hy, hy', hy''⟩ := drag_frame_spans (d := dy) h.down
    constructor
    all_goals intro hmoved
    iterate 4
      rw [hframe] at hmoved
      exact absurd (by decide) hmoved
    · exact ⟨moved_width hx (by omega) (by omega) (by omega) rfl, moved_width hy (by omega) (by omega) (by omega) rfl⟩
  exact ⟨edge_stays, edge_stays, edge_stays, edge_stays, fun hmoved => absurd hmoved ‹_›⟩

theorem fit_on_texture (hw : tw ≤ MaxPanelEdge) (hh : th ≤ MaxPanelEdge) (hwidth : 0 ≤ least.min_width)
    (hheight : 0 ≤ least.min_height) (hacross : least.min_width ≤ tw) (hdown : least.min_height ≤ th)
    (r : DisplayRect) : OnTexture least tw th (fit r tw th least) :=
  on_texture_of_spans hw hh (fit_spans _ _ hwidth hacross) (fit_spans _ _ hheight hdown) hwidth hheight

/-- An area that can be used already is left alone. -/
theorem fit_of_on_texture (hw : tw ≤ MaxPanelEdge) (hh : th ≤ MaxPanelEdge) (hwidth : 0 ≤ least.min_width)
    (hheight : 0 ≤ least.min_height) {r : DisplayRect} (h : OnTexture least tw th r) :
    fit r tw th least = r := by
  obtain ⟨hl, ht, hr, hb⟩ := h.as_int hw hh hwidth hheight
  obtain ⟨hx, hx'⟩ := fit_of_spans h.across hwidth
  obtain ⟨hy, hy'⟩ := fit_of_spans h.down hheight
  have hedge (v : UInt32) : as_unsigned (v.toNat : Int) = v := by
    have hsame := as_unsigned_edge v
    rwa [max_eq_left (Int.natCast_nonneg _)] at hsame
  have hback (a b : Int) : a + (b - a) = b := by omega
  unfold fit
  rw [hl, ht, hr, hb]
  dsimp only
  rw [hx, hx', hy, hy', hback, hback]
  simp only [hedge]

/-- What is dragged anywhere, and what is fitted, can be saved as the area of a side. -/
theorem areas_are_saveable (hp : Usable p) (hw : tw ≤ MaxPanelEdge) (hh : th ≤ MaxPanelEdge)
    (hacross : (limits p).min_width ≤ tw) (hdown : (limits p).min_height ≤ th) :
    (∀ start, OnTexture (limits p) tw th start → ∀ handle ∈ [0, 1, 2, 3, 4, 5, 6, 7, 8], ∀ dx dy,
      OnTexture (limits p) tw th (drag start handle dx dy tw th (limits p)) ∧
        Keeps handle start (drag start handle dx dy tw th (limits p)) ∧
        Accepted p (drag start handle dx dy tw th (limits p))) ∧
    ∀ r, OnTexture (limits p) tw th (fit r tw th (limits p)) ∧ Accepted p (fit r tw th (limits p)) ∧
      (OnTexture (limits p) tw th r → fit r tw th (limits p) = r) := by
  obtain ⟨hx, hy, -⟩ := limits_room hp
  have hwidth : 0 ≤ (limits p).min_width := by omega
  have hheight : 0 ≤ (limits p).min_height := by omega
  refine ⟨fun start hstart handle _ dx dy => ?_, fun r => ?_⟩
  · have hdragged := drag_on_texture hw hh hwidth hheight hstart handle dx dy
    exact ⟨hdragged, drag_keeps hw hh hwidth hheight hstart handle dx dy, hdragged.accepted hp hw hh⟩
  · have hfitted := fit_on_texture hw hh hwidth hheight hacross hdown r
    exact ⟨hfitted, hfitted.accepted hp hw hh, fit_of_on_texture hw hh hwidth hheight⟩

/-- The shape of the FlyByWire A380X's displays. -/
def fbw_a380x : profiles.AircraftProfile where
  width := 768
  height := 1024
  mips := 5

/-- The upper edge dragged far off the texture, and the gauge in its corner. -/
theorem a_corner_is_saveable :
    drag { left := 100, top := 50, right := 500, bottom := 400 } 0 (-5000) 9000 768 1024 (limits fbw_a380x) =
        { left := 0, top := 336, right := 500, bottom := 400 } ∧
      Accepted fbw_a380x (drag { left := 100, top := 50, right := 500, bottom := 400 } 0 (-5000) 9000 768 1024
        (limits fbw_a380x)) ∧
      Accepted fbw_a380x (fit { left := 760, top := 1020, right := 768, bottom := 1024 } 768 1024
        (limits fbw_a380x)) := by
  have husable : Usable fbw_a380x := .built_in rfl (.inl rfl)
  have hsaveable := areas_are_saveable husable (show (768 : Int) ≤ MaxPanelEdge by decide)
    (show (1024 : Int) ≤ MaxPanelEdge by decide) (by decide) (by decide)
  refine ⟨by decide, (hsaveable.1 _ ⟨?_, ?_⟩ 0 (by decide) (-5000) 9000).2.2, (hsaveable.2 _).2.1⟩
  · unfold Spans
    decide
  · unfold Spans
    decide

end taxi_camera.standalone.area_edit
