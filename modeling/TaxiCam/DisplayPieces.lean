-- The pieces of an area are an exact partition of the pixels that no mark
-- covers, and the copies of these pieces write those pixels and no other one.
import TaxiCam.DisplayKeep
import TaxiCam.Tilings
import Mathlib.Data.List.Induction
import Mathlib.Data.List.Sort

namespace taxi_camera.standalone.display_keep

open tilings List
open Rect (pixels)

variable {area : Rect} {top x : Int} {marks : List Rect} {p : Int × Int}

/-! ## One rectangle -/

/-- What `add` adds where there is room. -/
def slab (left top right bottom : Int) : List Rect :=
  if left < right ∧ top < bottom then [⟨left, top, right, bottom⟩] else []

theorem slab_length (left top right bottom : Int) : (slab left top right bottom).length ≤ 1 := by
  unfold slab
  split <;> simp

theorem add_slab {capacity : Nat} {out : Pieces} {left top right bottom : Int} (hroom : out.rects.length < capacity) :
    out.add capacity left top right bottom = { rects := out.rects ++ slab left top right bottom } := by
  unfold Pieces.add slab
  by_cases h : left < right ∧ top < bottom
  · rw [if_pos ⟨h.1, h.2, hroom⟩, if_pos h]
  · rw [if_neg (fun hadd => h ⟨hadd.1, hadd.2.1⟩), if_neg h, append_nil]

variable {row stop : Int} {done later rest : List Rect} {a b mark r : Rect}

theorem mem_pixels : p ∈ r.pixels ↔ r.left ≤ p.1 ∧ p.1 < r.right ∧ r.top ≤ p.2 ∧ p.2 < r.bottom := Iff.rfl

theorem slab_tiles (left top right bottom : Int) :
    Tiles pixels (slab left top right bottom) (pixels ⟨left, top, right, bottom⟩) := by
  unfold slab
  split
  · rename_i h
    exact .single ⟨(left, top), mem_pixels.mpr ⟨Int.le_refl _, h.1, Int.le_refl _, h.2⟩⟩ fun p => Iff.rfl
  rename_i h
  refine .nil fun p hp => h ?_
  obtain ⟨hleft, hright, hlow, hhigh⟩ := mem_pixels.mp hp
  exact ⟨Int.lt_of_le_of_lt hleft hright, Int.lt_of_le_of_lt hlow hhigh⟩

/-! ## One row -/

theorem left_le_of_sorted (h : before b a = false) (htop : a.top = b.top) : a.left ≤ b.left := by
  simp only [before, htop, ne_eq, not_true_eq_false, if_false, decide_eq_false_iff_not] at h
  omega

theorem top_le_of_sorted (h : before b a = false) : a.top ≤ b.top := by
  unfold before at h
  split at h
  · rw [decide_eq_false_iff_not] at h
    omega
  · omega

/-- The pixels of a row from `x` to `stop` that no mark of the row covers. -/
def row_gaps (top x stop : Int) (row : List Rect) : Set (Int × Int) :=
  {p | x ≤ p.1 ∧ p.1 < stop ∧ p.2 = top ∧ ∀ m ∈ row, ¬ (m.left ≤ p.1 ∧ p.1 < m.right)}

/-- The marks that `sweep_row` takes, what it leaves, and the pieces that it adds on the way. -/
structure RowSwept (top x : Int) (marks : List Rect) (stop : Int) (row later pieces : List Rect) :
    Prop where
  split_eq : marks = row ++ later
  sweep_eq : ∀ capacity out, out.rects.length + marks.length ≤ capacity →
    sweep_row capacity top x marks out = (stop, later, { rects := out.rects ++ pieces })
  few : pieces.length ≤ row.length
  on_row : ∀ m ∈ row, m.top = top ∧ m.right ≤ stop
  below : ∀ m ∈ later, top < m.top
  start_le : x ≤ stop
  stop_le : ∀ right, x ≤ right → (∀ m ∈ row, m.right ≤ right) → stop ≤ right
  tiles : Tiles pixels pieces (row_gaps top x stop row)

theorem sweep_row_swept (hsorted : marks.Pairwise fun a b => before b a = false)
    (htop : ∀ m ∈ marks, top ≤ m.top ∧ m.left < m.right) :
    ∃ stop row later pieces, RowSwept top x marks stop row later pieces := by
  induction marks generalizing x with
  | nil =>
    refine ⟨x, [], [], [], rfl, fun _ out _ => ?_, Nat.le_refl _, by simp, by simp, Int.le_refl _,
      fun _ hx _ => hx, .nil fun p hp => ?_⟩
    · rw [sweep_row, append_nil]
    · obtain ⟨hx, hstop, -⟩ := hp
      omega
  | cons mark rest ih =>
    obtain ⟨hmark, hrest⟩ := pairwise_cons.mp hsorted
    obtain ⟨hle, hwide⟩ := htop mark mem_cons_self
    by_cases hon : mark.top = top
    · obtain ⟨stop, row, later, pieces, h⟩ := ih (x := max x mark.right) hrest
        fun m hm => htop m (mem_cons_of_mem _ hm)
      have hstart := h.start_le
      refine ⟨stop, mark :: row, later, slab x top mark.left (top + MarkHeight) ++ pieces,
        by rw [h.split_eq]; rfl, fun capacity out hroom => ?_, ?_, ?_, h.below, by omega,
        fun right hx hright => ?_, ?_⟩
      · have hslab := slab_length x top mark.left (top + MarkHeight)
        rw [length_cons] at hroom
        rw [sweep_row, if_pos hon, add_slab (by omega), h.sweep_eq, append_assoc]
        rw [length_append]
        omega
      · have hslab := slab_length x top mark.left (top + MarkHeight)
        have hfew := h.few
        rw [length_append, length_cons]
        omega
      · intro m hm
        rcases mem_cons.mp hm with rfl | hm
        · exact ⟨hon, by omega⟩
        · exact h.on_row m hm
      · obtain ⟨hmark, hothers⟩ := forall_mem_cons.mp hright
        exact h.stop_le right (by omega) hothers
      · -- Before the mark the row is free: later marks of the row start behind it.
        have hfree : ∀ m ∈ row, mark.left ≤ m.left := by
          intro m hm
          have hmem : m ∈ rest := by
            rw [h.split_eq]
            exact mem_append_left _ hm
          exact left_le_of_sorted (hmark m hmem) (hon.trans (h.on_row m hm).1.symm)
        refine (slab_tiles x top mark.left (top + MarkHeight)).append h.tiles ?_ fun p => ?_
        · rw [Set.disjoint_left]
          rintro p hp ⟨hx, -⟩
          rw [mem_pixels] at hp
          dsimp only at hp
          omega
        · rw [mem_pixels]
          simp only [row_gaps, Set.mem_ofPred_eq, forall_mem_cons, MarkHeight]
          constructor
          · rintro ⟨hx, hstop, hrow, hmark, hothers⟩
            by_cases hbefore : p.1 < mark.left
            · exact .inl ⟨hx, hbefore, by omega, by omega⟩
            · exact .inr ⟨by omega, hstop, hrow, hothers⟩
          · rintro (⟨hx, hbefore, hlow, hhigh⟩ | ⟨hx, hstop, hrow, hothers⟩)
            · refine ⟨hx, by omega, by omega, by omega, fun m hm => ?_⟩
              have := hfree m hm
              omega
            · exact ⟨by omega, hstop, hrow, by omega, hothers⟩
    · refine ⟨x, [], mark :: rest, [], rfl, fun capacity out hroom => ?_, Nat.le_refl _, by simp, ?_,
        Int.le_refl _, fun _ hx _ => hx, .nil fun p hp => ?_⟩
      · rw [sweep_row, if_neg hon, append_nil]
      · intro m hm
        rcases mem_cons.mp hm with rfl | hm
        · omega
        have := top_le_of_sorted (hmark m hm)
        omega
      · obtain ⟨hx, hstop, -⟩ := hp
        omega

/-- The inner loop takes at least the mark that names the row. -/
theorem RowSwept.takes {row pieces : List Rect}
    (h : RowSwept mark.top x (mark :: rest) stop row later pieces) : 0 < row.length := by
  rw [length_pos_iff]
  rintro rfl
  have hsplit := h.split_eq
  rw [nil_append] at hsplit
  exact Int.lt_irrefl _ (h.below mark (hsplit ▸ mem_cons_self))

theorem before_total (a b : Rect) : before b a = false ∨ before a b = false := by
  simp only [before]
  split <;> split <;> simp only [decide_eq_false_iff_not] <;> omega

theorem before_trans {c : Rect} (hab : before b a = false) (hbc : before c b = false) : before c a = false := by
  simp only [before] at hab hbc ⊢
  split at hab <;> split at hbc <;> split <;> simp only [decide_eq_false_iff_not] at hab hbc ⊢ <;>
    omega

/-- One sort that `std::sort` may be. -/
def insertion_sort : StdSort before where
  sort := List.insertionSort fun a b => before b a = false
  perm := perm_insertionSort _
  sorted := by
    have htotal : Std.Total fun a b : Rect => before b a = false := ⟨before_total⟩
    have htrans : IsTrans Rect fun a b => before b a = false := ⟨fun _ _ _ => before_trans⟩
    exact pairwise_insertionSort _

/-! ## All rows -/

/-- The marks of an area: one row high, inside, in the order of the sort. -/
structure Inside (area : Rect) (row : Int) (marks : List Rect) : Prop where
  sorted : marks.Pairwise fun a b => before b a = false
  fits : ∀ m ∈ marks, area.left ≤ m.left ∧ m.left < m.right ∧ m.right ≤ area.right ∧
    row ≤ m.top ∧ m.top < area.bottom

/-- The pixels of the area from a row on that no mark covers. -/
def gaps (area : Rect) (row : Int) (marks : List Rect) : Set (Int × Int) :=
  {p | area.left ≤ p.1 ∧ p.1 < area.right ∧ row ≤ p.2 ∧ p.2 < area.bottom ∧
    ∀ m ∈ marks, ¬ (m.left ≤ p.1 ∧ p.1 < m.right ∧ p.2 = m.top)}

/-- One row of marks: the rows above it, its gaps, and the rows below it. -/
theorem gaps_row (hrow : row ≤ top) (htop : top < area.bottom) (hstart : area.left ≤ stop) (hstop : stop ≤ area.right)
    (hon : ∀ m ∈ done, m.top = top ∧ m.right ≤ stop ∧ area.left ≤ m.left)
    (hbelow : ∀ m ∈ later, top < m.top) (p : Int × Int) :
    p ∈ gaps area row (done ++ later) ↔
      p ∈ pixels ⟨area.left, row, area.right, top⟩ ∨ p ∈ row_gaps top area.left stop done ∨
        p ∈ pixels ⟨stop, top, area.right, top + MarkHeight⟩ ∨
        p ∈ gaps area (top + MarkHeight) later := by
  simp only [gaps, row_gaps, mem_pixels, Set.mem_ofPred_eq, MarkHeight, forall_mem_append]
  constructor
  · rintro ⟨hleft, hright, hlow, hhigh, hdone, hlater⟩
    rcases Int.lt_trichotomy p.2 top with habove | hsame | hunder
    · exact .inl ⟨hleft, hright, hlow, habove⟩
    · by_cases hp : p.1 < stop
      · refine .inr (.inl ⟨hleft, hp, hsame, fun m hm hcover => ?_⟩)
        exact hdone m hm ⟨hcover.1, hcover.2, hsame.trans (hon m hm).1.symm⟩
      · exact .inr (.inr (.inl ⟨by omega, hright, by omega, by omega⟩))
    · exact .inr (.inr (.inr ⟨hleft, hright, by omega, hhigh, hlater⟩))
  · rintro (⟨hleft, hright, hlow, habove⟩ | ⟨hleft, hp, hsame, hgap⟩ |
      ⟨hp, hright, hlow, hhigh⟩ | ⟨hleft, hright, hlow, hhigh, hlater⟩)
    · refine ⟨hleft, hright, hlow, by omega, fun m hm => ?_, fun m hm => ?_⟩
      · have := hon m hm
        omega
      · have := hbelow m hm
        omega
    · refine ⟨hleft, by omega, by omega, by omega, fun m hm hcover => ?_, fun m hm => ?_⟩
      · exact hgap m hm ⟨hcover.1, hcover.2.1⟩
      · have := hbelow m hm
        omega
    · refine ⟨by omega, hright, by omega, by omega, fun m hm => ?_, fun m hm => ?_⟩
      · have := hon m hm
        omega
      · have := hbelow m hm
        omega
    · refine ⟨hleft, hright, by omega, hhigh, fun m hm => ?_, hlater⟩
      have := hon m hm
      omega

/-- The pieces that the sweep adds from a row on. -/
structure Swept (area : Rect) (row : Int) (marks : List Rect) (pieces : List Rect) : Prop where
  sweep_eq : ∀ capacity out, out.rects.length + 3 * marks.length + 1 ≤ capacity →
    sweep capacity area row marks out = { rects := out.rects ++ pieces }
  few : pieces.length ≤ 3 * marks.length + 1
  tiles : Tiles pixels pieces (gaps area row marks)

/-- The pieces of one row, put before the pieces of the rows below it. -/
theorem row_swept {first below : List Rect}
    (hinside : Inside area row (mark :: rest)) (hwide : area.left ≤ area.right)
    (h : RowSwept mark.top area.left (mark :: rest) stop done later first)
    (hlater : Swept area (mark.top + MarkHeight) later below) :
    Swept area row (mark :: rest) (slab area.left row area.right mark.top ++
      (first ++ (slab stop mark.top area.right (mark.top + MarkHeight) ++ below))) := by
  have hfit := hinside.fits mark mem_cons_self
  have hlength : done.length + later.length = rest.length + 1 := by
    rw [← length_append, ← h.split_eq, length_cons]
  have hpos := h.takes
  have hon : ∀ m ∈ done, m.top = mark.top ∧ m.right ≤ stop ∧ area.left ≤ m.left := by
    intro m hm
    have hmem : m ∈ mark :: rest := by
      rw [h.split_eq]
      exact mem_append_left _ hm
    exact ⟨(h.on_row m hm).1, (h.on_row m hm).2, (hinside.fits m hmem).1⟩
  have habove := slab_length area.left row area.right mark.top
  have hend := slab_length stop mark.top area.right (mark.top + MarkHeight)
  have hfew := h.few
  have hstop : stop ≤ area.right := h.stop_le _ hwide fun m hm =>
    (hinside.fits m (h.split_eq ▸ mem_append_left _ hm)).2.2.1
  refine ⟨fun capacity out hroom => ?_, ?_, ?_⟩
  · rw [length_cons] at hroom
    have hfirst : out.add capacity area.left row area.right mark.top =
        { rects := out.rects ++ slab area.left row area.right mark.top } := add_slab (by omega)
    have hswept := h.sweep_eq capacity { rects := out.rects ++ slab area.left row area.right mark.top }
      (by rw [length_append, length_cons]; omega)
    rw [sweep_row, if_pos rfl] at hswept
    rw [sweep, hfirst, hswept]
    rw [add_slab, hlater.sweep_eq]
    · simp only [append_assoc]
    · simp only [length_append]
      omega
    · simp only [length_append]
      omega
  · have := hlater.few
    simp only [length_append, length_cons]
    omega
  · rw [h.split_eq]
    have hpixels := gaps_row hfit.2.2.2.1 hfit.2.2.2.2 h.start_le hstop hon h.below
    have hbottom : Tiles pixels (slab stop mark.top area.right (mark.top + MarkHeight) ++ below)
        {p | p ∈ pixels ⟨stop, mark.top, area.right, mark.top + MarkHeight⟩ ∨
          p ∈ gaps area (mark.top + MarkHeight) later} := by
      refine (slab_tiles ..).append hlater.tiles ?_ fun p => Iff.rfl
      rw [Set.disjoint_left]
      rintro p ⟨-, -, -, hhigh⟩ ⟨-, -, hlow, -⟩
      exact Int.not_lt.mpr hlow hhigh
    have hrow : Tiles pixels (first ++ (slab stop mark.top area.right (mark.top + MarkHeight) ++ below))
        {p | p ∈ row_gaps mark.top area.left stop done ∨
          p ∈ pixels ⟨stop, mark.top, area.right, mark.top + MarkHeight⟩ ∨
          p ∈ gaps area (mark.top + MarkHeight) later} := by
      refine h.tiles.append hbottom ?_ fun p => Iff.rfl
      rw [Set.disjoint_left]
      rintro p ⟨-, hp, hsame, -⟩ (⟨hstop, -⟩ | ⟨-, -, hlow, -⟩)
      · exact Int.not_lt.mpr hstop hp
      · rw [MarkHeight] at hlow
        omega
    refine (slab_tiles area.left row area.right mark.top).append hrow ?_ hpixels
    rw [Set.disjoint_left]
    rintro p ⟨-, -, -, hhigh⟩ (⟨-, -, hsame, -⟩ | ⟨-, -, hlow, -⟩ | ⟨-, -, hlow, -⟩)
    · dsimp only at hhigh
      omega
    · exact Int.not_lt.mpr hlow hhigh
    · rw [MarkHeight] at hlow
      dsimp only at hhigh
      omega

theorem sweep_swept (hinside : Inside area row marks) (hwide : area.left ≤ area.right) :
    ∃ pieces, Swept area row marks pieces := by
  induction hn : marks.length using Nat.strong_induction_on generalizing row marks with
  | _ n ih =>
    cases marks with
    | nil =>
      refine ⟨slab area.left row area.right area.bottom, fun capacity out hroom => ?_, ?_, ?_⟩
      · rw [sweep, add_slab (by omega)]
      · exact slab_length ..
      · obtain ⟨hnonempty, hapart, hunion⟩ := slab_tiles area.left row area.right area.bottom
        exact ⟨hnonempty, hapart, fun p => (by simp [gaps, mem_pixels] : p ∈ gaps area row [] ↔
          p ∈ pixels ⟨area.left, row, area.right, area.bottom⟩).trans (hunion p)⟩
    | cons mark rest =>
      obtain ⟨hfirst, -⟩ := pairwise_cons.mp hinside.sorted
      have hrow : ∀ m ∈ mark :: rest, mark.top ≤ m.top ∧ m.left < m.right := by
        intro m hm
        refine ⟨?_, (hinside.fits m hm).2.1⟩
        rcases mem_cons.mp hm with rfl | hm
        · exact Int.le_refl _
        · exact top_le_of_sorted (hfirst m hm)
      obtain ⟨stop, done, later, first, h⟩ := sweep_row_swept (x := area.left) hinside.sorted hrow
      have hsub {m : Rect} (hm : m ∈ later) : m ∈ mark :: rest := by
        rw [h.split_eq]
        exact mem_append_right _ hm
      have hlater : Inside area (mark.top + MarkHeight) later := by
        refine ⟨?_, fun m hm => ?_⟩
        · have hsorted := hinside.sorted
          rw [h.split_eq] at hsorted
          exact (pairwise_append.mp hsorted).2.1
        · obtain ⟨hleft, hwide, hright, -, hbottom⟩ := hinside.fits m (hsub hm)
          exact ⟨hleft, hwide, hright, h.below m hm, hbottom⟩
      have hshort : later.length < n := by
        have hpos := h.takes
        have hlength := congrArg List.length h.split_eq
        rw [length_append] at hlength
        omega
      obtain ⟨below, hbelow⟩ := ih later.length hshort hlater rfl
      exact ⟨_, row_swept hinside hwide h hbelow⟩

/-! ## The published marks -/

theorem pack_x (m : Point) : pack m >>> 16 = min m.x 0xffff := by
  have hy : min m.y 0xffff < 2 ^ 16 := by omega
  rw [pack, ← Nat.shiftLeft_add_eq_or_of_lt hy, Nat.shiftLeft_eq, Nat.shiftRight_eq_div_pow]
  omega

theorem pack_y (m : Point) : pack m &&& 0xffff = min m.y 0xffff := by
  have hy : min m.y 0xffff < 2 ^ 16 := by omega
  rw [pack, ← Nat.shiftLeft_add_eq_or_of_lt hy, Nat.shiftLeft_eq, Nat.and_two_pow_sub_one_eq_mod _ 16]
  omega

/-- A reader sees the marks of the last call. -/
theorem read_marks_set (s : Lists) (points : List Point) :
    read_marks (set_marks s points) = (points.take MaxMarks).map pack := by
  simp only [read_marks, set_marks, Function.update_self]
  refine ext_getElem (by simp [Nat.min_comm]) fun i hi hi' => ?_
  rw [getElem_map, getElem_range, List.getElem?_eq_getElem hi']
  rfl

theorem read_marks_run (sets : List (List Point)) :
    read_marks (sets.foldl set_marks {}) = ((sets.getLast?.getD []).take MaxMarks).map pack := by
  induction sets using List.reverseRecOn with
  | nil => simp [read_marks]
  | append_singleton sets points _ =>
    rw [foldl_append, foldl_cons, foldl_nil, read_marks_set, List.getLast?_concat]
    rfl

/-! ## The pieces of an area -/

variable {display : Area} {points : List Point}

theorem clip_spec (m : Point) (p : Int × Int) (hp : p ∈ display.rect.pixels) :
    p ∈ m.pixels ↔ (clip display.rect (pack m)).left ≤ p.1 ∧ p.1 < (clip display.rect (pack m)).right ∧
      (clip display.rect (pack m)).top ≤ p.2 ∧ p.2 < (clip display.rect (pack m)).bottom := by
  obtain ⟨hleft, hright, hlow, hhigh⟩ := hp
  have hright_le := display.right_le
  have hbottom_le := display.bottom_le
  simp only [Area.rect] at hleft hright hlow hhigh
  simp only [clip, pack_x, pack_y, Point.pixels, Set.mem_ofPred_eq, Area.rect, MarkWidth, MarkHeight]
  omega

theorem clipped_row (area : Rect) (m : Point) (h : (clip area (pack m)).top < (clip area (pack m)).bottom) :
    (clip area (pack m)).bottom = (clip area (pack m)).top + MarkHeight := by
  simp only [clip, MarkHeight] at h ⊢
  omega

theorem mem_inside : mark ∈ inside display.rect (points.map pack) ↔
    ∃ m ∈ points, clip display.rect (pack m) = mark ∧ mark.left < mark.right ∧ mark.top < mark.bottom := by
  simp only [inside, mem_filter, mem_map, Bool.and_eq_true, decide_eq_true_eq]
  constructor
  · rintro ⟨⟨_, ⟨m, hm, rfl⟩, rfl⟩, hwide⟩
    exact ⟨m, hm, rfl, hwide⟩
  · rintro ⟨m, hm, rfl, hwide⟩
    exact ⟨⟨_, ⟨m, hm, rfl⟩, rfl⟩, hwide⟩

theorem inside_of_sort (sorting : StdSort before) : Inside display.rect display.rect.top
    (sorting.sort (inside display.rect (points.map pack))) where
  sorted := sorting.sorted _
  fits := by
    intro mark hmark
    obtain ⟨m, -, rfl, hwide, hhigh⟩ := mem_inside.mp ((sorting.perm _).subset hmark)
    simp only [clip] at hwide hhigh ⊢
    omega

/-- The gaps between the clipped marks are the pixels of the area that no mark covers. -/
theorem gaps_eq_unmarked (sorting : StdSort before) (p : Int × Int) :
    p ∈ gaps display.rect display.rect.top (sorting.sort (inside display.rect (points.map pack))) ↔
      p ∈ unmarked display.rect points := by
  have hsame (mark : Rect) : mark ∈ sorting.sort (inside display.rect (points.map pack)) ↔
      mark ∈ inside display.rect (points.map pack) := (sorting.perm _).mem_iff
  simp only [gaps, unmarked, Set.mem_ofPred_eq, hsame]
  constructor
  · rintro ⟨hleft, hright, hlow, hhigh, hfree⟩
    have hp : p ∈ display.rect.pixels := ⟨hleft, hright, hlow, hhigh⟩
    refine ⟨hp, fun m hm hcover => ?_⟩
    obtain ⟨hmleft, hmright, hmlow, hmhigh⟩ := (clip_spec m p hp).mp hcover
    have hrow := clipped_row display.rect m (by omega)
    rw [MarkHeight] at hrow
    exact hfree _ (mem_inside.mpr ⟨m, hm, rfl, by omega, by omega⟩) ⟨hmleft, hmright, by omega⟩
  · rintro ⟨hp, hfree⟩
    obtain ⟨hleft, hright, hlow, hhigh⟩ := mem_pixels.mp hp
    refine ⟨hleft, hright, hlow, hhigh, fun mark hmark hcover => ?_⟩
    obtain ⟨m, hm, rfl, -, hmhigh⟩ := mem_inside.mp hmark
    refine hfree m hm ((clip_spec m p hp).mpr ⟨hcover.1, hcover.2.1, ?_, ?_⟩)
    · omega
    · omega

theorem inside_length (area : Rect) (listed : List Nat) : (inside area listed).length ≤ listed.length := by
  rw [inside]
  exact (length_filter_le ..).trans (by rw [length_map])

theorem area_pixels_nonempty (display : Area) : display.rect.pixels.Nonempty :=
  ⟨(display.left, display.top), mem_pixels.mpr ⟨Int.le_refl _, Int.ofNat_lt.mpr display.left_lt,
    Int.le_refl _, Int.ofNat_lt.mpr display.top_lt⟩⟩

/-- One list of pieces for every capacity from `Pieces::Capacity` on, and it tiles what no mark
covers. -/
theorem pieces_tile (sorting : StdSort before) (display : Area) (hfew : points.length ≤ MaxMarks) :
    ∃ rects, (∀ capacity, Pieces.Capacity ≤ capacity →
        pieces_within capacity sorting (points.map pack) display.rect = { rects }) ∧
      Tiles pixels rects (unmarked display.rect points) := by
  have hwide : display.rect.left < display.rect.right := Int.ofNat_lt.mpr display.left_lt
  have htall : display.rect.top < display.rect.bottom := Int.ofNat_lt.mpr display.top_lt
  by_cases hnone : inside display.rect (points.map pack) = []
  · refine ⟨[display.rect], fun capacity _ => ?_, .single (area_pixels_nonempty display) fun p => ?_⟩
    · rw [pieces_within]
      simp only [hnone, true_or, if_true]
    · rw [← gaps_eq_unmarked sorting, hnone, (sorting.perm []).eq_nil]
      simp [gaps, mem_pixels]
  have hsorted : Inside display.rect display.rect.top
      (sorting.sort (inside display.rect (points.map pack))) := inside_of_sort sorting
  obtain ⟨rects, hswept⟩ := sweep_swept hsorted (Int.le_of_lt hwide)
  refine ⟨rects, fun capacity hroom => ?_, ?_⟩
  · have hlength := (sorting.perm (inside display.rect (points.map pack))).length_eq
    have hinside := inside_length display.rect (points.map pack)
    rw [length_map] at hinside
    rw [Pieces.Capacity] at hroom
    rw [pieces_within]
    simp only [hnone, false_or]
    rw [if_neg (by omega), hswept.sweep_eq]
    · rfl
    · rw [length_nil]
      omega
  · obtain ⟨hnonempty, hapart, hunion⟩ := hswept.tiles
    exact ⟨hnonempty, hapart, fun p => (gaps_eq_unmarked sorting p).symm.trans (hunion p)⟩

/-- Two marks that touch on the first row of the area, one of them cut by its edge. -/
example : (pieces insertion_sort (set_marks {} [⟨11, 10⟩, ⟨9, 10⟩]) ⟨10, 10, 20, 12⟩).rects =
    [⟨13, 10, 20, 11⟩, ⟨10, 11, 20, 12⟩] := by decide +kernel

/-! ## Copies -/

theorem long_eq {n : Nat} (h : n ≤ 16384) : long n = n := by
  unfold long
  rw [Nat.mod_eq_of_lt (by omega), if_pos (by omega)]

theorem uint_eq {i : Int} (hlow : 0 ≤ i) (hhigh : i ≤ 16384) : (uint i : Int) = i := by
  unfold uint
  omega

theorem minus_eq {a b : Nat} (h : b ≤ a) (ha : a ≤ 16384) : (minus a b : Int) = a - b := by
  unfold minus
  omega

variable {α : Type}

open Classical in
/-- Inside the area, one copy moves its own pixels to where the whole area would have them. -/
theorem copy_rect_eq (hnonempty : r.pixels.Nonempty) (hr : r.pixels ⊆ display.rect.pixels)
    (source destination : Texture α) : copy_rect display.left display.top source destination r =
      fun p => if p ∈ r.pixels then source (p.1 - display.left, p.2 - display.top) else destination p := by
  obtain ⟨q, hqleft, hqright, hqlow, hqhigh⟩ := hnonempty
  obtain ⟨hleft, -, hlow, -⟩ := hr (mem_pixels (p := (r.left, r.top)) |>.mpr
    ⟨Int.le_refl _, by dsimp only; omega, Int.le_refl _, by dsimp only; omega⟩)
  obtain ⟨-, hright, -, hhigh⟩ := hr (mem_pixels (p := (r.right - 1, r.bottom - 1)) |>.mpr
    ⟨by dsimp only; omega, by dsimp only; omega, by dsimp only; omega, by dsimp only; omega⟩)
  have hright_le := display.right_le
  have hbottom_le := display.bottom_le
  simp only [Area.rect] at hleft hlow hright hhigh
  have huleft := uint_eq (i := r.left) (by omega) (by omega)
  have hutop := uint_eq (i := r.top) (by omega) (by omega)
  have huright := uint_eq (i := r.right) (by omega) (by omega)
  have hubottom := uint_eq (i := r.bottom) (by omega) (by omega)
  funext p
  unfold copy_rect copy_texture_region
  rw [minus_eq (by omega) (by omega), minus_eq (by omega) (by omega), minus_eq (by omega) (by omega),
    minus_eq (by omega) (by omega), huleft, hutop, huright, hubottom]
  by_cases hp : p ∈ r.pixels
  · rw [if_pos hp, if_pos]
    · congr 2 <;> omega
    · rw [mem_pixels] at hp
      omega
  rw [if_neg hp, if_neg]
  rw [mem_pixels] at hp
  omega

open Classical in
theorem copy_rects_eq {rects : List Rect} (hrects : ∀ r ∈ rects, r.pixels.Nonempty ∧ r.pixels ⊆ display.rect.pixels)
    (source destination : Texture α) :
    rects.foldl (copy_rect display.left display.top source) destination = fun p =>
      if ∃ r ∈ rects, p ∈ r.pixels then source (p.1 - display.left, p.2 - display.top)
      else destination p := by
  induction rects generalizing destination with
  | nil => simp
  | cons r rest ih =>
    obtain ⟨⟨hnonempty, hr⟩, hrest⟩ := forall_mem_cons.mp hrects
    rw [foldl_cons, ih hrest, copy_rect_eq hnonempty hr]
    funext p
    by_cases hp : p ∈ r.pixels
    · simp [hp]
    · simp [hp]

/-- The pixels of an area that no published mark covers are partitioned by the pieces, whatever the
capacity beyond the one the code has, and copied from the source at the same offset. -/
structure WrittenAround (sorting : StdSort before) (s : Lists) (marks : List Point) (display : Area) :
    Prop where
  tiles : Tiles pixels (pieces sorting s display.rect).rects (unmarked display.rect marks)
  inside : ∀ r ∈ (pieces sorting s display.rect).rects, r.pixels ⊆ display.rect.pixels
  fits : ∀ capacity, Pieces.Capacity ≤ capacity →
    pieces_within capacity sorting (read_marks s) display.rect = pieces sorting s display.rect
  copied : ∀ (α : Type) (source destination : Texture α) (p : Int × Int),
    (p ∈ unmarked display.rect marks →
      copy_region sorting s destination display.left display.top source (display.right - display.left)
        (display.bottom - display.top) p = source (p.1 - display.left, p.2 - display.top)) ∧
    (p ∉ unmarked display.rect marks →
      copy_region sorting s destination display.left display.top source (display.right - display.left)
        (display.bottom - display.top) p = destination p)

theorem displays_are_written_around_marks (sorting : StdSort before) (sets : List (List Point))
    (display : Area) : WrittenAround sorting (sets.foldl set_marks {})
      ((sets.getLast?.getD []).take MaxMarks) display := by
  generalize hmarks : (sets.getLast?.getD []).take MaxMarks = marks
  have hread : read_marks (sets.foldl set_marks {}) = marks.map pack := by
    rw [read_marks_run, hmarks]
  have hfew : marks.length ≤ MaxMarks := by
    rw [← hmarks]
    exact length_take_le ..
  obtain ⟨rects, hpieces, htiles⟩ := pieces_tile sorting display hfew
  have heq : pieces sorting (sets.foldl set_marks {}) display.rect = { rects } := by
    rw [pieces, hread, hpieces _ (Nat.le_refl _)]
  have hinside : ∀ r ∈ rects, r.pixels ⊆ display.rect.pixels := fun r hr p hp =>
    (htiles.subset hr hp).1
  refine ⟨by rw [heq]; exact htiles, by rw [heq]; exact hinside, fun capacity hroom => ?_,
    fun α source destination p => ?_⟩
  · rw [heq, hread, hpieces capacity hroom]
  · have hleft := display.left_lt
    have htop := display.top_lt
    have hright_le := display.right_le
    have hbottom_le := display.bottom_le
    have harea : ({ left := long display.left, top := long display.top
                    right := long (display.left + (display.right - display.left))
                    bottom := long (display.top + (display.bottom - display.top)) } : Rect) =
        display.rect := by
      rw [long_eq (by omega), long_eq (by omega), long_eq (by omega), long_eq (by omega), Area.rect]
      congr 1 <;> omega
    have hcopies := copy_rects_eq (fun r hr => ⟨htiles.nonempty r hr, hinside r hr⟩) source destination
    rw [copy_region, harea, heq, hcopies]
    constructor
    · intro hp
      exact if_pos ((htiles.union p).mp hp)
    · intro hp
      exact if_neg fun hcover => hp ((htiles.union p).mpr hcover)

end taxi_camera.standalone.display_keep
