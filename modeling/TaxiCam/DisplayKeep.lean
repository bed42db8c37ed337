-- The panel marks that every camera write into a display leaves alone.
-- `set_marks`, `read_marks`, `pieces` and `copy_region` of
-- src/graphics/display_keep.hpp.
import TaxiCam.Runs
import Mathlib.Data.Set.Basic
import Mathlib.Data.List.Basic

namespace taxi_camera.standalone.display_keep

def MarkWidth : Int := 2
def MarkHeight : Int := 1
def MaxMarks : Nat := 16

/-! ## The two lists of marks -/

structure Point where
  x : Nat
  y : Nat

/-- The marks of a list as they are stored, `x << 16 | y`. -/
structure MarkList where
  marks : Nat → Nat := fun _ => 0
  count : Nat := 0

structure Lists where
  lists : Nat → MarkList := fun _ => {}
  published : Nat := 0

def pack (p : Point) : Nat := min p.x 0xffff <<< 16 ||| min p.y 0xffff

def set_marks (s : Lists) (points : List Point) : Lists :=
  let stored := (points.take MaxMarks).map pack
  let next := s.published ^^^ 1
  let list : MarkList :=
    { marks := fun i => stored[i]?.getD ((s.lists next).marks i)
      count := min points.length MaxMarks }
  { lists := Function.update s.lists next list, published := next }

def read_marks (s : Lists) : List Nat :=
  let list := s.lists s.published
  (List.range (min list.count MaxMarks)).map list.marks

/-! ## The pieces of an area -/

/-- `D3D12_RECT`. -/
structure Rect where
  left : Int
  top : Int
  right : Int
  bottom : Int
deriving DecidableEq

structure Pieces where
  rects : List Rect := []

def Pieces.Capacity : Nat := 2 * MaxMarks + 1 + MaxMarks

/-- `add` of `pieces`: no empty rectangle, and none past the capacity. -/
def Pieces.add (capacity : Nat) (out : Pieces) (left top right bottom : Int) : Pieces :=
  if left < right ∧ top < bottom ∧ out.rects.length < capacity then
    { rects := out.rects ++ [⟨left, top, right, bottom⟩] }
  else out

/-- A mark inside the area. -/
def clip (area : Rect) (listed : Nat) : Rect :=
  let x : Int := (listed >>> 16 : Nat)
  let y : Int := (listed &&& 0xffff : Nat)
  { left := max x area.left
    top := max y area.top
    right := min (x + MarkWidth) area.right
    bottom := min (y + MarkHeight) area.bottom }

def inside (area : Rect) (listed : List Nat) : List Rect :=
  (listed.map (clip area)).filter fun mark => mark.left < mark.right && mark.top < mark.bottom

def before (a b : Rect) : Bool := if a.top ≠ b.top then a.top < b.top else a.left < b.left

/-- `std::sort`: which of two equal elements comes first is open. -/
structure StdSort {α : Type} (before : α → α → Bool) where
  sort : List α → List α
  perm : ∀ l, (sort l).Perm l
  sorted : ∀ l, (sort l).Pairwise fun a b => before b a = false

/-- The marks of one row from left to right, with the end of the marks so far. -/
def sweep_row (capacity : Nat) (top : Int) : Int → List Rect → Pieces → Int × List Rect × Pieces
  | x, [], out => (x, [], out)
  | x, mark :: rest, out =>
    if mark.top = top then
      sweep_row capacity top (max x mark.right) rest
        (out.add capacity x top mark.left (top + MarkHeight))
    else (x, mark :: rest, out)

theorem sweep_row_length (capacity : Nat) (top x : Int) (marks : List Rect) (out : Pieces) :
    (sweep_row capacity top x marks out).2.1.length ≤ marks.length := by
  induction marks generalizing x out with
  | nil => exact Nat.le_refl _
  | cons mark rest ih =>
    rw [sweep_row]
    split
    · exact Nat.le_succ_of_le (ih ..)
    · exact Nat.le_refl _

/-- The rows from top to bottom. Marks are one row high: every mark starting on a row ends on it. -/
def sweep (capacity : Nat) (area : Rect) (row : Int) : List Rect → Pieces → Pieces
  | [], out => out.add capacity area.left row area.right area.bottom
  | mark :: rest, out =>
    let top := mark.top
    let out := out.add capacity area.left row area.right top
    -- The first turn of the inner loop: the mark is on its own row.
    let first := out.add capacity area.left top mark.left (top + MarkHeight)
    let swept := sweep_row capacity top (max area.left mark.right) rest first
    let out := swept.2.2.add capacity swept.1 top area.right (top + MarkHeight)
    sweep capacity area (top + MarkHeight) swept.2.1 out
termination_by marks => marks.length
decreasing_by exact Nat.lt_succ_of_le (sweep_row_length ..)

def pieces_within (capacity : Nat) (sorting : StdSort before) (listed : List Nat) (area : Rect) :
    Pieces :=
  let inside := inside area listed
  if inside = [] ∨ area.left ≥ area.right ∨ area.top ≥ area.bottom then { rects := [area] }
  else sweep capacity area area.top (sorting.sort inside) {}

def pieces (sorting : StdSort before) (s : Lists) (area : Rect) : Pieces :=
  pieces_within Pieces.Capacity sorting (read_marks s) area

/-! ## Copies -/

/-- A texture by its pixels. -/
def Texture (α : Type) : Type := Int × Int → α

/-- `D3D12_BOX`, of depth one. -/
structure Box where
  left : Nat
  top : Nat
  right : Nat
  bottom : Nat

/-- `static_cast<LONG>` of a `UINT`, and back. -/
def long (n : Nat) : Int :=
  if n % 0x100000000 < 0x80000000 then (n % 0x100000000 : Nat)
  else (n % 0x100000000 : Nat) - 0x100000000

def uint (i : Int) : Nat := (i % 0x100000000).toNat

/-- A difference in 32 bits. -/
def minus (a b : Nat) : Nat := (a + 0x100000000 - b) % 0x100000000

/-- `CopyTextureRegion` of a box of the source to a point of the destination. -/
def copy_texture_region {α : Type} (destination : Texture α) (x y : Nat) (source : Texture α)
    (box : Box) : Texture α := fun p =>
  if x ≤ p.1 ∧ p.1 < x + ((box.right : Int) - box.left) ∧ y ≤ p.2 ∧
      p.2 < y + ((box.bottom : Int) - box.top) then
    source (box.left + (p.1 - x), box.top + (p.2 - y))
  else destination p

def copy_rect {α : Type} (x y : Nat) (source : Texture α) (destination : Texture α) (r : Rect) :
    Texture α :=
  copy_texture_region destination (uint r.left) (uint r.top) source
    { left := minus (uint r.left) x, top := minus (uint r.top) y
      right := minus (uint r.right) x, bottom := minus (uint r.bottom) y }

def copy_region {α : Type} (sorting : StdSort before) (s : Lists) (destination : Texture α) (x y : Nat)
    (source : Texture α) (width height : Nat) : Texture α :=
  let area : Rect := { left := long x, top := long y, right := long (x + width), bottom := long (y + height) }
  (pieces sorting s area).rects.foldl (copy_rect x y source) destination

/-! ## What is kept and what is written -/

/-- A non-empty area of a display. -/
structure Area where
  left : Nat
  top : Nat
  right : Nat
  bottom : Nat
  left_lt : left < right
  top_lt : top < bottom
  right_le : right ≤ 16384
  bottom_le : bottom ≤ 16384

def Area.rect (area : Area) : Rect :=
  { left := area.left, top := area.top, right := area.right, bottom := area.bottom }

def Rect.pixels (r : Rect) : Set (Int × Int) :=
  {p | r.left ≤ p.1 ∧ p.1 < r.right ∧ r.top ≤ p.2 ∧ p.2 < r.bottom}

/-- The pixels of a mark. -/
def Point.pixels (m : Point) : Set (Int × Int) :=
  {p | m.x ≤ p.1 ∧ p.1 < m.x + MarkWidth ∧ m.y ≤ p.2 ∧ p.2 < m.y + MarkHeight}

/-- The pixels of an area that no mark covers. -/
def unmarked (area : Rect) (marks : List Point) : Set (Int × Int) :=
  {p | p ∈ area.pixels ∧ ∀ m ∈ marks, p ∉ m.pixels}

end taxi_camera.standalone.display_keep
