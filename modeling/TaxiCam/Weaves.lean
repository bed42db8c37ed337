-- Lists with items beside their elements: each item names an element and goes
-- in front of it or behind it. One pass over the items, which takes them off
-- the front, puts every one where it belongs when they come in order.
import Mathlib.Data.List.Perm.Basic
import Mathlib.Data.List.Pairwise

namespace weaves

open List

variable {α : Type}

structure Item (α : Type) where
  place : Nat
  front : Bool
  item : α
deriving DecidableEq

/-- The order of the items: by their elements, and in front of one before behind it. -/
def Item.rank (x : Item α) : Nat := 2 * x.place + if x.front then 0 else 1

/-- The items on one side of an element. -/
def beside (plan : List (Item α)) (place : Nat) (front : Bool) : List α :=
  (plan.filter fun x => decide (x.place = place ∧ x.front = front)).map Item.item

/-- The elements from number `i` on, each with its items around it. -/
def weave (plan : List (Item α)) : Nat → List α → List α
  | _, [] => []
  | i, a :: rest => beside plan i true ++ a :: (beside plan i false ++ weave plan (i + 1) rest)

/-- One pass: the items that come next, as long as they belong to the element at hand. -/
def merge : List (Item α) → Nat → List α → List α
  | _, _, [] => []
  | plan, i, a :: rest =>
    let late := plan.dropWhile fun x => decide (x.place = i ∧ x.front = true)
    (plan.takeWhile fun x => decide (x.place = i ∧ x.front = true)).map Item.item ++
      a :: ((late.takeWhile fun x => decide (x.place = i)).map Item.item ++
        merge (late.dropWhile fun x => decide (x.place = i)) (i + 1) rest)

/-! ## The pass puts every item in its place -/

def Ordered (plan : List (Item α)) : Prop := plan.Pairwise fun x y => x.rank ≤ y.rank

variable {x : Item α} {i : Nat}

theorem rank_front : x.place = i ∧ x.front = true ↔ 2 * i ≤ x.rank ∧ x.rank ≤ 2 * i := by
  unfold Item.rank
  cases x.front <;> simp <;> omega

theorem rank_behind : x.place = i ∧ x.front = false ↔ 2 * i + 1 ≤ x.rank ∧ x.rank ≤ 2 * i + 1 := by
  unfold Item.rank
  cases x.front <;> simp <;> omega

theorem rank_place : x.place = i ↔ 2 * i ≤ x.rank ∧ x.rank ≤ 2 * i + 1 := by
  unfold Item.rank
  cases x.front <;> simp <;> omega

/-- The items whose ranks are at least this. -/
def since (plan : List (Item α)) (r : Nat) : List (Item α) := plan.filter fun x => decide (r ≤ x.rank)

section
variable {plan : List (Item α)} {p : Item α → Bool} {r : Nat}

/-- In order, the items up to a rank come first. -/
theorem takeWhile_rank (h : Ordered plan) (hp : ∀ x ∈ plan, p x = decide (x.rank ≤ r)) :
    plan.takeWhile p = plan.filter (fun x => decide (x.rank ≤ r)) ∧ plan.dropWhile p = since plan (r + 1) := by
  induction plan with
  | nil => exact ⟨rfl, rfl⟩
  | cons x plan ih =>
    obtain ⟨hx, hplan⟩ := pairwise_cons.mp h
    obtain ⟨htake, hdrop⟩ := ih hplan fun y hy => hp y (mem_cons_of_mem _ hy)
    have hhead := hp x mem_cons_self
    unfold since at hdrop ⊢
    by_cases hle : x.rank ≤ r
    · have hlt : ¬r + 1 ≤ x.rank := by omega
      simp [hhead, hle, hlt, htake, hdrop]
    -- every later item is past the rank too
    have hall : ∀ y ∈ x :: plan, r + 1 ≤ y.rank := by
      intro y hy
      rcases mem_cons.mp hy with rfl | hy
      · omega
      have hxy := hx y hy
      omega
    rw [takeWhile_cons_of_neg (by simpa [hhead] using hle), dropWhile_cons_of_neg (by simpa [hhead] using hle)]
    constructor
    · symm
      apply filter_eq_nil_iff.mpr
      intro y hy
      have hlt := hall y hy
      simp only [decide_eq_true_eq]
      omega
    · symm
      apply filter_eq_self.mpr
      exact fun y hy => decide_eq_true (hall y hy)

theorem Ordered.since (h : Ordered plan) (r : Nat) : Ordered (since plan r) := List.Pairwise.filter _ h

theorem le_of_mem_since {x : Item α} (h : x ∈ since plan r) : r ≤ x.rank := of_decide_eq_true (mem_filter.mp h).2

variable {high i j low : Nat}

theorem since_since (h : low ≤ high) : since (since plan low) high = since plan high := by
  unfold since
  rw [filter_filter]
  apply filter_congr
  intro x _
  by_cases hx : high ≤ x.rank
  · have hlow : low ≤ x.rank := by omega
    simp [hx, hlow]
  · simp [hx]

theorem filter_since : (since plan low).filter (fun x => decide (x.rank ≤ high)) =
    plan.filter fun x => decide (low ≤ x.rank ∧ x.rank ≤ high) := by
  unfold since
  rw [filter_filter]
  apply filter_congr
  intro x _
  rw [← Bool.decide_and]
  exact decide_eq_decide.mpr and_comm

/-- The items from the element at hand on are taken in three steps: those in front of it, those
behind it, and the others. -/
theorem merge_step (h : Ordered plan) (i : Nat) (a : α) (rest : List α) :
    merge (since plan (2 * i)) i (a :: rest) =
      beside plan i true ++ a :: (beside plan i false ++ merge (since plan (2 * (i + 1))) (i + 1) rest) := by
  obtain ⟨hfront, hlate⟩ := takeWhile_rank (p := fun x => decide (x.place = i ∧ x.front = true)) (r := 2 * i)
    (h.since (2 * i)) (by
      intro x hx
      have hle := le_of_mem_since hx
      apply decide_eq_decide.mpr
      rw [rank_front]
      omega)
  obtain ⟨hbehind, hothers⟩ := takeWhile_rank (p := fun x => decide (x.place = i)) (r := 2 * i + 1)
    (h.since (2 * i + 1)) (by
      intro x hx
      have hle := le_of_mem_since hx
      apply decide_eq_decide.mpr
      rw [rank_place]
      omega)
  rw [since_since (by omega)] at hlate
  rw [filter_since] at hfront hbehind
  rw [merge, hlate]
  rw [hfront, hbehind, hothers, since_since (by omega)]
  unfold beside
  simp only [rank_front, rank_behind]
  rfl

theorem merge_since (h : Ordered plan) (i : Nat) (elements : List α) :
    merge (since plan (2 * i)) i elements = weave plan i elements := by
  induction elements generalizing i with
  | nil => rfl
  | cons a rest ih => rw [merge_step h, ih, weave]

theorem merge_eq_weave (h : Ordered plan) (elements : List α) : merge plan 0 elements = weave plan 0 elements := by
  have hall : since plan (2 * 0) = plan := by
    apply filter_eq_self.mpr
    intro x _
    simp
  rw [← merge_since h, hall]

/-! ## What is woven -/

/-- The items for the elements from `i` up to `j`. -/
def within (plan : List (Item α)) (i j : Nat) : List (Item α) :=
  plan.filter fun x => decide (i ≤ x.place ∧ x.place < j)

theorem filter_within (hj : i < j) (front : Bool) :
    (within plan i j).filter (fun x => decide (x.place = i ∧ x.front = front)) =
      plan.filter fun x => decide (x.place = i ∧ x.front = front) := by
  unfold within
  rw [filter_filter]
  apply filter_congr
  intro x _
  rw [← Bool.decide_and]
  apply decide_eq_decide.mpr
  apply and_iff_left_of_imp
  rintro ⟨rfl, -⟩
  omega

/-- The items of an element, and those of the elements behind it. -/
theorem within_perm (hj : i < j) : (within plan i j).map Item.item |>.Perm
    (beside plan i true ++ (beside plan i false ++ (within plan (i + 1) j).map Item.item)) := by
  let late := (within plan i j).filter fun x => !decide (x.place = i ∧ x.front = true)
  have hbehind : late.filter (fun x => decide (x.place = i ∧ x.front = false)) =
      plan.filter fun x => decide (x.place = i ∧ x.front = false) := by
    rw [← @filter_within α plan i j hj false, filter_filter]
    apply filter_congr
    intro x _
    rw [← decide_not, ← Bool.decide_and]
    apply decide_eq_decide.mpr
    apply and_iff_left_of_imp
    rintro ⟨-, hbehind⟩ ⟨-, hfront⟩
    rw [hbehind] at hfront
    cases hfront
  have hrest : late.filter (fun x => !decide (x.place = i ∧ x.front = false)) = within plan (i + 1) j := by
    unfold late within
    rw [filter_filter, filter_filter]
    apply filter_congr
    intro x _
    rw [← decide_not, ← decide_not, ← Bool.decide_and, ← Bool.decide_and]
    apply decide_eq_decide.mpr
    cases x.front <;> simp <;> omega
  have hlate := filter_append_perm (fun x => decide (x.place = i ∧ x.front = false)) late
  have hall := filter_append_perm (fun x => decide (x.place = i ∧ x.front = true)) (within plan i j)
  rw [hbehind, hrest] at hlate
  rw [filter_within hj] at hall
  have hsplit := (hall.symm.trans (hlate.symm.append_left _)).map Item.item
  rw [map_append, map_append] at hsplit
  exact hsplit

/-- Nothing is lost and nothing is doubled. -/
theorem weave_perm (plan : List (Item α)) (i : Nat) (elements : List α) :
    (weave plan i elements).Perm (elements ++ (within plan i (i + elements.length)).map Item.item) := by
  induction elements generalizing i with
  | nil =>
    have hnone : within plan i i = [] := by
      apply filter_eq_nil_iff.mpr
      intro x _
      simp
    simp [weave, hnone]
  | cons a rest ih =>
    have hrest := ih (i + 1)
    rw [Nat.add_right_comm] at hrest
    have hitems := @within_perm α plan i (i + rest.length + 1) (by omega)
    rw [weave, length_cons, ← Nat.add_assoc]
    refine perm_middle.trans (List.Perm.cons a ?_)
    -- the elements go in front of all the items
    have hfront : (beside plan i true ++ (beside plan i false ++ weave plan (i + 1) rest)).Perm
        (beside plan i true ++ (beside plan i false ++ (rest ++ (within plan (i + 1) (i + rest.length + 1)).map Item.item))) :=
      (hrest.append_left _).append_left _
    have hmoved : (beside plan i true ++ (beside plan i false ++ (rest ++
        (within plan (i + 1) (i + rest.length + 1)).map Item.item))).Perm (rest ++ (beside plan i true ++
        (beside plan i false ++ (within plan (i + 1) (i + rest.length + 1)).map Item.item))) := by
      rw [← append_assoc, ← append_assoc, ← append_assoc (beside plan i true)]
      rw [← append_assoc rest]
      exact perm_append_comm.append_right _
    exact hfront.trans (hmoved.trans (hitems.symm.append_left rest))

theorem within_all {n : Nat} (h : ∀ x ∈ plan, x.place < n) : within plan 0 n = plan := by
  apply filter_eq_self.mpr
  intro x hx
  simpa using h x hx

/-- The elements stay in their order. -/
theorem filter_weave {keep : α → Bool} (hitems : ∀ x ∈ plan, keep x.item = false) {elements : List α} (i : Nat)
    (h : ∀ a ∈ elements, keep a = true) : (weave plan i elements).filter keep = elements := by
  have hbeside (place : Nat) (front : Bool) : (beside plan place front).filter keep = [] := by
    apply filter_eq_nil_iff.mpr
    intro a ha
    obtain ⟨x, hx, rfl⟩ := mem_map.mp ha
    rw [hitems x (mem_of_mem_filter hx)]
    exact Bool.false_ne_true
  induction elements generalizing i with
  | nil => rfl
  | cons a rest ih =>
    have hrest := ih (i + 1) fun b hb => h b (mem_cons_of_mem _ hb)
    rw [weave, filter_append, hbeside, nil_append, filter_cons_of_pos (h a mem_cons_self),
      filter_append, hbeside, nil_append, hrest]

end

end weaves
