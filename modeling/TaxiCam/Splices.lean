-- Splices. A text in which some stretches are cut out, each for the same
-- other text, and where a word of the spliced text can come from.
import Mathlib.Data.List.Infix

namespace splices

open List

variable {α β : Type}

/-- An element that is kept, or a stretch that is cut out. -/
inductive Piece (α : Type)
  | kept (a : α)
  | cut (stretch : List α)

def Piece.original : Piece α → List α
  | .kept a => [a]
  | .cut stretch => stretch

def Piece.spliced (r : List α) : Piece α → List α
  | .kept a => [a]
  | .cut _ => r

def original (pieces : List (Piece α)) : List α := pieces.flatMap Piece.original

def spliced (r : List α) (pieces : List (Piece α)) : List α := pieces.flatMap (Piece.spliced r)

variable {r v a b u w : List α} {pieces p q : List (Piece α)}

@[simp] theorem original_append : original (p ++ q) = original p ++ original q := flatMap_append

@[simp] theorem spliced_append : spliced r (p ++ q) = spliced r p ++ spliced r q := flatMap_append

@[simp] theorem original_kept (v : List α) : original (v.map .kept) = v := by
  induction v with
  | nil => rfl
  | cons a v ih => exact congrArg (a :: ·) ih

/-- A word and a text that take in a part of each other: the word runs into the text, runs out of
it, or lies inside. -/
def Meets (v r : List α) : Prop :=
  (∃ x y, v = x ++ y ∧ x ≠ [] ∧ y ≠ [] ∧ (y <+: r ∨ r <+: y)) ∨
    (∃ y x, v = y ++ x ∧ y ≠ [] ∧ x ≠ [] ∧ y <:+ r) ∨ v <:+: r

theorem Meets.map (f : α → β) (h : Meets v r) : Meets (v.map f) (r.map f) := by
  rcases h with ⟨x, y, rfl, hx, hy, hmeet⟩ | ⟨y, x, rfl, hy, hx, hmeet⟩ | hmeet
  · refine .inl ⟨x.map f, y.map f, map_append, by simpa using hx, by simpa using hy, ?_⟩
    exact hmeet.imp (·.map f) (·.map f)
  · exact .inr (.inl ⟨y.map f, x.map f, map_append, by simpa using hy, by simpa using hx, hmeet.map f⟩)
  · exact .inr (.inr (hmeet.map f))

theorem spliced_cons (piece : Piece α) :
    spliced r (piece :: pieces) = piece.spliced r ++ spliced r pieces := flatMap_cons

/-- The rest of a word that has begun in what is kept is kept as well. -/
theorem kept_from (hno : ¬ Meets (u ++ w) r) (hu : u ≠ []) (h : spliced r pieces = w ++ b) :
    ∃ q, pieces = w.map .kept ++ q ∧ b = spliced r q := by
  induction w generalizing u pieces with
  | nil => exact ⟨pieces, rfl, h.symm⟩
  | cons c w ih =>
    cases pieces with
    | nil => cases h
    | cons piece pieces =>
      cases piece with
      | kept d =>
        obtain ⟨rfl, hrest⟩ := cons.inj h
        rw [append_cons] at hno
        obtain ⟨q, rfl, hb⟩ := ih hno (by simp) hrest
        exact ⟨q, rfl, hb⟩
      | cut stretch =>
        refine absurd (.inl ⟨u, c :: w, rfl, hu, by simp, ?_⟩) hno
        have hw : c :: w <+: spliced r (.cut stretch :: pieces) := ⟨b, h.symm⟩
        have hr : r <+: spliced r (.cut stretch :: pieces) := ⟨spliced r pieces, rfl⟩
        exact prefix_or_prefix_of_prefix hw hr

/-- A word that does not meet the text put in stands in what is kept. -/
theorem located (hno : ¬ Meets v r) (hv : v ≠ []) (h : spliced r pieces = a ++ v ++ b) :
    ∃ p q, pieces = p ++ v.map .kept ++ q ∧ a = spliced r p ∧ b = spliced r q := by
  induction pieces generalizing a with
  | nil =>
    have hall : a ++ v ++ b = [] := h.symm
    rw [append_eq_nil_iff, append_eq_nil_iff] at hall
    exact absurd hall.1.2 hv
  | cons piece pieces ih =>
    cases piece with
    | kept c =>
      cases a with
      | nil =>
        cases v with
        | nil => exact absurd rfl hv
        | cons d v =>
          obtain ⟨rfl, hrest⟩ := cons.inj h
          obtain ⟨q, rfl, hb⟩ := kept_from (u := [c]) hno (by simp) hrest
          exact ⟨[], q, rfl, rfl, hb⟩
      | cons d a =>
        obtain ⟨rfl, hrest⟩ := cons.inj h
        obtain ⟨p, q, rfl, ha, hb⟩ := ih hrest
        exact ⟨.kept c :: p, q, rfl, by rw [ha]; rfl, hb⟩
    | cut stretch =>
      have hsplit : r ++ spliced r pieces = a ++ (v ++ b) := by
        rw [← append_assoc]
        exact h
      rcases append_eq_append_iff.mp hsplit with ⟨a', rfl, hrest⟩ | ⟨y, rfl, hrest⟩
      · rw [← append_assoc] at hrest
        obtain ⟨p, q, rfl, ha, hb⟩ := ih hrest
        exact ⟨.cut stretch :: p, q, rfl, by rw [ha]; rfl, hb⟩
      rcases append_eq_append_iff.mp hrest with ⟨c, rfl, -⟩ | ⟨x, rfl, hx⟩
      · exact absurd (.inr (.inr ⟨a, c, by rw [append_assoc]⟩)) hno
      by_cases hy : y = []
      · subst hy
        obtain ⟨p, q, rfl, ha, hb⟩ := ih (a := []) hx
        exact ⟨.cut stretch :: p, q, rfl, by rw [spliced_cons, ← ha]; simp [Piece.spliced], hb⟩
      by_cases hx : x = []
      · subst hx
        exact absurd (.inr (.inr ⟨a, [], by simp⟩)) hno
      · exact absurd (.inr (.inl ⟨y, x, rfl, hy, hx, suffix_append a y⟩)) hno

end splices
