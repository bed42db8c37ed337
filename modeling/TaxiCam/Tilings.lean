-- Tilings. A list of pieces tiles a set if every piece holds something, no two
-- pieces share anything, and together they are the set.
import Mathlib.Data.Set.Lattice
import Mathlib.Order.CompletePartialOrder

namespace tilings

open List

variable {ρ α : Type} {cells : ρ → Set α} {pieces later : List ρ} {s t u : Set α}

structure Tiles (cells : ρ → Set α) (pieces : List ρ) (s : Set α) : Prop where
  nonempty : ∀ r ∈ pieces, (cells r).Nonempty
  apart : pieces.Pairwise fun r r' => Disjoint (cells r) (cells r')
  union : ∀ p, p ∈ s ↔ ∃ r ∈ pieces, p ∈ cells r

theorem Tiles.nil (h : ∀ p, p ∉ s) : Tiles cells [] s where
  nonempty := by simp
  apart := List.Pairwise.nil
  union := fun p => by simp [h p]

theorem Tiles.single {r : ρ} (hnonempty : (cells r).Nonempty) (h : ∀ p, p ∈ s ↔ p ∈ cells r) : Tiles cells [r] s where
  nonempty := by simpa using hnonempty
  apart := pairwise_singleton ..
  union := fun p => by simp [h p]

theorem Tiles.subset (h : Tiles cells pieces s) {r : ρ} (hr : r ∈ pieces) : cells r ⊆ s :=
  fun p hp => (h.union p).mpr ⟨r, hr, hp⟩

/-- Tilings of two sets that share nothing tile the two together. -/
theorem Tiles.append (h : Tiles cells pieces s) (h' : Tiles cells later t) (hapart : Disjoint s t)
    (hunion : ∀ p, p ∈ u ↔ p ∈ s ∨ p ∈ t) : Tiles cells (pieces ++ later) u where
  nonempty := by
    intro r hr
    rcases mem_append.mp hr with hr | hr
    · exact h.nonempty r hr
    · exact h'.nonempty r hr
  apart := pairwise_append.mpr ⟨h.apart, h'.apart, fun _ hr _ hr' =>
    hapart.mono (h.subset hr) (h'.subset hr')⟩
  union := by
    intro p
    rw [hunion p, h.union p, h'.union p]
    constructor
    · rintro (⟨r, hr, hp⟩ | ⟨r, hr, hp⟩)
      · exact ⟨r, mem_append_left _ hr, hp⟩
      · exact ⟨r, mem_append_right _ hr, hp⟩
    · rintro ⟨r, hr, hp⟩
      rcases mem_append.mp hr with hr | hr
      · exact .inl ⟨r, hr, hp⟩
      · exact .inr ⟨r, hr, hp⟩

end tilings
