-- Tables that are searched from the front by a key: a change of an entry
-- changes the first entry with the key, and no other.
import Mathlib.Data.List.Basic
import Mathlib.Data.List.Nodup

namespace keyed

open List

variable {α κ : Type} [DecidableEq κ]

/-- `f` on the first entry with key `k`. A table with no such entry stays as it is. -/
def modify (key : α → κ) (k : κ) (f : α → α) : List α → List α
  | [] => []
  | x :: rest => if key x = k then f x :: rest else x :: modify key k f rest

section
variable {key : α → κ} {k : κ} {f g : α → α}

theorem modify_cons (x : α) (rest : List α) :
    modify key k f (x :: rest) = if key x = k then f x :: rest else x :: modify key k f rest := rfl

theorem map_key_modify (hf : ∀ x, key (f x) = key x) (l : List α) : (modify key k f l).map key = l.map key := by
  induction l with
  | nil => rfl
  | cons x rest ih => simp only [modify_cons]; split <;> simp [ih, hf]

theorem map_key_modify_of (hf : ∀ x, key x = k → key (f x) = key x) (l : List α) :
    (modify key k f l).map key = l.map key := by
  induction l with
  | nil => rfl
  | cons x rest ih =>
    simp only [modify_cons]
    split
    · rename_i hx
      rw [map_cons, map_cons, hf x hx]
    · rw [map_cons, map_cons, ih]

/-- Two changes of one key are one change. -/
theorem modify_modify (hf : ∀ x, key (f x) = key x) (l : List α) :
    modify key k g (modify key k f l) = modify key k (g ∘ f) l := by
  induction l with
  | nil => rfl
  | cons x rest ih =>
    by_cases hx : key x = k
    · simp [modify_cons, hx, hf]
    · simp [modify_cons, hx, ih]

/-- Changes of two keys commute. -/
theorem modify_comm {k' : κ} (hk : k ≠ k') (hf : ∀ x, key (f x) = key x) (hg : ∀ x, key (g x) = key x) (l : List α) :
    modify key k' g (modify key k f l) = modify key k f (modify key k' g l) := by
  induction l with
  | nil => rfl
  | cons x rest ih =>
    by_cases hx : key x = k
    · have hx' : key x ≠ k' := hx ▸ hk
      simp [modify_cons, hx, hf, hk]
    by_cases hx' : key x = k'
    · simp [modify_cons, hx', hg, hk.symm]
    · simp [modify_cons, hx, hx', ih]

variable {l : List α} {y : α}

theorem mem_modify_of_ne (hy : y ∈ l) (hk : key y ≠ k) : y ∈ modify key k f l := by
  induction l with
  | nil => cases hy
  | cons x rest ih =>
    simp only [modify_cons]
    split
    · rename_i hx
      rcases mem_cons.mp hy with rfl | hr
      · exact absurd hx hk
      · exact mem_cons_of_mem _ hr
    rcases mem_cons.mp hy with rfl | hr
    · exact mem_cons_self
    · exact mem_cons_of_mem _ (ih hr)

theorem mem_modify_self (hl : (l.map key).Nodup) {x : α} (hx : x ∈ l) (hk : key x = k) : f x ∈ modify key k f l := by
  induction l with
  | nil => cases hx
  | cons y rest ih =>
    simp only [map_cons, nodup_cons] at hl
    simp only [modify_cons]
    rcases mem_cons.mp hx with rfl | hr
    · rw [if_pos hk]
      exact mem_cons_self
    have hy : key y ≠ k := fun he => hl.1 (he.trans hk.symm ▸ mem_map_of_mem hr)
    rw [if_neg hy]
    exact mem_cons_of_mem _ (ih hl.2 hr)

/-- With every key at most once, a change leaves the entries of the other keys, and
changes the entry of its own. -/
theorem mem_modify (hl : (l.map key).Nodup) (hy : y ∈ modify key k f l) :
    (y ∈ l ∧ key y ≠ k) ∨ ∃ x ∈ l, key x = k ∧ y = f x := by
  induction l with
  | nil => cases hy
  | cons x rest ih =>
    simp only [map_cons, nodup_cons] at hl
    simp only [modify_cons] at hy
    split at hy
    · rename_i hx
      rcases mem_cons.mp hy with rfl | hr
      · exact .inr ⟨x, mem_cons_self, hx, rfl⟩
      refine .inl ⟨mem_cons_of_mem _ hr, fun he => hl.1 ?_⟩
      exact hx.trans he.symm ▸ mem_map_of_mem hr
    rename_i hx
    rcases mem_cons.mp hy with rfl | hr
    · exact .inl ⟨mem_cons_self, hx⟩
    rcases ih hl.2 hr with ⟨h1, h2⟩ | ⟨z, hz, h1, h2⟩
    · exact .inl ⟨mem_cons_of_mem _ h1, h2⟩
    · exact .inr ⟨z, mem_cons_of_mem _ hz, h1, h2⟩

/-- An entry of the changed table was there, or is the change of one. -/
theorem mem_or_of_mem_modify (hy : y ∈ modify key k f l) : y ∈ l ∨ ∃ x ∈ l, key x = k ∧ y = f x := by
  induction l with
  | nil => cases hy
  | cons x rest ih =>
    simp only [modify_cons] at hy
    split at hy
    · rename_i hx
      rcases mem_cons.mp hy with rfl | hr
      · exact .inr ⟨x, mem_cons_self, hx, rfl⟩
      · exact .inl (mem_cons_of_mem _ hr)
    rcases mem_cons.mp hy with rfl | hr
    · exact .inl mem_cons_self
    rcases ih hr with h | ⟨z, hz, hk, rfl⟩
    · exact .inl (mem_cons_of_mem _ h)
    · exact .inr ⟨z, mem_cons_of_mem _ hz, hk, rfl⟩

/-- With the changed key at most once, the entries of the other keys stay. -/
theorem mem_modify_of_pairwise (hl : l.Pairwise fun x z => key x = k → key z ≠ k) (hy : y ∈ modify key k f l) :
    (y ∈ l ∧ key y ≠ k) ∨ ∃ x ∈ l, key x = k ∧ y = f x := by
  induction l with
  | nil => cases hy
  | cons x rest ih =>
    obtain ⟨hfirst, hrest⟩ := pairwise_cons.mp hl
    simp only [modify_cons] at hy
    split at hy
    · rename_i hx
      rcases mem_cons.mp hy with rfl | hr
      · exact .inr ⟨x, mem_cons_self, hx, rfl⟩
      · exact .inl ⟨mem_cons_of_mem _ hr, hfirst y hr hx⟩
    rename_i hx
    rcases mem_cons.mp hy with rfl | hr
    · exact .inl ⟨mem_cons_self, hx⟩
    rcases ih hrest hr with ⟨h, hk⟩ | ⟨z, hz, hk, rfl⟩
    · exact .inl ⟨mem_cons_of_mem _ h, hk⟩
    · exact .inr ⟨z, mem_cons_of_mem _ hz, hk, rfl⟩

/-- A relation between the entries that the change of one of them keeps. -/
theorem pairwise_modify {R : α → α → Prop} (hl : l.Pairwise R)
    (hleft : ∀ x ∈ l, key x = k → ∀ z ∈ l, R x z → R (f x) z)
    (hright : ∀ x ∈ l, key x = k → ∀ z ∈ l, R z x → R z (f x)) : (modify key k f l).Pairwise R := by
  induction l with
  | nil => exact List.Pairwise.nil
  | cons x rest ih =>
    obtain ⟨hfirst, hrest⟩ := pairwise_cons.mp hl
    have hx := mem_cons_self (a := x) (l := rest)
    have hin (z : α) (hz : z ∈ rest) : z ∈ x :: rest := mem_cons_of_mem _ hz
    simp only [modify_cons]
    split
    · rename_i hk
      exact pairwise_cons.mpr ⟨fun z hz => hleft x hx hk z (hin z hz) (hfirst z hz), hrest⟩
    refine pairwise_cons.mpr ⟨fun z hz => ?_, ih hrest (fun y hy hk z hz => hleft y (hin y hy) hk z (hin z hz))
      (fun y hy hk z hz => hright y (hin y hy) hk z (hin z hz))⟩
    rcases mem_or_of_mem_modify hz with h | ⟨w, hw, hk, rfl⟩
    · exact hfirst z h
    · exact hright w (hin w hw) hk x hx (hfirst w hw)

end

end keyed
