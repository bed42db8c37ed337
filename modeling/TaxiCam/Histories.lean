-- Histories: a list of entries, oldest first, in which each entry is explained
-- by the ones before it.
import Mathlib.Data.List.Basic

namespace histories

open List

variable {ε : Type} {why : List ε → ε → Prop}

/-- Every entry has its reason among the entries before it. -/
def Explained (why : List ε → ε → Prop) (log : List ε) : Prop :=
  ∀ before e after, log = before ++ e :: after → why before e

theorem explained_nil : Explained why [] := by
  intro before e after h
  cases before <;> cases h

theorem explained_snoc {log : List ε} {e : ε} (h : Explained why log) (he : why log e) :
    Explained why (log ++ [e]) := by
  intro before x after hsplit
  rcases eq_nil_or_concat after with rfl | ⟨rest, y, rfl⟩
  · obtain ⟨rfl, hx⟩ := append_inj' hsplit rfl
    cases hx
    exact he
  rw [concat_eq_append, ← cons_append, ← append_assoc] at hsplit
  obtain ⟨rfl, -⟩ := append_inj' hsplit rfl
  exact h before x rest rfl

/-! ## Since -/

section
variable {stops : ε → Bool} {log : List ε} {e : ε}

/-- There was an entry for a reason, and no entry that stops it came since. -/
def Since (stops : ε → Bool) (why : List ε → ε → Prop) (log : List ε) : Prop :=
  ∃ before x after, log = before ++ x :: after ∧ why before x ∧ ∀ e ∈ after, stops e = false

theorem Since.now (he : why log e) : Since stops why (log ++ [e]) :=
  ⟨log, e, [], rfl, he, fun _ h => absurd h not_mem_nil⟩

theorem Since.append (h : Since stops why log) {es : List ε} (hes : ∀ e ∈ es, stops e = false) :
    Since stops why (log ++ es) := by
  obtain ⟨before, x, after, rfl, hx, hafter⟩ := h
  refine ⟨before, x, after ++ es, by simp, hx, ?_⟩
  intro y hy
  rcases mem_append.mp hy with hy | hy
  · exact hafter y hy
  · exact hes y hy

theorem Since.snoc (h : Since stops why log) (he : stops e = false) : Since stops why (log ++ [e]) := by
  refine h.append fun y hy => ?_
  rw [mem_singleton.mp hy]
  exact he

/-- A reason behind one more entry is that entry, or one that it does not stop. -/
theorem Since.of_snoc (h : Since stops why (log ++ [e])) : why log e ∨ Since stops why log ∧ stops e = false := by
  obtain ⟨before, x, after, hsplit, hx, hafter⟩ := h
  rcases eq_nil_or_concat after with rfl | ⟨rest, y, rfl⟩
  · obtain ⟨rfl, hxe⟩ := append_inj' hsplit rfl
    cases hxe
    exact .inl hx
  rw [concat_eq_append, ← cons_append, ← append_assoc] at hsplit
  obtain ⟨rfl, hye⟩ := append_inj' hsplit rfl
  cases hye
  exact .inr ⟨⟨before, x, rest, rfl, hx, fun z hz => hafter z (by simp [hz])⟩, hafter e (by simp)⟩

/-- An entry that stops, and is not the entry itself, came before it. -/
theorem Since.after {before between : List ε} (h : Since stops why (before ++ e :: between))
    (he : stops e = true) (hother : ¬why before e) :
    ∃ first x rest, between = first ++ x :: rest ∧ why (before ++ e :: first) x ∧ ∀ y ∈ rest, stops y = false := by
  obtain ⟨past, x, rest, hsplit, hx, hrest⟩ := h
  -- the entry cannot stand at `e`, nor before it
  rcases append_eq_append_iff.mp hsplit with ⟨c, rfl, hc⟩ | ⟨c, hpast, hc⟩
  · cases c with
    | nil =>
      obtain ⟨rfl, -⟩ := List.cons.inj hc
      rw [append_nil] at hx
      exact absurd hx hother
    | cons y c =>
      obtain ⟨rfl, rfl⟩ := List.cons.inj hc
      exact ⟨c, x, rest, rfl, hx, hrest⟩
  cases c with
  | nil =>
    obtain ⟨rfl, -⟩ := List.cons.inj hc
    rw [hpast, append_nil] at hother
    exact absurd hx hother
  | cons y c =>
    obtain ⟨rfl, rfl⟩ := List.cons.inj hc
    have hmem : e ∈ c ++ e :: between := mem_append_right _ mem_cons_self
    exact absurd (hrest e hmem) (by rw [he]; exact nofun)

/-- The first entry that stops divides a list in one way. -/
theorem first_unique {before other : List ε} {x y : ε} {after rest : List ε}
    (h : before ++ x :: after = other ++ y :: rest) (hb : ∀ e ∈ before, stops e = false)
    (ho : ∀ e ∈ other, stops e = false) (hx : stops x = true) (hy : stops y = true) :
    before = other ∧ x = y ∧ after = rest := by
  induction before generalizing other with
  | nil =>
    cases other with
    | nil => exact ⟨rfl, List.cons.inj h⟩
    | cons z other =>
      obtain ⟨rfl, -⟩ := List.cons.inj h
      exact absurd (ho x mem_cons_self) (by rw [hx]; exact nofun)
  | cons z before ih =>
    cases other with
    | nil =>
      obtain ⟨rfl, -⟩ := List.cons.inj h
      exact absurd (hb z mem_cons_self) (by rw [hy]; exact nofun)
    | cons w other =>
      obtain ⟨rfl, htail⟩ := List.cons.inj h
      obtain ⟨rfl, hxy⟩ := ih htail (fun e he => hb e (mem_cons_of_mem _ he)) fun e he => ho e (mem_cons_of_mem _ he)
      exact ⟨rfl, hxy⟩

end

end histories
