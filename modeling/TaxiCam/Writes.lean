-- Writes to a partial map. Writes that all agree with a map, and that reach
-- every key where it has a value, build the map from nothing.
import Mathlib.Data.List.Basic
import Mathlib.Logic.Function.Basic

namespace writes

open List

variable {κ υ : Type} [DecidableEq κ]

def write (f : κ → Option υ) (w : κ × υ) : κ → Option υ := Function.update f w.1 (some w.2)

def write_all (f : κ → Option υ) (l : List (κ × υ)) : κ → Option υ := l.foldl write f

theorem write_all_append (f : κ → Option υ) (l l' : List (κ × υ)) :
    write_all f (l ++ l') = write_all (write_all f l) l' := foldl_append

variable {l : List (κ × υ)}

/-- Writes that agree with `g` lead a key to `g`. -/
theorem write_all_of_agrees {g f : κ → Option υ}
    (h : ∀ w ∈ l, g w.1 = some w.2) {k : κ} (hk : f k = g k ∨ ∃ w ∈ l, w.1 = k) :
    write_all f l k = g k := by
  induction l generalizing f with
  | nil => exact hk.resolve_right (by simp)
  | cons w rest ih =>
    rw [write_all, foldl_cons, ← write_all]
    apply ih fun x hx => h x (mem_cons_of_mem _ hx)
    by_cases hw : w.1 = k
    · subst hw
      left
      rw [write, Function.update_self, h w mem_cons_self]
    rcases hk with hk | ⟨x, hx, rfl⟩
    · left
      rw [write, Function.update_of_ne (Ne.symm hw), hk]
    rcases mem_cons.mp hx with rfl | hx
    · exact absurd rfl hw
    · exact .inr ⟨x, hx, rfl⟩

/-- Writes that agree with `g` and reach every value of `g` build `g`. -/
theorem write_all_eq {g : κ → Option υ} (h : ∀ w ∈ l, g w.1 = some w.2)
    (hall : ∀ k v, g k = some v → ∃ w ∈ l, w.1 = k) : write_all (fun _ => none) l = g := by
  funext k
  apply write_all_of_agrees h
  rcases hg : g k with _ | v
  · exact .inl rfl
  · exact .inr (hall k v hg)

end writes
