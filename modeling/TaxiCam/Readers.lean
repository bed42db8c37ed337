-- Readers of a text. A reader takes something off the front, or refuses the text, or
-- runs out of turns for its loops; what it does is said by four properties that go
-- through every sequence of readers.
import Mathlib.Data.List.Basic

namespace readers

variable {τ ε α β : Type}

inductive Outcome (τ ε α : Type)
  | ok (value : α) (rest : List τ)
  | failed (error : ε)
  | unfinished

/-- What is read off the front of a text. -/
def Reader (τ ε α : Type) := List τ → Outcome τ ε α

namespace Reader

def pure (value : α) : Reader τ ε α := fun text => .ok value text

def bind (r : Reader τ ε α) (next : α → Reader τ ε β) : Reader τ ε β := fun text =>
  match r text with
  | .ok value rest => next value rest
  | .failed error => .failed error
  | .unfinished => .unfinished

instance : Monad (Reader τ ε) where
  pure := Reader.pure
  bind := Reader.bind

def fail (error : ε) : Reader τ ε α := fun _ => .failed error

def unfinished : Reader τ ε α := fun _ => .unfinished

theorem bind_ok {r : Reader τ ε α} {next : α → Reader τ ε β} {text rest : List τ} {b : β}
    (h : (r >>= next) text = .ok b rest) : ∃ a middle, r text = .ok a middle ∧ next a middle = .ok b rest := by
  change bind r next text = _ at h
  unfold bind at h
  cases hr : r text with
  | ok a middle =>
    rw [hr] at h
    exact ⟨a, middle, rfl, h⟩
  | failed error =>
    rw [hr] at h
    cases h
  | unfinished =>
    rw [hr] at h
    cases h

theorem bind_of_ok {r : Reader τ ε α} {next : α → Reader τ ε β} {text middle : List τ} {a : α}
    (h : r text = .ok a middle) : (r >>= next) text = next a middle := by
  change bind r next text = _
  unfold bind
  rw [h]

theorem bind_unfinished {r : Reader τ ε α} {next : α → Reader τ ε β} {text : List τ}
    (h : (r >>= next) text = .unfinished) :
    r text = .unfinished ∨ ∃ a middle, r text = .ok a middle ∧ next a middle = .unfinished := by
  change bind r next text = _ at h
  unfold bind at h
  cases hr : r text with
  | ok a middle =>
    rw [hr] at h
    exact .inr ⟨a, middle, rfl, h⟩
  | failed error =>
    rw [hr] at h
    cases h
  | unfinished => exact .inl rfl

end Reader

open Reader

variable {r r' : Reader τ ε α} {next next' : α → Reader τ ε β}

/-! ## One reader accepts what another does -/

/-- What the first reader accepts, the second accepts with the same value and the same rest. -/
def Refines (r r' : Reader τ ε α) : Prop := ∀ text a rest, r text = .ok a rest → r' text = .ok a rest

theorem Refines.refl (r : Reader τ ε α) : Refines r r := fun _ _ _ h => h

theorem Refines.fail (error : ε) : Refines (fail error : Reader τ ε α) r := fun _ _ _ h => by cases h

theorem Refines.bind (hr : Refines r r') (hnext : ∀ a, Refines (next a) (next' a)) :
    Refines (r >>= next) (r' >>= next') := by
  intro text b rest h
  obtain ⟨a, middle, hfirst, hlater⟩ := bind_ok h
  rw [bind_of_ok (hr _ _ _ hfirst)]
  exact hnext a _ _ _ hlater

/-- A choice that both make. -/
theorem Refines.ite {c : Prop} [Decidable c] {s s' : Reader τ ε α} (hr : Refines r r') (hs : Refines s s') :
    Refines (if c then r else s) (if c then r' else s') := by
  split
  · exact hr
  · exact hs

/-! ## Values -/

/-- What the reader accepts has the property. -/
def Gives (r : Reader τ ε α) (p : α → Prop) : Prop := ∀ text a rest, r text = .ok a rest → p a

theorem Gives.pure {p : α → Prop} {a : α} (h : p a) : Gives (Pure.pure a : Reader τ ε α) p := by
  intro text b rest hb
  cases hb
  exact h

theorem Gives.fail {p : α → Prop} (error : ε) : Gives (fail error : Reader τ ε α) p := fun _ _ _ h => by cases h

theorem Gives.bind {p : β → Prop} {q : α → Prop} (hr : Gives r q) (hnext : ∀ a, q a → Gives (next a) p) :
    Gives (r >>= next) p := by
  intro text b rest h
  obtain ⟨a, middle, hfirst, hlater⟩ := bind_ok h
  exact hnext a (hr _ _ _ hfirst) _ _ _ hlater

theorem Gives.bind_any {p : β → Prop} (hnext : ∀ a, Gives (next a) p) : Gives (r >>= next) p := by
  intro text b rest h
  obtain ⟨a, middle, -, hlater⟩ := bind_ok h
  exact hnext a _ _ _ hlater

/-! ## Progress -/

/-- The reader leaves no more than the text, less what it takes at least. -/
def Takes (r : Reader τ ε α) (least : Nat) : Prop :=
  ∀ text a rest, r text = .ok a rest → rest.length + least ≤ text.length

theorem Takes.pure (a : α) : Takes (Pure.pure a : Reader τ ε α) 0 := by
  intro text b rest h
  cases h
  exact Nat.le_refl _

theorem Takes.fail (error : ε) (n : Nat) : Takes (fail error : Reader τ ε α) n := fun _ _ _ h => by cases h

variable {p : List τ → α → Prop} {bound m n : Nat}

theorem Takes.bind (hr : Takes r m) (hnext : ∀ a, Takes (next a) n) : Takes (r >>= next) (m + n) := by
  intro text b rest h
  obtain ⟨a, middle, hfirst, hlater⟩ := bind_ok h
  have := hr _ _ _ hfirst
  have := hnext a _ _ _ hlater
  omega

theorem Takes.weaken (hr : Takes r n) (h : m ≤ n) : Takes r m := by
  intro text a rest hok
  have := hr _ _ _ hok
  omega

/-! ## Ends -/

/-- On texts no longer than the bound the reader does not run out of turns. -/
def Ends (bound : Nat) (r : Reader τ ε α) : Prop := ∀ text, text.length ≤ bound → r text ≠ .unfinished

theorem Ends.pure (bound : Nat) (a : α) : Ends bound (Pure.pure a : Reader τ ε α) := fun _ _ h => by cases h

theorem Ends.fail (bound : Nat) (error : ε) : Ends bound (fail error : Reader τ ε α) := fun _ _ h => by cases h

/-- What comes next has the text less what was taken, when there was that much. -/
theorem Ends.bind {least : Nat} (hr : Ends bound r) (htakes : Takes r least)
    (hnext : ∀ a, least ≤ bound → Ends (bound - least) (next a)) : Ends bound (r >>= next) := by
  intro text htext h
  change Reader.bind r next text = _ at h
  unfold Reader.bind at h
  cases hok : r text with
  | ok a middle =>
    rw [hok] at h
    have hlength := htakes _ _ _ hok
    exact hnext a (by omega) middle (by omega) h
  | failed error =>
    rw [hok] at h
    cases h
  | unfinished => exact hr text htext hok

theorem Ends.weaken {smaller : Nat} (hr : Ends bound r) (h : smaller ≤ bound) : Ends smaller r :=
  fun text htext => hr text (Nat.le_trans htext h)

/-- A reader with no loop in it does not run out of turns on any text. -/
def Finishes (r : Reader τ ε α) : Prop := ∀ text, r text ≠ .unfinished

theorem Finishes.pure (a : α) : Finishes (Pure.pure a : Reader τ ε α) := fun _ h => by cases h

theorem Finishes.fail (error : ε) : Finishes (fail error : Reader τ ε α) := fun _ h => by cases h

theorem Finishes.bind (hr : Finishes r) (hnext : ∀ a, Finishes (next a)) : Finishes (r >>= next) := by
  intro text h
  rcases bind_unfinished h with h | ⟨a, middle, -, h⟩
  · exact hr text h
  · exact hnext a middle h

/-! ## What is read -/

/-- From a text no longer than the bound the reader takes a text, and gives a value, that are
related. -/
def Reads (bound : Nat) (r : Reader τ ε α) (p : List τ → α → Prop) : Prop :=
  ∀ text a rest, text.length ≤ bound → r text = .ok a rest → ∃ used, text = used ++ rest ∧ p used a

theorem Reads.pure {a : α} (h : p [] a) : Reads bound (Pure.pure a : Reader τ ε α) p := by
  intro text b rest _ hb
  cases hb
  exact ⟨[], rfl, h⟩

theorem Reads.fail (error : ε) : Reads bound (fail error : Reader τ ε α) p := fun _ _ _ _ h => by cases h

theorem Reads.bind {q : List τ → β → Prop} (hr : Reads bound r p)
    (hnext : ∀ used a, p used a → Reads bound (next a) fun later b => q (used ++ later) b) :
    Reads bound (r >>= next) q := by
  intro text b rest htext h
  obtain ⟨a, middle, hfirst, hlater⟩ := bind_ok h
  obtain ⟨used, hused, hp⟩ := hr _ _ _ htext hfirst
  have hmiddle : middle.length ≤ bound := by
    rw [hused, List.length_append] at htext
    omega
  obtain ⟨later, hmore, hq⟩ := hnext used a hp _ _ _ hmiddle hlater
  exact ⟨used ++ later, by rw [hused, hmore, List.append_assoc], hq⟩

theorem Reads.imp {q : List τ → α → Prop} (hr : Reads bound r p) (h : ∀ used a, p used a → q used a) :
    Reads bound r q := by
  intro text a rest htext hok
  obtain ⟨used, hused, hp⟩ := hr _ _ _ htext hok
  exact ⟨used, hused, h used a hp⟩

end readers
