-- Tokens of an LZ77 stream: an element, or a copy of elements that have gone
-- before. A copy goes element by element, so it may run into itself.
import Mathlib.Data.List.Basic

namespace lz77

variable {α : Type}

inductive Token (α : Type)
  | literal (a : α)
  | copy (length distance : Nat)

/-- `length` times the element `distance` back. -/
def copied (distance : Nat) : Nat → List α → List α
  | 0, out => out
  | length + 1, out => copied distance length (out ++ out[out.length - distance]?.toList)

/-- What one token adds. A copy reaches back to an element that is there. -/
def Token.expand (out : List α) : Token α → Option (List α)
  | .literal a => some (out ++ [a])
  | .copy length distance =>
    if 0 < distance ∧ distance ≤ out.length then some (copied distance length out) else none

def expand (out : List α) : List (Token α) → Option (List α)
  | [] => some out
  | token :: rest => (token.expand out).bind (expand · rest)

/-- A copy of a stretch that the text repeats goes on with the text. -/
theorem copied_take {l : List α} {i distance length : Nat} (hpos : 0 < distance) (hle : distance ≤ i)
    (hend : i + length ≤ l.length)
    (hsame : ∀ k, k < length → l[i - distance + k]? = l[i + k]?) :
    copied distance length (l.take i) = l.take (i + length) := by
  induction length generalizing i with
  | zero => rfl
  | succ length ih =>
    have hlength : (l.take i).length = i := by
      rw [List.length_take]
      omega
    have hback : (l.take i)[i - distance]? = l[i]? := by
      rw [List.getElem?_take_of_lt (by omega)]
      exact hsame 0 (Nat.succ_pos _)
    rw [copied, hlength, hback, ← List.take_add_one, ih (by omega) (by omega)]
    · rw [Nat.add_right_comm, Nat.add_assoc]
    · intro k hk
      have := hsame (k + 1) (by omega)
      rw [show i + 1 - distance + k = i - distance + (k + 1) by omega, show i + 1 + k = i + (k + 1) by omega, this]

end lz77
