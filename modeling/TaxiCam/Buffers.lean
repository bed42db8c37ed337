-- Buffers that are written in pieces, and what is read back from them.
import Mathlib.Data.List.Basic

namespace buffers

open List

variable {α : Type} {file bytes : List α} {offset start length : Nat} {pieces : List (Nat × List α)}

/-- `std::memcpy` into a buffer. -/
def write (file : List α) (offset : Nat) (bytes : List α) : List α :=
  file.take offset ++ bytes ++ file.drop (offset + bytes.length)

def part (file : List α) (start length : Nat) : List α := (file.drop start).take length

/-- One piece after the other. -/
def write_all (file : List α) (pieces : List (Nat × List α)) : List α :=
  pieces.foldl (fun file piece => write file piece.1 piece.2) file

/-- The piece is inside the buffer. -/
def Fits (file : List α) (piece : Nat × List α) : Prop := piece.1 + piece.2.length ≤ file.length

/-- The piece does not touch a part. -/
def Apart (start length : Nat) (piece : Nat × List α) : Prop :=
  start + length ≤ piece.1 ∨ piece.1 + piece.2.length ≤ start

theorem getElem?_part (file : List α) (start length i : Nat) :
    (part file start length)[i]? = if i < length then file[start + i]? else none := by
  rw [part, List.getElem?_take, List.getElem?_drop]

theorem getElem?_write (h : Fits file (offset, bytes)) (i : Nat) :
    (write file offset bytes)[i]? =
      if offset ≤ i ∧ i < offset + bytes.length then bytes[i - offset]? else file[i]? := by
  have hroom : offset + bytes.length ≤ file.length := h
  have hfront : (file.take offset).length = offset := by
    rw [length_take]
    omega
  unfold write
  rw [append_assoc, List.getElem?_append, hfront]
  split
  · rename_i hlt
    rw [if_neg (by omega), List.getElem?_take, if_pos hlt]
  rename_i hge
  rw [List.getElem?_append]
  split
  · rename_i hin
    rw [if_pos (by omega)]
  rename_i hout
  rw [if_neg (by omega), List.getElem?_drop]
  congr 1
  omega

theorem length_write (h : Fits file (offset, bytes)) : (write file offset bytes).length = file.length := by
  unfold Fits at h
  dsimp only at h
  rw [write, length_append, length_append, length_take, length_drop]
  omega

theorem part_write_self (h : Fits file (offset, bytes)) :
    part (write file offset bytes) offset bytes.length = bytes := by
  refine ext_getElem? fun i => ?_
  rw [getElem?_part]
  split
  · rename_i hlt
    rw [getElem?_write h, if_pos (by omega), Nat.add_sub_cancel_left]
  rename_i hge
  rw [List.getElem?_eq_none (Nat.le_of_not_lt hge)]

theorem part_write_apart (h : Fits file (offset, bytes)) (hapart : Apart start length (offset, bytes)) :
    part (write file offset bytes) start length = part file start length := by
  unfold Apart at hapart
  dsimp only at hapart
  refine ext_getElem? fun i => ?_
  rw [getElem?_part, getElem?_part]
  split
  · rename_i hlt
    rw [getElem?_write h, if_neg (by omega)]
  · rfl

theorem length_write_all (h : ∀ piece ∈ pieces, Fits file piece) : (write_all file pieces).length = file.length := by
  induction pieces generalizing file with
  | nil => rfl
  | cons piece pieces ih =>
    have hlength := length_write (h piece mem_cons_self)
    rw [write_all, foldl_cons, ← write_all, ih, hlength]
    intro other hother
    rw [Fits, hlength]
    exact h other (mem_cons_of_mem _ hother)

/-- What no piece touches stays. -/
theorem part_write_all_apart (h : ∀ piece ∈ pieces, Fits file piece)
    (hapart : ∀ piece ∈ pieces, Apart start length piece) :
    part (write_all file pieces) start length = part file start length := by
  induction pieces generalizing file with
  | nil => rfl
  | cons piece pieces ih =>
    have hfits := h piece mem_cons_self
    rw [write_all, foldl_cons, ← write_all, ih, part_write_apart hfits (hapart piece mem_cons_self)]
    · intro other hother
      rw [Fits, length_write hfits]
      exact h other (mem_cons_of_mem _ hother)
    · exact fun other hother => hapart other (mem_cons_of_mem _ hother)

/-- Pieces that do not touch each other are all there. -/
theorem part_write_all (h : ∀ piece ∈ pieces, Fits file piece)
    (hapart : pieces.Pairwise fun a b => Apart a.1 a.2.length b) {piece : Nat × List α} (hpiece : piece ∈ pieces) :
    part (write_all file pieces) piece.1 piece.2.length = piece.2 := by
  induction pieces generalizing file with
  | nil => exact absurd hpiece not_mem_nil
  | cons first pieces ih =>
    have hfits := h first mem_cons_self
    have hrest : ∀ other ∈ pieces, Fits (write file first.1 first.2) other := by
      intro other hother
      rw [Fits, length_write hfits]
      exact h other (mem_cons_of_mem _ hother)
    obtain ⟨hfirst, hlater⟩ := pairwise_cons.mp hapart
    rw [write_all, foldl_cons, ← write_all]
    rcases mem_cons.mp hpiece with rfl | hpiece
    · rw [part_write_all_apart hrest hfirst, part_write_self hfits]
    · exact ih hrest hlater hpiece

/-- A part of a part. -/
theorem part_part {inner : Nat} (h : start + inner ≤ length) :
    part (part file offset length) start inner = part file (offset + start) inner := by
  refine ext_getElem? fun i => ?_
  rw [getElem?_part, getElem?_part, getElem?_part]
  split
  · rw [if_pos (by omega), Nat.add_assoc]
  · rfl

end buffers
