-- The two lists of marks while a writer fills one and readers, which never wait,
-- read the other. `set_marks` and `read_marks` of src/graphics/display_keep.hpp,
-- one atomic load or store at a time.
import TaxiCam.DisplayKeep

namespace taxi_camera.standalone.display_keep

open runs List
open Function (update update_self update_of_ne)

/-- A `set_marks` under way: its list, what it stores there, and how many stores were made, the count's last. -/
structure Write where
  next : Nat
  stored : List Nat
  done : Nat := 0

/-- A `read_marks` under way. `seen` are the lists that were the current one since its start. -/
structure Read where
  list : Nat
  count : Option Nat := none
  out : List Nat := []
  seen : List (List Nat)

/-- Nothing is left to load. -/
def Read.finished (x : Read) : Bool := x.count == some x.out.length

/-- The threads on the two lists. `current` is what was published last as a whole, and
`returned` what each reader returned, with the lists that were current since its start. -/
structure Threads extends Lists where
  writer : Option Write := none
  readers : Nat → Option Read := fun _ => none
  current : List Nat := []
  returned : List (List Nat × List (List Nat)) := []

inductive Act
  | set_marks (points : List Point)
  | store
  | read_marks (reader : Nat)
  | load (reader : Nat)

namespace Threads

variable (s : Threads)

/-- One store into the list that the writer fills. -/
def put (w : Write) (list : MarkList) : Threads :=
  { s with lists := update s.lists w.next list, writer := some { w with done := w.done + 1 } }

/-- The next store of the writer. -/
def store (w : Write) : Threads :=
  let list := s.lists w.next
  if w.done < w.stored.length then
    s.put w { list with marks := update list.marks w.done (w.stored.getD w.done 0) }
  else if w.done = w.stored.length then s.put w { list with count := w.stored.length }
  else
    { s with
      published := w.next
      writer := none
      current := w.stored
      readers := fun r => (s.readers r).map fun x => { x with seen := x.seen ++ [w.stored] } }

/-- The next load of a reader, or its return. -/
def load (r : Nat) (x : Read) : Threads :=
  match x.count with
  | none => { s with readers := update s.readers r (some { x with count := some (min (s.lists x.list).count MaxMarks) }) }
  | some n =>
    if x.out.length < n then
      { s with readers := update s.readers r (some { x with out := x.out ++ [(s.lists x.list).marks x.out.length] }) }
    else { s with readers := update s.readers r none, returned := s.returned ++ [(x.out, x.seen)] }

def step : Act → Threads
  | .set_marks points =>
    if s.writer.isSome then s
    else { s with writer := some ⟨s.published ^^^ 1, (points.take MaxMarks).map pack, 0⟩ }
  | .store => s.writer.elim s s.store
  | .read_marks r =>
    if (s.readers r).isSome then s
    else { s with readers := update s.readers r (some { list := s.published, seen := [s.current] }) }
  | .load r => (s.readers r).elim s (s.load r)

end Threads

/-! ## What the threads keep -/

/-- The list holds these marks. -/
structure MarkList.Holds (list : MarkList) (marks : List Nat) : Prop where
  fits : marks.length ≤ MaxMarks
  count : list.count = marks.length
  marks : ∀ i < marks.length, marks[i]? = some (list.marks i)

/-- What was stored so far. -/
structure Write.Filled (w : Write) (s : Lists) : Prop where
  next : w.next = s.published ^^^ 1
  fits : w.stored.length ≤ MaxMarks
  marks : ∀ i < w.done, i < w.stored.length → w.stored[i]? = some ((s.lists w.next).marks i)
  count : w.stored.length < w.done → (s.lists w.next).count = w.stored.length

/-- The reader is on its way through a list that it saw, which stands there until nothing is left to load. -/
def Read.Follows (x : Read) (lists : Nat → MarkList) : Prop :=
  ∃ marks ∈ x.seen, x.out <+: marks ∧ (∀ n ∈ x.count, n = marks.length) ∧
    (x.finished = false → (lists x.list).Holds marks)

structure Threads.Good (s : Threads) : Prop where
  current : (s.lists s.published).Holds s.current
  writer : ∀ w ∈ s.writer, w.Filled s.toLists
  readers : ∀ r, ∀ x ∈ s.readers r, x.Follows s.lists
  returned : ∀ x ∈ s.returned, x.1 ∈ x.2

/-- No store goes into a list that a reader has not finished. -/
def Threads.Clear (s : Threads) (a : Act) : Prop :=
  a = .store → ∀ w ∈ s.writer, w.done ≤ w.stored.length → ∀ r, ∀ x ∈ s.readers r, x.list = w.next → x.finished = true

namespace Threads

variable {s : Threads} {w : Write} {r : Nat} {x : Read} {list : MarkList} {marks : List Nat}

theorem next_ne (h : w.Filled s.toLists) : w.next ≠ s.published := by
  rw [h.next]
  intro heq
  have hbit := congrArg (Nat.testBit · 0) heq
  simp only [Nat.testBit_xor, Nat.testBit_one_zero, Bool.xor_true] at hbit
  exact Bool.not_ne_self _ hbit

/-- A list that no reader is in the middle of can be written. -/
theorem Good.put (h : s.Good) (hw : s.writer = some w) (hdone : w.done ≤ w.stored.length) (hclear : s.Clear .store)
    (hfilled : { w with done := w.done + 1 }.Filled (s.put w list).toLists) : (s.put w list).Good := by
  have hnext := next_ne (h.writer w hw)
  refine ⟨?_, ?_, fun r x hx => ?_, h.returned⟩
  · simpa [Threads.put, update_of_ne hnext.symm] using h.current
  · rintro _ ⟨⟩
    exact hfilled
  · obtain ⟨marks, hseen, hout, hcount, hholds⟩ := h.readers r x hx
    refine ⟨marks, hseen, hout, hcount, fun hunfinished => ?_⟩
    have hother : x.list ≠ w.next := fun hlist => by
      rw [hclear rfl w hw hdone r x hx hlist] at hunfinished
      cases hunfinished
    simpa [Threads.put, update_of_ne hother] using hholds hunfinished

theorem Good.store (h : s.Good) (hw : s.writer = some w) (hclear : s.Clear .store) : (s.store w).Good := by
  have hfilled := h.writer w hw
  unfold Threads.store
  split
  · next hmore =>
    refine h.put hw hmore.le hclear ⟨hfilled.next, hfilled.fits, fun i hi hlength => ?_, fun hlate =>
      absurd hmore (Nat.not_lt.mpr (Nat.le_of_lt_succ hlate))⟩
    simp only [Threads.put, update_self]
    rcases Nat.lt_succ_iff_lt_or_eq.mp hi with hbefore | rfl
    · rw [update_of_ne hbefore.ne]
      exact hfilled.marks i hbefore hlength
    rw [update_self, getD_eq_getElem?_getD, getElem?_eq_getElem hlength]
    rfl
  split
  · next hmarks hlast =>
    refine h.put hw hlast.le hclear ⟨hfilled.next, hfilled.fits, fun i hi hlength => ?_, fun _ => ?_⟩
    · simpa [Threads.put] using hfilled.marks i (hlast ▸ hlength) hlength
    · simp [Threads.put]
  next hmarks hlast =>
  have hholds : (s.lists w.next).Holds w.stored :=
    ⟨hfilled.fits, hfilled.count (by omega), fun i hi => hfilled.marks i (by omega) hi⟩
  refine ⟨hholds, nofun, fun r x hx => ?_, h.returned⟩
  obtain ⟨y, hy, rfl⟩ := Option.map_eq_some_iff.mp hx
  obtain ⟨marks, hseen, hrest⟩ := h.readers r y hy
  exact ⟨marks, mem_append_left _ hseen, hrest⟩

theorem Good.turn (h : s.Good) {after : Option Read} (hafter : ∀ x ∈ after, x.Follows s.lists) :
    ∀ r', ∀ x ∈ update s.readers r after r', x.Follows s.lists := by
  intro r' x hx
  by_cases hr : r' = r
  · rw [hr, update_self] at hx
    exact hafter x hx
  rw [update_of_ne hr] at hx
  exact h.readers r' x hx

theorem Good.load (h : s.Good) (hx : s.readers r = some x) : (s.load r x).Good := by
  obtain ⟨marks, hseen, hout, hcount, hholds⟩ := h.readers r x hx
  unfold Threads.load
  split
  · next hnone =>
    refine ⟨h.current, h.writer, h.turn ?_, h.returned⟩
    rintro _ ⟨⟩
    have hlist := hholds (by simp [Read.finished, hnone])
    have hsame : min (s.lists x.list).count MaxMarks = marks.length := by
      rw [hlist.count, Nat.min_eq_left hlist.fits]
    refine ⟨marks, hseen, hout, ?_, fun _ => hlist⟩
    rintro _ ⟨⟩
    exact hsame
  next n hn =>
  obtain rfl := hcount n hn
  split
  · next hmore =>
    refine ⟨h.current, h.writer, h.turn ?_, h.returned⟩
    rintro _ ⟨⟩
    have hlist := hholds (by simp [Read.finished, hn, hmore.ne'])
    refine ⟨marks, hseen, ?_, hcount, fun _ => hlist⟩
    have hmark := hlist.marks _ hmore
    obtain ⟨rest, rfl⟩ := hout
    rw [getElem?_append_right le_rfl, Nat.sub_self] at hmark
    cases rest with
    | nil => cases hmark
    | cons mark rest =>
      obtain rfl := Option.some.inj hmark
      exact ⟨rest, append_assoc ..⟩
  next hall =>
  refine ⟨h.current, h.writer, h.turn nofun, fun y hy => ?_⟩
  rcases mem_append.mp hy with hy | hy
  · exact h.returned y hy
  obtain rfl := mem_singleton.mp hy
  rwa [hout.eq_of_length_le (Nat.not_lt.mp hall)]

theorem Good.step (h : s.Good) (a : Act) (hclear : s.Clear a) : (s.step a).Good := by
  cases a with
  | set_marks points =>
    simp only [Threads.step]
    split
    · exact h
    refine ⟨h.current, ?_, h.readers, h.returned⟩
    rintro _ ⟨⟩
    exact ⟨rfl, by simp, nofun, nofun⟩
  | store =>
    simp only [Threads.step]
    cases hw : s.writer with
    | none => exact h
    | some w => exact h.store hw hclear
  | read_marks r =>
    simp only [Threads.step]
    split
    · exact h
    refine ⟨h.current, h.writer, h.turn ?_, h.returned⟩
    rintro _ ⟨⟩
    exact ⟨s.current, mem_singleton_self _, nil_prefix, nofun, fun _ => h.current⟩
  | load r =>
    simp only [Threads.step]
    cases hx : s.readers r with
    | none => exact h
    | some x => exact h.load hx

/-- Every interleaving in which no store goes into a list that a reader has not finished. -/
theorem marks_are_read_whole (log : List Act) (h : Guarded step Clear {} log) :
    ∀ x ∈ (run step {} log).returned, x.1 ∈ x.2 := by
  have hgood : Good (run step {} log) := guarded_invariant (fun _ a hs hclear => hs.step a hclear) log
    ⟨⟨Nat.zero_le _, rfl, nofun⟩, nofun, fun _ => nofun, nofun⟩ h
  exact hgood.returned

/-- Two marks are published, and a reader reads them. -/
theorem two_marks_are_read :
    let s := run step {} [.set_marks [⟨1, 2⟩, ⟨3, 4⟩], .store, .store, .store, .store, .read_marks 7, .load 7, .load 7,
      .load 7, .load 7]
    s.returned ≠ [] ∧ ∀ x ∈ s.returned, x.1 ∈ x.2 :=
  ⟨by decide, marks_are_read_whole _ ⟨nofun, fun _ _ _ _ _ _ => nofun, fun _ _ _ _ _ _ => nofun,
    fun _ _ _ _ _ _ => nofun, fun _ _ _ _ _ _ => nofun, nofun, nofun, nofun, nofun, nofun, trivial⟩⟩

/-- A reader has read the first mark of a list when the writer comes back to that list, and reads the second mark after. -/
theorem a_slow_reader_mixes_two_lists : ¬ ∀ log, ∀ x ∈ (run step {} log).returned, x.1 ∈ x.2 := by
  intro h
  have hread := h [.set_marks [⟨1, 2⟩, ⟨3, 4⟩], .store, .store, .store, .store, .read_marks 7, .load 7, .load 7,
    .set_marks [], .store, .store, .set_marks [⟨5, 6⟩, ⟨7, 8⟩], .store, .store, .store, .store, .load 7, .load 7]
    ([0x10002, 0x70008], [[0x10002, 0x30004], [], [0x50006, 0x70008]]) (by decide)
  revert hread
  decide

end Threads

end taxi_camera.standalone.display_keep
