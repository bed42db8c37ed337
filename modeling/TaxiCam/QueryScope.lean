-- The queries that a recording holds open, and when extra work may be put
-- into it: the bounded array of the code is the set of open queries.
import TaxiCam.Runs
import Mathlib.Data.Finset.Card

namespace taxi_camera.standalone

open runs List

structure QueryKey where
  heap : UInt64
  type : UInt32
  index : UInt32
deriving DecidableEq

/-- `entries` are those below `count_`. -/
structure QueryScope where
  entries : List QueryKey := []
  known : Bool := false
deriving DecidableEq

namespace QueryScope

/-! ## The calls -/

def capacity : Nat := 64

def paired_type (type : UInt32) : Bool := type == 0 || type == 1 || (3 ≤ type && type ≤ 7) || type == 10

variable (s : QueryScope)

def reset (observed_success : Bool) : QueryScope := { entries := [], known := observed_success }

def invalidate : QueryScope := { s with known := false }

/-- ClearState resets graphics bindings, not an outstanding query. -/
def clear_state : QueryScope := s

def poison : Bool × QueryScope := (false, s.invalidate)

def begin_query (heap : UInt64) (type index : UInt32) : Bool × QueryScope :=
  if !s.known then (false, s)
  else if heap = 0 ∨ !paired_type type ∨ s.entries.length = capacity then s.poison
  else if s.entries.any fun e => e.heap == heap && e.index == index then s.poison
  else (true, { s with entries := s.entries ++ [⟨heap, type, index⟩] })

def end_query (heap : UInt64) (type index : UInt32) : Bool × QueryScope :=
  if !s.known then (false, s)
  else if heap = 0 then s.poison
  else if type = 2 then (true, s)
  else if !paired_type type then s.poison
  else
    let key : QueryKey := ⟨heap, type, index⟩
    match s.entries.idxOf? key with
    -- The last entry takes the place of the one that closes.
    | some i => (true, { s with entries := (s.entries.set i (s.entries.getLastD key)).dropLast })
    | none => s.poison

def retire (heap : UInt64) : QueryScope :=
  if s.entries.any fun e => e.heap == heap then s.invalidate else s

def known_empty : Bool := s.known && s.entries.isEmpty

def can_stamp : Bool := s.known_empty

inductive Op
  | reset (observed_success : Bool)
  | invalidate
  | clear_state
  | begin_query (heap : UInt64) (type index : UInt32)
  | end_query (heap : UInt64) (type index : UInt32)
  | retire (heap : UInt64)
deriving DecidableEq

def step : Op → QueryScope
  | .reset observed_success => reset observed_success
  | .invalidate => s.invalidate
  | .clear_state => s.clear_state
  | .begin_query heap type index => (s.begin_query heap type index).2
  | .end_query heap type index => (s.end_query heap type index).2
  | .retire heap => s.retire heap

/-! ## The open queries of a well formed recording -/

/-- What is open after an event. -/
def note (opened : Finset QueryKey) : Op → Finset QueryKey
  | .begin_query heap type index => Insert.insert ⟨heap, type, index⟩ opened
  | .end_query heap type index => opened.erase ⟨heap, type, index⟩
  | _ => opened

/-- What a recording without a reset may do next. -/
def Fine (opened : Finset QueryKey) : Op → Prop
  | .reset _ | .invalidate => False
  | .clear_state => True
  | .begin_query heap type index => heap ≠ 0 ∧ paired_type type = true ∧
      (∀ q ∈ opened, ¬(q.heap = heap ∧ q.index = index)) ∧ opened.card < capacity
  | .end_query heap type index => heap ≠ 0 ∧ (type = 2 ∨ ⟨heap, type, index⟩ ∈ opened)
  | .retire heap => ∀ q ∈ opened, q.heap ≠ heap

instance (opened : Finset QueryKey) : (op : Op) → Decidable (Fine opened op)
  | .reset _ | .invalidate => inferInstanceAs (Decidable False)
  | .clear_state => inferInstanceAs (Decidable True)
  | .begin_query _ _ _ | .end_query _ _ _ => inferInstanceAs (Decidable (_ ∧ _))
  | .retire heap => inferInstanceAs (Decidable (∀ q ∈ opened, q.heap ≠ heap))

/-! ## The array is the set -/

/-- Putting the last entry in the place of another one takes only that one away. -/
theorem swap_remove_perm {α : Type} {l : List α} {i : Nat} (hi : i < l.length) (d : α) :
    (l.set i (l.getLastD d)).dropLast.Perm (l.eraseIdx i) := by
  induction l using List.reverseRecOn with
  | nil => cases hi
  | append_singleton front last =>
    rw [getLastD_concat]
    by_cases hlast : i = front.length
    · subst hlast
      rw [set_append_right _ _ (Nat.le_refl _), eraseIdx_append_of_length_le (Nat.le_refl _), Nat.sub_self]
      simp
    have hfront : i < front.length := by
      rw [length_append, length_singleton] at hi
      omega
    rw [set_append_left _ _ hfront, dropLast_concat, eraseIdx_append_of_lt_length hfront,
      set_eq_take_append_cons_drop, if_pos hfront, eraseIdx_eq_take_drop_succ, append_assoc]
    exact (perm_append_singleton _ _).symm.append_left _

/-- The array holds each open query once. -/
structure Holds (s : QueryScope) (opened : Finset QueryKey) : Prop where
  known : s.known = true
  nodup : s.entries.Nodup
  entries : s.entries.toFinset = opened
  paired : ∀ q ∈ opened, paired_type q.type = true
  room : opened.card ≤ capacity

variable {s : QueryScope} {opened : Finset QueryKey} {op : Op}

theorem Holds.mem_entries (h : Holds s opened) {q : QueryKey} : q ∈ s.entries ↔ q ∈ opened := by
  rw [← h.entries, mem_toFinset]

theorem Holds.length_entries (h : Holds s opened) : s.entries.length = opened.card := by
  rw [← h.entries, toFinset_card_of_nodup h.nodup]

theorem Holds.can_stamp (h : Holds s opened) : s.can_stamp = true ↔ opened = ∅ := by
  rw [QueryScope.can_stamp, known_empty, h.known, Bool.true_and, List.isEmpty_iff, ← h.entries, toFinset_eq_empty_iff]

theorem Holds.any_entries (h : Holds s opened) (p : QueryKey → Bool) :
    s.entries.any p = true ↔ ∃ q ∈ opened, p q = true := by
  rw [any_eq_true]
  simp only [h.mem_entries]

variable {since : List Op} {index type : UInt32} {heap : UInt64}

theorem Holds.begin_query (h : Holds s opened) (hfine : Fine opened (.begin_query heap type index)) :
    Holds (s.begin_query heap type index).2 (Insert.insert ⟨heap, type, index⟩ opened) := by
  obtain ⟨hheap, hpaired, hfree, hroom⟩ := hfine
  have hany : (s.entries.any fun e => e.heap == heap && e.index == index) = false := by
    rw [← Bool.not_eq_true, h.any_entries]
    rintro ⟨q, hq, hsame⟩
    rw [Bool.and_eq_true, beq_iff_eq, beq_iff_eq] at hsame
    exact hfree q hq hsame
  have hfull : ¬s.entries.length = capacity := by
    rw [h.length_entries]
    exact Nat.ne_of_lt hroom
  have hnew : (⟨heap, type, index⟩ : QueryKey) ∉ s.entries := fun hmem =>
    hfree _ (h.mem_entries.mp hmem) ⟨rfl, rfl⟩
  rw [QueryScope.begin_query, h.known, hpaired, hany]
  simp only [Bool.not_true, Bool.false_eq_true, hheap, hfull, or_self, if_false]
  refine ⟨rfl, nodup_append.mpr ⟨h.nodup, nodup_singleton _, ?_⟩, ?_, ?_, (Finset.card_insert_le _ _).trans hroom⟩
  · rintro q hq _ hlast rfl
    rw [mem_singleton] at hlast
    exact hnew (hlast ▸ hq)
  · rw [toFinset_append, h.entries, toFinset_cons, toFinset_nil, Finset.union_comm]
    rfl
  · intro q hq
    rcases Finset.mem_insert.mp hq with rfl | hq
    · exact hpaired
    · exact h.paired q hq

theorem Holds.end_query (h : Holds s opened) (hfine : Fine opened (.end_query heap type index)) :
    Holds (s.end_query heap type index).2 (opened.erase ⟨heap, type, index⟩) := by
  obtain ⟨hheap, hopen⟩ := hfine
  rw [QueryScope.end_query, h.known]
  simp only [Bool.not_true, Bool.false_eq_true, hheap, if_false]
  by_cases htime : type = 2
  · rw [if_pos htime, Finset.erase_eq_of_notMem]
    · exact h
    · intro hmem
      have hpaired := h.paired _ hmem
      rw [htime] at hpaired
      cases hpaired
  have hmem := hopen.resolve_left htime
  have hpaired : paired_type type = true := h.paired _ hmem
  rw [if_neg htime, hpaired]
  simp only [Bool.not_true, Bool.false_eq_true, if_false]
  obtain ⟨i, hi⟩ := Option.isSome_iff_exists.mp (isSome_idxOf?.mpr (h.mem_entries.mpr hmem))
  rw [hi]
  obtain ⟨hlt, hat, -⟩ := List.idxOf?_eq_some_iff.mp hi
  have hperm := swap_remove_perm hlt (⟨heap, type, index⟩ : QueryKey)
  have herase : s.entries.eraseIdx i = s.entries.erase ⟨heap, type, index⟩ := by
    rw [← h.nodup.erase_getElem i hlt, hat]
  rw [herase] at hperm
  refine ⟨rfl, hperm.nodup_iff.mpr (h.nodup.erase _), ?_,
    fun q hq => h.paired q (Finset.mem_of_mem_erase hq), (Finset.card_erase_le).trans h.room⟩
  ext q
  rw [mem_toFinset, hperm.mem_iff, h.nodup.mem_erase_iff, h.mem_entries, Finset.mem_erase]

theorem Holds.any_heap (h : Holds s opened) (heap : UInt64) :
    (s.entries.any fun e => e.heap == heap) = false ↔ ∀ q ∈ opened, q.heap ≠ heap := by
  rw [← Bool.not_eq_true, h.any_entries]
  simp only [beq_iff_eq, not_exists, not_and, ne_eq]

theorem holds_reset : Holds (reset true) ∅ where
  known := rfl
  nodup := nodup_nil
  entries := rfl
  paired := fun _ hq => absurd hq (Finset.notMem_empty _)
  room := Nat.zero_le _

/-- A fine event is followed. -/
theorem Holds.step (h : Holds s opened) (hfine : Fine opened op) : Holds (s.step op) (note opened op) := by
  cases op with
  | reset observed_success => exact hfine.elim
  | invalidate => exact hfine.elim
  | clear_state => exact h
  | begin_query heap type index => exact h.begin_query hfine
  | end_query heap type index => exact h.end_query hfine
  | retire heap =>
    have hstep : s.step (.retire heap) = s := by
      rw [step, retire, (h.any_heap heap).mpr hfine]
      rfl
    rw [hstep]
    exact h

/-- Any other event makes the recording unknown. -/
theorem Holds.spoilt (h : Holds s opened) (hfine : ¬Fine opened op) (hreset : op ≠ .reset true) :
    (s.step op).known = false := by
  cases op with
  | reset observed_success =>
    cases observed_success with
    | false => rfl
    | true => exact absurd rfl hreset
  | invalidate => rfl
  | clear_state => exact absurd trivial hfine
  | begin_query heap type index =>
    rw [QueryScope.step, QueryScope.begin_query, h.known]
    simp only [Bool.not_true, Bool.false_eq_true, if_false]
    split
    · rfl
    rename_i hplain
    simp only [not_or, Bool.not_eq_true', Bool.not_eq_false] at hplain
    split
    · rfl
    rename_i hany
    refine absurd ⟨hplain.1, by simpa using hplain.2.1, fun q hq hsame => hany ?_, ?_⟩ hfine
    · rw [h.any_entries]
      exact ⟨q, hq, by rw [hsame.1, hsame.2]; simp⟩
    · rw [← h.length_entries]
      exact Nat.lt_of_le_of_ne (h.length_entries ▸ h.room) hplain.2.2
  | end_query heap type index =>
    rw [QueryScope.step, QueryScope.end_query, h.known]
    simp only [Bool.not_true, Bool.false_eq_true, if_false]
    split
    · rfl
    rename_i hheap
    split
    · rename_i htime
      exact absurd ⟨hheap, .inl htime⟩ hfine
    split
    · rfl
    have hnone : s.entries.idxOf? (⟨heap, type, index⟩ : QueryKey) = none := by
      rw [List.idxOf?_eq_none_iff, h.mem_entries]
      exact fun hmem => hfine ⟨hheap, .inr hmem⟩
    rw [hnone]
    rfl
  | retire heap =>
    have hany : (s.entries.any fun e => e.heap == heap) = true := by
      rw [← Bool.not_eq_false, h.any_heap]
      exact hfine
    rw [QueryScope.step, retire, hany]
    rfl

theorem unknown_step (h : s.known = false) (hreset : op ≠ .reset true) : (s.step op).known = false := by
  cases op with
  | reset observed_success =>
    cases observed_success with
    | false => rfl
    | true => exact absurd rfl hreset
  | invalidate => rfl
  | clear_state => exact h
  | begin_query heap type index =>
    rw [step, begin_query, h]
    exact h
  | end_query heap type index =>
    rw [step, end_query, h]
    exact h
  | retire heap =>
    rw [step, retire]
    split
    · rfl
    · exact h

/-! ## Recordings -/

/-- The events since a reset are well formed. -/
def WellFormed (since : List Op) : Prop := Guarded note Fine ∅ since

instance (since : List Op) : Decidable (WellFormed since) :=
  inferInstanceAs (Decidable (Guarded note Fine ∅ since))

/-- What they leave open. -/
def open_after (since : List Op) : Finset QueryKey := run note ∅ since

theorem holds_run (s : QueryScope) (h : WellFormed since) :
    Holds (run step s (.reset true :: since)) (open_after since) := by
  rw [run_cons]
  induction since using List.reverseRecOn with
  | nil => exact holds_reset
  | append_singleton since op ih =>
    obtain ⟨hbefore, hfine, -⟩ := (guarded_append _ _).mp h
    rw [open_after, run_snoc, run_snoc]
    exact (ih hbefore).step hfine

theorem unknown_run {ops : List Op} {s : QueryScope} (h : s.known = false) (hreset : .reset true ∉ ops) :
    (run step s ops).known = false := by
  induction ops generalizing s with
  | nil => exact h
  | cons op rest ih =>
    rw [mem_cons, not_or] at hreset
    rw [run_cons]
    exact ih (unknown_step h (Ne.symm hreset.1)) hreset.2

/-- After the first event that breaks the form, the recording is unknown. -/
theorem spoilt_run (s : QueryScope) (h : ¬WellFormed since) (hreset : .reset true ∉ since) :
    (run step s (.reset true :: since)).known = false := by
  induction since using List.reverseRecOn with
  | nil => exact absurd trivial h
  | append_singleton since op ih =>
    rw [mem_append, not_or, mem_singleton] at hreset
    rw [← cons_append, run_snoc]
    by_cases hbefore : WellFormed since
    · refine (holds_run s hbefore).spoilt (fun hfine => h ?_) (Ne.symm hreset.2)
      exact (guarded_append _ _).mpr ⟨hbefore, hfine, trivial⟩
    · exact unknown_step (ih hbefore hreset.1) (Ne.symm hreset.2)

theorem stamp_known (h : s.can_stamp = true) : s.known = true := by
  rw [can_stamp, known_empty, Bool.and_eq_true] at h
  exact h.1

/-- Every recording with a successful reset has a last one. -/
theorem last_reset (ops : List Op) : .reset true ∉ ops ∨
    ∃ earlier since, ops = earlier ++ .reset true :: since ∧ .reset true ∉ since := by
  induction ops with
  | nil => exact .inl not_mem_nil
  | cons op rest ih =>
    rcases ih with hnone | ⟨earlier, since, rfl, hnone⟩
    · by_cases hop : op = .reset true
      · exact .inr ⟨[], rest, by rw [hop]; rfl, hnone⟩
      · exact .inl fun hmem => (mem_cons.mp hmem).elim (fun h => hop h.symm) hnone
    · exact .inr ⟨op :: earlier, since, rfl, hnone⟩

/-- Extra work is let in exactly while the events since an observed successful reset are well formed and
leave no query open; after the first other event, nothing is until the next such reset. -/
theorem stamps_follow_the_open_queries (ops : List Op) :
    ((run step {} ops).can_stamp = true ↔ ∃ earlier since, ops = earlier ++ .reset true :: since ∧
      WellFormed since ∧ open_after since = ∅) ∧
    ∀ earlier since later, ops = earlier ++ .reset true :: since ++ later → ¬WellFormed since →
      .reset true ∉ since → .reset true ∉ later → (run step {} ops).can_stamp = false := by
  refine ⟨⟨fun hstamp => ?_, ?_⟩, ?_⟩
  · rcases last_reset ops with hnone | ⟨earlier, since, rfl, hnone⟩
    · have hunknown := unknown_run (s := {}) rfl hnone
      rw [stamp_known hstamp] at hunknown
      cases hunknown
    rw [run_append] at hstamp
    have hform : WellFormed since := by
      by_contra hform
      have hunknown := spoilt_run (run step {} earlier) hform hnone
      rw [stamp_known hstamp] at hunknown
      cases hunknown
    exact ⟨earlier, since, rfl, hform, (holds_run _ hform).can_stamp.mp hstamp⟩
  · rintro ⟨earlier, since, rfl, hform, hempty⟩
    rw [run_append]
    exact (holds_run _ hform).can_stamp.mpr hempty
  · rintro earlier since later rfl hform hsince hlater
    rw [run_append, run_append, ← Bool.not_eq_true]
    intro hstamp
    have hunknown := unknown_run (spoilt_run (run step {} earlier) hform hsince) hlater
    rw [stamp_known hstamp] at hunknown
    cases hunknown

/-- A timestamp inside of an occlusion query, and an end without a beginning. -/
theorem stamps_around_a_query :
    (run step {} [.reset true, .begin_query 1 0 5, .end_query 1 2 6, .end_query 1 0 5]).can_stamp = true ∧
      (run step {} [.reset true, .end_query 1 0 5, .begin_query 1 0 5, .end_query 1 0 5]).can_stamp = false :=
  ⟨(stamps_follow_the_open_queries _).1.mpr ⟨[], [.begin_query 1 0 5, .end_query 1 2 6, .end_query 1 0 5], rfl,
      by decide, by decide⟩,
    (stamps_follow_the_open_queries _).2 [] [.end_query 1 0 5] [.begin_query 1 0 5, .end_query 1 0 5] rfl
      (by decide) (by decide) (by decide)⟩

end QueryScope
end taxi_camera.standalone
