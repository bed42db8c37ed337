-- What a complete recording says of a display that it named: the states that
-- its first and last reports give, and whether one of them can write it.
import Mathlib.Data.List.Induction
import TaxiCam.SubmissionSilence

namespace taxi_camera.standalone

open PfdSubmissionProof ResourceStates List
open Ledgers (step)

/-! ## What the reports of a recording say of a display -/

namespace PfdSubmissionProof.Report

/-- The state that a report finds the display in. A report with no such state does not name it. -/
def claims (key : Key) : Report → Option ResourceStates
  | .observe_legacy k before _ _ _ => if k = key then some before else none
  | .note_render_target_write k _ => if k = key then some RENDER_TARGET else none
  | .note_unordered_access_write k _ => if k = key then some UNORDERED_ACCESS else none
  | _ => none

/-- The state that a transition takes the display to. -/
def leaves (key : Key) : Report → Option ResourceStates
  | .observe_legacy k _ after _ _ => if k = key then some after else none
  | _ => none

/-- Work that can write every display in the state `state`: what may draw writes COMMON, which it
promotes, and compute writes COMMON and UNORDERED_ACCESS. -/
def works_on (state : ResourceStates) : Report → Bool
  | .gpu_work _ may => may && state == COMMON
  | .begin_pass _ _ | .note_render_target_write _ _ => state == COMMON
  | .compute_work _ | .note_unordered_access_write _ _ =>
    state == COMMON || state &&& UNORDERED_ACCESS != 0#32
  | .end_pass | .observe_legacy _ _ _ _ _ => false

/-- A write of the display itself: a transition to a state to write in, and a noted write, unless
the display is known to be in another state than the noted one. -/
def WritesItself (key : Key) (state : Option ResourceStates) (r : Report) : Prop :=
  (∃ after, r.leaves key = some after ∧ writable_gpu_state after = true) ∨
    (r.leaves key = none ∧ ∃ noted, r.claims key = some noted ∧ (state = none ∨ state = some noted))

/-- A report that can write the display, which is known to be in `state`. -/
def WritesAt (key : Key) (state : Option ResourceStates) (r : Report) : Prop :=
  (∃ s, state = some s ∧ r.works_on s = true) ∨ r.WritesItself key state

end PfdSubmissionProof.Report

/-- The state that the first report to name the display found it in. -/
def first_state (reports : List Report) (key : Key) : Option ResourceStates :=
  reports.findSome? (Report.claims key)

/-- The state that the last transition took the display to, and before any the one it was first
found in. -/
def last_state (reports : List Report) (key : Key) : Option ResourceStates :=
  (reports.reverse.findSome? (Report.leaves key)).or (first_state reports key)

def Written (reports : List Report) (key : Key) : Prop :=
  ∃ earlier r later, reports = earlier ++ r :: later ∧ r.WritesAt key (last_state earlier key)

theorem first_state_snoc (reports : List Report) (r : Report) (key : Key) :
    first_state (reports ++ [r]) key = (first_state reports key).or (r.claims key) := by
  unfold first_state
  rw [List.findSome?_append, List.findSome?_singleton]

theorem last_state_snoc (reports : List Report) (r : Report) (key : Key) :
    last_state (reports ++ [r]) key = (r.leaves key).or ((last_state reports key).or (r.claims key)) := by
  unfold last_state
  rw [first_state_snoc, reverse_append, reverse_singleton, List.findSome?_append,
    List.findSome?_singleton, Option.or_assoc, Option.or_assoc]

theorem written_snoc (reports : List Report) (r : Report) (key : Key) :
    Written (reports ++ [r]) key ↔ Written reports key ∨ r.WritesAt key (last_state reports key) := by
  constructor
  · rintro ⟨earlier, x, later, hsplit, hx⟩
    rcases eq_nil_or_concat later with rfl | ⟨rest, y, rfl⟩
    · obtain ⟨rfl, hxr⟩ := append_inj' hsplit rfl
      cases hxr
      exact .inr hx
    rw [concat_eq_append, ← cons_append, ← append_assoc] at hsplit
    obtain ⟨rfl, -⟩ := append_inj' hsplit rfl
    exact .inl ⟨earlier, x, rest, rfl, hx⟩
  · rintro (⟨earlier, x, later, rfl, hx⟩ | hr)
    · exact ⟨earlier, x, later ++ [r], by rw [append_assoc]; rfl, hx⟩
    · exact ⟨reports, r, [], rfl, hr⟩

/-! ## The invariant of one recording -/

structure SlotRecords (first last : Key → Option ResourceStates) (written : Key → Prop)
    (s : Slot) : Prop where
  seen : s.seen = true
  named : s.key.named = true
  first : first s.key = some s.first_before
  last : last s.key = some s.after
  wrote : s.wrote = true ↔ written s.key

/-- Every slot says what the reports said of its display, and every display that a report named
has a slot. -/
structure Records (first last : Key → Option ResourceStates) (written : Key → Prop)
    (slots : List Slot) : Prop where
  slot : ∀ s ∈ slots, SlotRecords first last written s
  one : (slots.map (·.key.resource)).Nodup
  named : ∀ key, key.named = true → (first key).isSome = true → ∃ s ∈ slots, s.key = key
  blank : ∀ key, key.named = true → first key = none → last key = none ∧ ¬ written key

section
variable {first last first' last' : Key → Option ResourceStates} {written written' : Key → Prop}
  {slots : List Slot}

theorem SlotRecords.of_same {s : Slot} (h : SlotRecords first last written s)
    (hf : first' s.key = first s.key) (hl : last' s.key = last s.key)
    (hw : written' s.key ↔ written s.key) : SlotRecords first' last' written' s :=
  ⟨h.seen, h.named, hf.trans h.first, hl.trans h.last, h.wrote.trans hw.symm⟩

/-- What no display with a name has changed. -/
theorem Records.of_same (h : Records first last written slots)
    (hsame : ∀ key, key.named = true → first' key = first key ∧ last' key = last key ∧ (written' key ↔ written key)) :
    Records first' last' written' slots := by
  refine ⟨?_, h.one, ?_, ?_⟩
  · intro s hs
    obtain ⟨hf, hl, hw⟩ := hsame s.key (h.slot s hs).named
    exact (h.slot s hs).of_same hf hl hw
  · intro key hkey hsome
    rw [(hsame key hkey).1] at hsome
    exact h.named key hkey hsome
  · intro key hkey hnone
    obtain ⟨hf, hl, hw⟩ := hsame key hkey
    rw [hf] at hnone
    rw [hl, hw]
    exact h.blank key hkey hnone

theorem Records.keys (h : Records first last written slots) : (slots.map Slot.key).Nodup := by
  have hone := h.one
  rw [← Function.comp_def Key.resource Slot.key, ← map_map] at hone
  exact hone.of_map

variable {key : Key} {f : Slot → Slot}

/-- A display with no slot was not named. -/
theorem Records.unnamed (h : Records first last written slots)
    (hkey : key.named = true) (hno : ∀ s ∈ slots, s.key ≠ key) :
    first key = none ∧ last key = none ∧ ¬ written key := by
  have hnone : first key = none := by
    by_contra hsome
    obtain ⟨s, hs, he⟩ := h.named key hkey (Option.isSome_iff_ne_none.mpr hsome)
    exact hno s hs he
  exact ⟨hnone, h.blank key hkey hnone⟩

/-- Work that may write the displays in some states. -/
theorem records_work {on : ResourceStates → Bool}
    (h : Records first last written slots) (hkey : ∀ s, (f s).key = s.key)
    (hseen : ∀ s, (f s).seen = s.seen) (hfirst : ∀ s, (f s).first_before = s.first_before)
    (hafter : ∀ s, (f s).after = s.after)
    (hwrote : ∀ s, s.seen = true → (f s).wrote = (s.wrote || on s.after)) :
    Records first last (fun k => written k ∨ ∃ state, last k = some state ∧ on state = true) (slots.map f) := by
  refine ⟨?_, ?_, ?_, ?_⟩
  · intro t ht
    obtain ⟨s, hs, rfl⟩ := mem_map.mp ht
    have hold := h.slot s hs
    refine ⟨by rw [hseen, hold.seen], by rw [hkey, hold.named], by rw [hkey, hfirst, hold.first],
      by rw [hkey, hafter, hold.last], ?_⟩
    rw [hwrote s hold.seen, Bool.or_eq_true, hold.wrote, hkey, hold.last]
    simp
  · have hkeys : (slots.map f).map (·.key.resource) = slots.map (·.key.resource) := by
      rw [map_map]
      exact map_congr_left fun s _ => by simp [hkey]
    rw [hkeys]
    exact h.one
  · intro key hnamed hsome
    obtain ⟨s, hs, rfl⟩ := h.named key hnamed hsome
    exact ⟨f s, mem_map_of_mem hs, hkey s⟩
  · intro key hnamed hnone
    obtain ⟨hl, hw⟩ := h.blank key hnamed hnone
    refine ⟨hl, ?_⟩
    rintro (hold | ⟨state, hstate, -⟩)
    · exact hw hold
    · rw [hl] at hstate
      exact Option.some_ne_none state hstate.symm

/-- The other displays of a report that is about `key`. -/
def Elsewhere (first last first' last' : Key → Option ResourceStates) (written written' : Key → Prop)
    (key : Key) : Prop :=
  ∀ k, k ≠ key → first' k = first k ∧ last' k = last k ∧ (written' k ↔ written k)

/-- A report about a display that has a slot. -/
theorem records_modify {s : Slot} (h : Records first last written slots) (hs : s ∈ slots) (hkey : s.key = key)
    (hf : ∀ t, (f t).key = t.key) (hnew : SlotRecords first' last' written' (f s))
    (hoff : Elsewhere first last first' last' written written' key) :
    Records first' last' written' (keyed.modify Slot.key key f slots) := by
  have hself : f s ∈ keyed.modify Slot.key key f slots := keyed.mem_modify_self h.keys hs hkey
  refine ⟨?_, ?_, ?_, ?_⟩
  · intro t ht
    rcases keyed.mem_modify h.keys ht with ⟨hm, hne⟩ | ⟨x, hx, hxk, rfl⟩
    · obtain ⟨hf', hl', hw'⟩ := hoff t.key hne
      exact (h.slot t hm).of_same hf' hl' hw'
    have : x = s := inj_on_of_nodup_map h.keys hx hs (hxk.trans hkey.symm)
    exact this ▸ hnew
  · have hone := h.one
    rw [← Function.comp_def Key.resource Slot.key, ← map_map] at hone ⊢
    rwa [keyed.map_key_modify hf slots]
  · intro k hnamed hsome
    by_cases he : k = key
    · exact ⟨f s, hself, by rw [hf, hkey, he]⟩
    rw [(hoff k he).1] at hsome
    obtain ⟨t, ht, rfl⟩ := h.named k hnamed hsome
    exact ⟨t, keyed.mem_modify_of_ne ht he, rfl⟩
  · intro k hnamed hnone
    by_cases he : k = key
    · have hfirst := hnew.first
      rw [hf, hkey, ← he, hnone] at hfirst
      exact absurd hfirst.symm (Option.some_ne_none _)
    obtain ⟨hf', hl', hw'⟩ := hoff k he
    rw [hf'] at hnone
    rw [hl', hw']
    exact h.blank k hnamed hnone

/-- A report about a display that has no slot yet. -/
theorem records_append {t : Slot} (h : Records first last written slots)
    (hfresh : ∀ s ∈ slots, s.key.resource ≠ t.key.resource)
    (hnew : SlotRecords first' last' written' t)
    (hoff : Elsewhere first last first' last' written written' t.key) :
    Records first' last' written' (slots ++ [t]) := by
  have hne : ∀ s ∈ slots, s.key ≠ t.key := fun s hs he => hfresh s hs (by rw [he])
  refine ⟨?_, ?_, ?_, ?_⟩
  · intro s hs
    rcases mem_append.mp hs with hs | hs
    · obtain ⟨hf', hl', hw'⟩ := hoff s.key (hne s hs)
      exact (h.slot s hs).of_same hf' hl' hw'
    rw [mem_singleton.mp hs]
    exact hnew
  · rw [map_append, nodup_append]
    refine ⟨h.one, nodup_singleton _, ?_⟩
    intro a ha b hb hab
    obtain ⟨s, hs, rfl⟩ := mem_map.mp ha
    rw [map_singleton, mem_singleton] at hb
    exact hfresh s hs (hab.trans hb)
  · intro k hnamed hsome
    by_cases he : k = t.key
    · exact ⟨t, mem_append_right _ (mem_singleton_self t), he.symm⟩
    rw [(hoff k he).1] at hsome
    obtain ⟨s, hs, rfl⟩ := h.named k hnamed hsome
    exact ⟨s, mem_append_left _ hs, rfl⟩
  · intro k hnamed hnone
    by_cases he : k = t.key
    · have hfirst := hnew.first
      rw [← he, hnone] at hfirst
      exact absurd hfirst.symm (Option.some_ne_none _)
    obtain ⟨hf', hl', hw'⟩ := hoff k he
    rw [hf'] at hnone
    rw [hl', hw']
    exact h.blank k hnamed hnone

end

/-! ## One report -/

section
variable {first last : Key → Option ResourceStates} {written : Key → Prop}
  {p : PfdSubmissionProof}

theorem records_gpu_work (operation : Nat) (may : Bool) (h : p.known = true → Records first last written p.slots)
    (hk : (p.gpu_work operation may).known = true) :
    Records first last (fun k => written k ∨ ∃ state, last k = some state ∧ (may && state == COMMON) = true)
      (p.gpu_work operation may).slots := by
  unfold gpu_work at hk ⊢
  split at hk
  · cases hk
  rename_i hopen
  rw [if_neg hopen]
  cases may with
  | false =>
    refine (h hk).of_same fun key _ => ⟨rfl, rfl, ?_⟩
    simp
  | true =>
    have hwork (s : Slot) := promoted_refreshes operation s
    apply records_work (h hk) (fun s => (hwork s).key) (fun s => (hwork s).seen)
      (fun s => (hwork s).first) (fun s => (hwork s).after)
    intro s hs
    unfold promoted
    simp only [hs, Bool.true_and]
    split
    · rename_i hcommon
      rw [hcommon, Bool.or_true]
      split <;> rfl
    rename_i hcommon
    rw [Bool.not_eq_true] at hcommon
    rw [hcommon, Bool.or_false]

theorem records_compute_work (operation : Nat) (h : p.known = true → Records first last written p.slots)
    (hk : (p.compute_work operation).known = true) :
    Records first last
      (fun k => written k ∨ ∃ state, last k = some state ∧
        (state == COMMON || state &&& UNORDERED_ACCESS != 0#32) = true)
      (p.compute_work operation).slots := by
  have hgpu := records_gpu_work operation false h
  unfold compute_work state_disjoint_work at hk ⊢
  generalize p.gpu_work operation false = q at hk hgpu ⊢
  dsimp only at hk ⊢
  split at hk
  · cases hk
  rename_i hopen
  rw [if_neg hopen]
  have hq : Records first last written q.slots := (hgpu hk).of_same fun key _ => ⟨rfl, rfl, by simp⟩
  have hwork (s : Slot) := computed_refreshes operation s
  apply records_work hq (fun s => (hwork s).key) (fun s => (hwork s).seen)
    (fun s => (hwork s).first) (fun s => (hwork s).after)
  intro s hs
  unfold computed unordered
  simp only [hs, Bool.true_and]
  split
  · rename_i hon
    rw [hon, Bool.or_true]
  rename_i hon
  rw [Bool.not_eq_true] at hon
  rw [hon, Bool.or_false]

/-- A noted write, at the slot of its display or at a new one. -/
theorem records_note_carried_write (key : Key) (state : ResourceStates) (operation : Nat)
    (h : p.known = true → Records first last written p.slots)
    (hk : (p.note_carried_write key state operation).known = true) :
    Records (fun k => (first k).or (if key = k then some state else none))
      (fun k => (last k).or (if key = k then some state else none))
      (fun k => written k ∨ (key = k ∧ (last k = none ∨ last k = some state)))
      (p.note_carried_write key state operation).slots := by
  have hoff : Elsewhere first last (fun k => (first k).or (if key = k then some state else none))
      (fun k => (last k).or (if key = k then some state else none)) written
      (fun k => written k ∨ (key = k ∧ (last k = none ∨ last k = some state))) key := by
    intro k hne
    simp [hne.symm]
  unfold note_carried_write at hk ⊢
  split at hk
  · cases hk
  rename_i hopen
  rw [if_neg hopen]
  split at hk
  · rename_i hunnamed
    rw [if_pos hunnamed]
    refine (h hk).of_same fun k hnamed => hoff k ?_
    rintro rfl
    simp [hnamed] at hunnamed
  rename_i hnamed
  rw [if_neg hnamed]
  rw [Bool.not_eq_true', Bool.not_eq_false] at hnamed
  split at hk
  · rename_i slot hslot
    have hmem : slot ∈ p.slots := mem_of_find?_eq_some hslot
    split at hk
    · cases hk
    rename_i hown
    simp only [if_neg hown]
    rw [bne_iff_ne, not_not] at hown
    split at hk
    · rename_i hskip
      rw [if_pos hskip]
      have hs := (h hk).slot slot hmem
      -- the display is in another state, so the note leaves the slot as it is
      refine (h hk).of_same fun k _ => ?_
      by_cases hkey : key = k
      · subst hkey
        rw [← hown, hs.first, hs.last]
        simp only [Bool.and_eq_true, bne_iff_ne] at hskip
        simp [hskip.2]
      · exact hoff k (Ne.symm hkey)
    rename_i hskip
    rw [if_neg hskip]
    have hs := (h hk).slot slot hmem
    rw [hs.seen, Bool.true_and, bne_iff_ne, not_not] at hskip
    have hcarry := carried_refreshes hs.seen state operation
    apply records_modify (h hk) hmem hown (fun t => carried_key t state operation) _ hoff
    refine ⟨hcarry.seen.trans hs.seen, ?_, ?_, ?_, ?_⟩
    · rw [hcarry.key, hs.named]
    · rw [hcarry.key, hcarry.first, hs.first]
      rfl
    · rw [hcarry.key, hcarry.after, hs.last]
      rfl
    · rw [hcarry.key, hs.last, hown, hskip]
      simp
  · rename_i hnone
    split at hk
    · cases hk
    rename_i hfull
    simp only [if_neg hfull]
    have hfresh := holder_none hnone
    obtain ⟨hf, hl, hw⟩ := (h hk).unnamed hnamed fun s hs he => hfresh s hs (by rw [he])
    exact records_append (h hk) hfresh
      ⟨rfl, hnamed, by simp [carried, hf], by simp [carried, hl], by simp [carried, hl]⟩ hoff

/-- A transition that the ledger accepts, at the slot of its display or at a new one. -/
theorem records_observe_legacy (key : Key) (before after : ResourceStates)
    (subresource flags : Nat) (h : p.known = true → Records first last written p.slots)
    (hk : (p.observe_legacy key before after subresource flags).known = true) :
    Records (fun k => (first k).or (if key = k then some before else none))
      (fun k => if key = k then some after else last k)
      (fun k => written k ∨ (key = k ∧ writable_gpu_state after = true))
      (p.observe_legacy key before after subresource flags).slots := by
  have hoff : Elsewhere first last (fun k => (first k).or (if key = k then some before else none))
      (fun k => if key = k then some after else last k) written
      (fun k => written k ∨ (key = k ∧ writable_gpu_state after = true)) key := by
    intro k hne
    simp [hne.symm]
  unfold observe_legacy at hk ⊢
  split at hk
  · cases hk
  rename_i hopen
  rw [if_neg hopen]
  split at hk
  · cases hk
  rename_i hgood
  rw [if_neg hgood]
  have hnamed : key.named = true := by
    by_contra hno
    simp [hno] at hgood
  split at hk
  · rename_i slot hslot
    have hmem : slot ∈ p.slots := mem_of_find?_eq_some hslot
    split at hk
    · cases hk
    rename_i hown
    simp only [if_neg hown]
    rw [bne_iff_ne, not_not] at hown
    split at hk
    · cases hk
    rename_i hchain
    rw [if_neg hchain]
    have hs := (h hk).slot slot hmem
    refine records_modify (h hk) hmem hown ?_ ⟨rfl, hs.named, ?_, ?_, ?_⟩ hoff
    · exact fun t => rfl
    · change (first slot.key).or _ = some slot.first_before
      rw [hs.first]
      rfl
    · change (if key = slot.key then some after else last slot.key) = some after
      rw [if_pos hown.symm]
    · change (writable_gpu_state after || slot.wrote) = true ↔
        written slot.key ∨ (key = slot.key ∧ writable_gpu_state after = true)
      rw [Bool.or_eq_true, hs.wrote, or_comm]
      simp [hown]
  rename_i hnone
  split at hk
  · rename_i hroom
    simp only [if_pos hroom]
    have hfresh := holder_none hnone
    obtain ⟨hf, hl, hw⟩ := (h hk).unnamed hnamed fun s hs he => hfresh s hs (by rw [he])
    refine records_append (h hk) hfresh ⟨rfl, hnamed, ?_, ?_, ?_⟩ hoff
    · simp [transition, hf]
    · simp [transition]
    · simp [transition, hw]
  · cases hk

end

/-- A ledger that still knows its recording says what the reports said. -/
def Recorded (reports : List Report) (p : PfdSubmissionProof) : Prop :=
  p.known = true →
    Records (first_state reports) (last_state reports) (Written reports) p.slots

section
variable {p : PfdSubmissionProof} {reports : List Report}
variable {slots : List Slot} {r : Report} {on : ResourceStates → Bool}

/-- The states and the writes after one more report, which names no display. -/
theorem Records.snoc_work (h : Records (first_state reports) (last_state reports)
      (fun k => Written reports k ∨ ∃ state, last_state reports k = some state ∧ on state = true)
      slots)
    (hclaims : ∀ k, r.claims k = none) (hleaves : ∀ k, r.leaves k = none)
    (hon : ∀ state, r.works_on state = on state) :
    Records (first_state (reports ++ [r])) (last_state (reports ++ [r])) (Written (reports ++ [r])) slots := by
  refine h.of_same fun key _ => ⟨?_, ?_, ?_⟩
  · rw [first_state_snoc, hclaims, Option.or_none]
  · rw [last_state_snoc, hclaims, hleaves, Option.or_none, Option.none_or]
  · rw [written_snoc, Report.WritesAt, Report.WritesItself, hclaims, hleaves]
    simp [hon]

theorem Records.snoc_note {noted : Key} {state : ResourceStates}
    (h : Records (fun k => (first_state reports k).or (if noted = k then some state else none))
      (fun k => (last_state reports k).or (if noted = k then some state else none))
      (fun k => (Written reports k ∨ ∃ s, last_state reports k = some s ∧ on s = true) ∨
        (noted = k ∧ (last_state reports k = none ∨ last_state reports k = some state))) slots)
    (hclaims : ∀ k, r.claims k = if noted = k then some state else none)
    (hleaves : ∀ k, r.leaves k = none) (hon : ∀ s, r.works_on s = on s) :
    Records (first_state (reports ++ [r])) (last_state (reports ++ [r])) (Written (reports ++ [r])) slots := by
  refine h.of_same fun key _ => ⟨?_, ?_, ?_⟩
  · rw [first_state_snoc, hclaims]
  · rw [last_state_snoc, hclaims, hleaves, Option.none_or]
  · rw [written_snoc, Report.WritesAt, Report.WritesItself, hclaims, hleaves]
    by_cases hkey : noted = key
    · simp [hon, hkey, or_assoc]
    · simp [hon, hkey]

/-- A report keeps the invariant. -/
theorem recorded_report (r : Report) (h : Recorded reports p) : Recorded (reports ++ [r]) (p.report r) := by
  intro hk
  cases r with
  | gpu_work operation may =>
    exact (records_gpu_work operation may h hk).snoc_work (fun _ => rfl) (fun _ => rfl) fun _ => rfl
  | begin_pass flags ordinary =>
    simp only [report, begin_pass] at hk ⊢
    split at hk
    · cases hk
    rename_i hopen
    rw [if_neg hopen]
    split at hk
    · cases hk
    rename_i hgood
    rw [if_neg hgood]
    refine Records.snoc_work (records_gpu_work 68 true h hk) (fun _ => rfl) (fun _ => rfl) ?_
    intro state
    rw [Bool.true_and]
    rfl
  | end_pass =>
    simp only [report, end_pass] at hk ⊢
    split at hk
    · cases hk
    rename_i hopen
    rw [if_neg hopen]
    split at hk
    · cases hk
    rename_i hpass
    rw [if_neg hpass]
    have hsame : Records (first_state reports) (last_state reports)
        (fun k => Written reports k ∨ ∃ s, last_state reports k = some s ∧ false = true)
        p.slots := (h hk).of_same fun key _ => ⟨rfl, rfl, by simp⟩
    exact hsame.snoc_work (fun _ => rfl) (fun _ => rfl) fun _ => rfl
  | observe_legacy key before after subresource flags =>
    refine (records_observe_legacy key before after subresource flags h hk).of_same ?_
    intro k _
    refine ⟨?_, ?_, ?_⟩
    · rw [first_state_snoc]
      rfl
    · rw [last_state_snoc, Report.leaves, Report.claims]
      by_cases hkey : key = k <;> simp [hkey]
    · rw [written_snoc, Report.WritesAt, Report.WritesItself, Report.leaves, Report.claims]
      by_cases hkey : key = k <;> simp [hkey, Report.works_on]
  | compute_work operation =>
    exact (records_compute_work operation h hk).snoc_work (fun _ => rfl) (fun _ => rfl) fun _ => rfl
  | note_render_target_write key operation =>
    refine (records_note_carried_write key RENDER_TARGET operation
      (records_gpu_work operation true h) hk).snoc_note (fun _ => rfl) (fun _ => rfl) ?_
    intro state
    rw [Bool.true_and]
    rfl
  | note_unordered_access_write key operation =>
    exact (records_note_carried_write key UNORDERED_ACCESS operation
      (records_compute_work operation h) hk).snoc_note (fun _ => rfl) (fun _ => rfl) fun _ => rfl

end

/-! ## A run of events -/

/-- The reports since the last reset. -/
def since_reset (events : List LedgerEvent) : List Report :=
  events.foldl (fun reports event =>
    match event with
    | .reset _ _ => []
    | .report r => reports ++ [r]
    | .invalidate _ | .close _ _ => reports) []

variable {p : PfdSubmissionProof}

theorem recorded_event {events : List LedgerEvent} (event : LedgerEvent) (h : Recorded (since_reset events) p) :
    Recorded (since_reset (events ++ [event])) (event.apply p) := by
  unfold since_reset at h ⊢
  rw [foldl_append, foldl_cons, foldl_nil]
  cases event with
  | reset generation observed =>
    exact fun _ => ⟨nofun, nodup_nil, nofun, fun _ _ _ => ⟨rfl, by
      rintro ⟨earlier, r, later, hsplit, -⟩
      simp at hsplit⟩⟩
  | invalidate reason => exact fun hk => absurd hk Bool.false_ne_true
  | close generation succeeded =>
    intro hk
    simp only [LedgerEvent.apply, close] at hk ⊢
    split at hk
    · cases hk
    rename_i hgood
    rw [if_neg hgood]
    exact h hk
  | report r => exact recorded_report r h

/-- The run lemma: after any events on a fresh ledger. -/
theorem recorded_run (events : List LedgerEvent) :
    Recorded (since_reset events) (runs.run LedgerEvent.apply {} events) := by
  induction events using List.reverseRecOn with
  | nil => exact fun hk => absurd hk Bool.false_ne_true
  | append_singleton events event ih =>
    rw [runs.run_snoc]
    exact recorded_event event ih

/-- The events on ledger `i`. -/
def events_on (i : Nat) (calls : List (Nat × LedgerEvent)) : List LedgerEvent :=
  calls.filterMap (fun call => if call.1 = i then some call.2 else none)

/-- A ledger sees the events on it, and no other. -/
theorem run_ledger (i : Nat) (ledgers : Ledgers) (calls : List (Nat × LedgerEvent)) :
    runs.run step ledgers calls i = runs.run LedgerEvent.apply (ledgers i) (events_on i calls) := by
  induction calls generalizing ledgers with
  | nil => rfl
  | cons call rest ih =>
    rw [runs.run_cons, ih]
    unfold events_on step
    by_cases hi : call.1 = i
    · rw [filterMap_cons_some (b := call.2) (by rw [if_pos hi]), runs.run_cons, ← hi, Function.update_self]
    · rw [filterMap_cons_none (by rw [if_neg hi]), Function.update_of_ne (Ne.symm hi)]

/-! ## The law -/

/-- What a complete recording says of a display: one slot, which is seen and has its first and
last state and whether a report wrote it, so that no question takes it for untouched. -/
structure Touched (reports : List Report) (p : PfdSubmissionProof) (generation : Nat) (key : Key) :
    Prop where
  slot : ∃ s ∈ p.slots, s.key = key ∧ s.seen = true ∧
    first_state reports key = some s.first_before ∧ last_state reports key = some s.after ∧
    (s.wrote = true ↔ Written reports key) ∧ ∀ t ∈ p.slots, t.key = key → t = s
  mentions : p.mentions key generation = true
  overwrote : p.overwrote key generation = true ↔ Written reports key
  carried : ∀ batch : List Recording, ⟨p, generation⟩ ∈ batch → ∀ state,
    carried_overlay batch key state = {}

theorem touched_of_records {reports : List Report} {generation : Nat}
    {key : Key} (h : Records (first_state reports) (last_state reports) (Written reports) p.slots)
    (hc : p.complete generation = true) (hkey : key.named = true)
    (hclaim : ∃ r ∈ reports, (r.claims key).isSome = true) : Touched reports p generation key := by
  have hfirst : (first_state reports key).isSome = true := by
    obtain ⟨r, hr, hsome⟩ := hclaim
    exact List.findSome?_isSome_iff.mpr ⟨r, hr, hsome⟩
  obtain ⟨s, hs, hown⟩ := h.named key hkey hfirst
  have hslot := h.slot s hs
  have hone (t : Slot) (ht : t ∈ p.slots) (he : t.key = key) : t = s :=
    inj_on_of_nodup_map h.keys ht hs (he.trans hown.symm)
  have hresource : key.resource ≠ 0 := by
    intro hzero
    simp [Key.named, hzero] at hkey
  have hmentions : p.mentions key generation = true := by
    unfold mentions
    rw [if_neg (by simp [hc, hresource]), any_eq_true]
    exact ⟨s, hs, by simp [hslot.seen, hown]⟩
  refine ⟨⟨s, hs, hown, hslot.seen, ?_, ?_, ?_, hone⟩, hmentions, ?_, ?_⟩
  · rw [← hown, hslot.first]
  · rw [← hown, hslot.last]
  · rw [← hown, hslot.wrote]
  · unfold overwrote
    rw [hc, Bool.true_and, any_eq_true, ← hown, ← hslot.wrote]
    constructor
    · rintro ⟨t, ht, htest⟩
      simp only [Bool.and_eq_true, beq_iff_eq] at htest
      exact hone t ht (htest.1.1.trans hown) ▸ htest.2
    · intro hwrote
      exact ⟨s, hs, by simp [hslot.seen, hwrote]⟩
  · intro batch hmem state
    unfold carried_overlay
    split
    · rfl
    · rw [if_pos (any_eq_true.mpr ⟨_, hmem, hmentions⟩)]

/-- A refused recording answers nothing, on its own and in any batch, until an observed reset
advances its generation. A complete one says of every display that a report named which states
its first and last reports gave it, and whether one of them can write it. -/
theorem refused_recordings_answer_nothing_and_complete_ones_miss_no_display :
    (∀ (ledgers : Ledgers) (i : Nat) (event : LedgerEvent), LedgerFault (ledgers i) event →
      ∀ later : List (Nat × LedgerEvent),
        runs.Guarded step (NotAdmitted i) (ledgers.step (i, event)) later →
          AnswersNothing (runs.run step ledgers ((i, event) :: later) i)) ∧
    ∀ (calls : List (Nat × LedgerEvent)) (i generation : Nat),
      (runs.run step (fun _ => {}) calls i).complete generation = true →
        ∀ key : Key, key.named = true →
          (∃ r ∈ since_reset (events_on i calls), (r.claims key).isSome = true) →
            Touched (since_reset (events_on i calls)) (runs.run step (fun _ => {}) calls i)
              generation key := by
  constructor
  · intro ledgers i event hfault later hlater
    apply answersNothing_of_known
    rw [runs.run_cons]
    refine ledgers_run_known later ?_ hlater
    simp only [step, Function.update_self]
    exact known_of_ledgerFault hfault
  · intro calls i generation hc key hkey hclaim
    rw [run_ledger] at hc ⊢
    have hknown : (runs.run LedgerEvent.apply {} (events_on i calls)).known = true := by
      simp only [complete, Bool.and_eq_true] at hc
      exact hc.1.1.1.1
    exact touched_of_records (recorded_run (events_on i calls) hknown) hc hkey hclaim

/-- Two lists that enter and draw display 1: the first is closed twice and answers nothing, the
second says that the display was written. -/
theorem closed_twice_and_closed_once : let display : Key := ⟨1, 1⟩
    let record (i : Nat) : List (Nat × LedgerEvent) :=
      [(i, .reset 1 true), (i, .report (.observe_legacy display COMMON RENDER_TARGET 0 0)),
       (i, .report (.note_render_target_write display 12)), (i, .close 1 true)]
    AnswersNothing (runs.run step (fun _ => {}) (record 0 ++ (0, .close 1 true) :: record 1) 0) ∧
      Touched (since_reset (events_on 1 (record 1))) (runs.run step (fun _ => {}) (record 1) 1) 1 display := by
  intro display record
  obtain ⟨hfaults, htouches⟩ := refused_recordings_answer_nothing_and_complete_ones_miss_no_display
  constructor
  · rw [runs.run_append]
    refine hfaults _ 0 (.close 1 true) ?_ (record 1) ?_
    · exact LedgerFault.close 1 true (Or.inl (by decide))
    · exact ⟨nofun, nofun, nofun, nofun, trivial⟩
  · refine htouches (record 1) 1 1 (by decide) display (by decide) ?_
    exact ⟨_, mem_cons_self, rfl⟩

/-- A draw noted for a display that a barrier of the list took to a shader resource: the
recording is complete, and its slot has no write. -/
theorem noted_draw_of_a_shader_resource_is_no_write : let display : Key := ⟨1, 1⟩
    let note := Report.note_render_target_write display 12
    let calls : List (Nat × LedgerEvent) :=
      [(0, .reset 1 true), (0, .report (.observe_legacy display RENDER_TARGET PIXEL_SHADER_RESOURCE 0 0)),
       (0, .report note), (0, .close 1 true)]
    let ledger := runs.run step (fun _ => {}) calls 0
    ledger.complete 1 = true ∧ note ∈ since_reset (events_on 0 calls) ∧
      (∃ s ∈ ledger.slots, s.key = display ∧ s.wrote = false) ∧
      ledger.overwrote display 1 = false := by
  intro display note calls ledger
  refine ⟨by decide, ?_, by decide, by decide⟩
  exact mem_cons_of_mem _ mem_cons_self

end taxi_camera.standalone
