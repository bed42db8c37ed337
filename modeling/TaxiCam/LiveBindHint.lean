-- The one resource that a command list was seen to bind, until the list's next
-- render target takes it. `LiveBindHint` of src/bridge/d3d12_bridge.cpp; its
-- mutex makes each call one step. Lists and resources are the numbers of their
-- addresses, 0 is none.
import TaxiCam.Runs
import TaxiCam.SlotTables

namespace taxi_camera.standalone

open runs slot_tables List
open Function (update)

structure LiveBindHint where
  lists : Fin 64 → Nat := fun _ => 0
  resources : Fin 64 → Nat := fun _ => 0
  entries : Fin 64 → Nat := fun _ => 0
  generations : Fin 64 → Nat := fun _ => 0

namespace LiveBindHint

variable (s : LiveBindHint) (native : Nat)

def note (p generation : Nat) : LiveBindHint :=
  if native = 0 then s
  else match place s.lists native with
    | some i =>
      if s.entries i ≠ 0 ∧ s.resources i = p ∧ s.generations i = generation then s
      else
        { s with
          resources := update s.resources i p
          generations := update s.generations i generation
          entries := update s.entries i (if p ≠ 0 ∧ s.entries i = 0 then 1 else 2) }
    | none => match place s.lists 0 with
      | none => s
      | some i =>
        { lists := update s.lists i native
          resources := update s.resources i p
          generations := update s.generations i generation
          entries := update s.entries i (if p ≠ 0 then 1 else 2) }

/-- The resource and its generation, which a list without a slot leaves as the caller has it. -/
structure Taken where
  resource : Nat := 0
  generation : Nat := 0
deriving DecidableEq

def take : LiveBindHint × Taken :=
  if native = 0 then (s, {})
  else match place s.lists native with
    | none => (s, {})
    | some i =>
      let result := if s.entries i = 1 then s.resources i else 0
      ({ s with
          entries := update s.entries i 0
          resources := update s.resources i 0
          lists := update s.lists i 0 },
        ⟨result, if result ≠ 0 then s.generations i else 0⟩)

def clear : LiveBindHint :=
  if native = 0 then s
  else
    { s with
      entries := fun i => if s.lists i = native then 0 else s.entries i
      resources := fun i => if s.lists i = native then 0 else s.resources i
      lists := fun i => if s.lists i = native then 0 else s.lists i }

def clear_all : LiveBindHint :=
  { s with entries := fun _ => 0, resources := fun _ => 0, lists := fun _ => 0 }

inductive Call
  | note (native p generation : Nat)
  | take (native : Nat)
  | clear (native : Nat)
  | clear_all
deriving DecidableEq

def step : LiveBindHint → Call → LiveBindHint
  | s, .note native p generation => s.note native p generation
  | s, .take native => (s.take native).1
  | s, .clear native => s.clear native
  | s, .clear_all => s.clear_all

/-- The state after the calls of all threads. -/
def after (log : List Call) : LiveBindHint := run step {} log

/-! ## What was noted -/

/-- What was noted of a list since it was last taken or cleared, as a call changes it. -/
def noted (native : Nat) (notes : List (Nat × Nat)) : Call → List (Nat × Nat)
  | .note list p generation => if list = native then notes ++ [(p, generation)] else notes
  | .take list => if list = native then [] else notes
  | .clear list => if list = native then [] else notes
  | .clear_all => []

/-- The resources and generations noted of a list since its last take or clear. -/
def notes (log : List Call) (native : Nat) : List (Nat × Nat) := log.foldl (noted native) []

theorem notes_snoc (log : List Call) (call : Call) (native : Nat) :
    notes (log ++ [call]) native = noted native (notes log native) call := by
  simp [notes, foldl_append]

/-- What the slot of a list tells of the notes of that list. -/
structure Tells (s : LiveBindHint) (i : Fin 64) (notes : List (Nat × Nat)) : Prop where
  noted : notes ≠ []
  used : s.entries i ≠ 0
  only : s.entries i = 1 → s.resources i ≠ 0 ∧ ∀ n ∈ notes, n = (s.resources i, s.generations i)

/-- Every list that has notes has the one slot that tells of them. -/
structure Good (log : List Call) (s : LiveBindHint) : Prop where
  apart : Apart 0 s.lists
  tells : ∀ i, s.lists i ≠ 0 → Tells s i (notes log (s.lists i))
  all : ∀ native ≠ 0, ¬Holds s.lists native → notes log native = []

/-- A note finds the slot of its list, or a free one. -/
def Room : LiveBindHint → Call → Prop
  | s, .note native _ _ => native = 0 ∨ Holds s.lists native ∨ Holds s.lists 0
  | _, _ => True

variable {s : LiveBindHint} {native : Nat} {log : List Call}

theorem Good.start : Good [] {} where
  apart := Apart.empty
  tells _ h := absurd rfl h
  all _ _ _ := rfl

variable {call : Call} {i : Fin 64} {t : LiveBindHint} {generation p : Nat}

/-- A list that the call does not name keeps its notes, and a slot that keeps its contents keeps telling so. -/
theorem Tells.kept {notes : List (Nat × Nat)} (h : Tells s i notes)
    (hentries : t.entries i = s.entries i) (hresources : t.resources i = s.resources i)
    (hgenerations : t.generations i = s.generations i) : Tells t i notes := by
  refine ⟨h.noted, ?_, ?_⟩
  · rw [hentries]
    exact h.used
  · rw [hentries, hresources, hgenerations]
    exact h.only

/-- A call that takes the slots of one list away, and its notes. -/
theorem Good.cleared (h : Good log s) (hlists : ∀ i, t.lists i = if s.lists i = native then 0 else s.lists i)
    (hkept : ∀ i, s.lists i ≠ native → s.lists i ≠ 0 → t.entries i = s.entries i ∧ t.resources i = s.resources i ∧
      t.generations i = s.generations i)
    (hnotes : ∀ other, notes (log ++ [call]) other = if native = other then [] else notes log other) :
    Good (log ++ [call]) t := by
  -- a list that still stands is another one, and stood there before
  have hstands : ∀ i, t.lists i ≠ 0 → s.lists i ≠ native ∧ t.lists i = s.lists i := by
    intro i hi
    rw [hlists] at hi ⊢
    split at hi
    · exact absurd rfl hi
    rename_i hne
    exact ⟨hne, if_neg hne⟩
  refine ⟨fun i j hij hi => ?_, fun i hi => ?_, fun other hother hnone => ?_⟩
  · obtain ⟨-, hsi⟩ := hstands i hi
    obtain ⟨-, hsj⟩ := hstands j (by rwa [← hij])
    rw [hsi, hsj] at hij
    rw [hsi] at hi
    exact h.apart i j hij hi
  · obtain ⟨hne, hsi⟩ := hstands i hi
    rw [hsi] at hi ⊢
    rw [hnotes, if_neg hne.symm]
    obtain ⟨hentries, hresources, hgenerations⟩ := hkept i hne hi
    exact (h.tells i hi).kept hentries hresources hgenerations
  · rw [hnotes]
    split
    · rfl
    rename_i hne
    apply h.all other hother
    rintro ⟨i, hi⟩
    refine hnone ⟨i, ?_⟩
    rw [hlists, hi, if_neg (Ne.symm hne)]

theorem Good.clear (h : Good log s) : Good (log ++ [.clear native]) (s.clear native) := by
  unfold LiveBindHint.clear
  split
  · rename_i hzero
    refine ⟨h.apart, fun i hi => ?_, fun other hother hnone => ?_⟩
    · rw [notes_snoc, noted, if_neg (by rw [hzero]; exact hi.symm)]
      exact h.tells i hi
    · rw [notes_snoc, noted, h.all other hother hnone]
      simp
  refine h.cleared (fun _ => rfl) (fun i hne _ => ?_) fun other => ?_
  · simp [hne]
  · rw [notes_snoc, noted]

theorem Good.take (h : Good log s) : Good (log ++ [.take native]) (s.take native).1 := by
  have hnotes : ∀ other, notes (log ++ [.take native]) other = if native = other then [] else notes log other := by
    intro other
    rw [notes_snoc, noted]
  unfold LiveBindHint.take
  split
  · rename_i hzero
    refine ⟨h.apart, fun i hi => ?_, fun other hother hnone => ?_⟩
    · rw [hnotes, if_neg (by rw [hzero]; exact hi.symm)]
      exact h.tells i hi
    · rw [hnotes, h.all other hother hnone, ite_self]
  rename_i hnative
  split
  · rename_i hnone
    refine h.cleared (fun i => ?_) (fun i _ _ => ⟨rfl, rfl, rfl⟩) hnotes
    rw [if_neg]
    exact fun hi => place_none.mp hnone ⟨i, hi⟩
  rename_i i hplace
  have hi : s.lists i = native := place_some hplace
  refine h.cleared (fun j => ?_) (fun j hne _ => ?_) hnotes
  · by_cases hji : j = i
    · simp [hji, hi]
    have hne : s.lists j ≠ native := by
      intro hj
      apply hji
      exact h.apart j i (hj.trans hi.symm) (by rwa [hj])
    simp [hji, hne]
  · have hji : j ≠ i := by
      rintro rfl
      exact hne hi
    simp [hji]

theorem Good.clear_all : Good (log ++ [.clear_all]) s.clear_all := by
  refine ⟨Apart.empty, fun _ hi => absurd rfl hi, fun other _ _ => ?_⟩
  rw [notes_snoc, noted]

theorem Tells.first (hresources : t.resources i = p)
    (hgenerations : t.generations i = generation) (hentries : t.entries i = if p ≠ 0 then 1 else 2) :
    Tells t i [(p, generation)] := by
  refine ⟨by simp, ?_, fun hone => ?_⟩
  · rw [hentries]
    split <;> simp
  · rw [hentries] at hone
    rw [hresources, hgenerations]
    refine ⟨fun hp => ?_, fun n hn => mem_singleton.mp hn⟩
    rw [if_neg (by simpa using hp)] at hone
    cases hone

/-- A note that names what the slot has changes nothing; another one makes the slot ambiguous. -/
theorem Tells.note {notes : List (Nat × Nat)} (h : Tells s i notes)
    (hsame : s.resources i = p ∧ s.generations i = generation) : Tells s i (notes ++ [(p, generation)]) := by
  refine ⟨by simp, h.used, fun hone => ?_⟩
  obtain ⟨hresource, hall⟩ := h.only hone
  refine ⟨hresource, fun n hn => ?_⟩
  rcases mem_append.mp hn with hn | hn
  · exact hall n hn
  · rw [mem_singleton.mp hn, hsame.1, hsame.2]

section
variable {p generation : Nat}

theorem notes_note (other : Nat) : notes (log ++ [.note native p generation]) other =
    if native = other then notes log other ++ [(p, generation)] else notes log other := by
  rw [notes_snoc, noted]

variable {i : Fin 64}

/-- The list of the note has a slot: it stays as it is, or is ambiguous from here on. -/
theorem Good.noted_again (h : Good log s) (hi : s.lists i = native) (hnative : native ≠ 0) :
    Good (log ++ [.note native p generation])
      (if s.entries i ≠ 0 ∧ s.resources i = p ∧ s.generations i = generation then s
      else
        { s with
          resources := update s.resources i p
          generations := update s.generations i generation
          entries := update s.entries i (if p ≠ 0 ∧ s.entries i = 0 then 1 else 2) }) := by
  have htells := h.tells i (by rwa [hi])
  rw [hi] at htells
  have hall : ∀ other ≠ 0, ¬Holds s.lists other → notes (log ++ [.note native p generation]) other = [] := by
    intro other hother hnone
    rw [notes_note, if_neg (by rintro rfl; exact hnone ⟨i, hi⟩)]
    exact h.all other hother hnone
  have hothers : ∀ j, j ≠ i → s.lists j ≠ 0 → Tells s j (notes (log ++ [.note native p generation]) (s.lists j)) := by
    intro j hji hj
    rw [notes_note, if_neg]
    · exact h.tells j hj
    · intro hsame
      exact hji (h.apart j i (hsame.symm.trans hi.symm) hj)
  split
  · rename_i hsame
    refine ⟨h.apart, fun j hj => ?_, hall⟩
    by_cases hji : j = i
    · rw [hji, hi, notes_note, if_pos rfl]
      exact htells.note hsame.2
    · exact hothers j hji hj
  refine ⟨h.apart, fun j hj => ?_, hall⟩
  by_cases hji : j = i
  · rw [hji, hi, notes_note, if_pos rfl]
    have hused : ¬(p ≠ 0 ∧ s.entries i = 0) := fun hnew => htells.used hnew.2
    refine ⟨by simp, ?_, fun hone => ?_⟩
    · simp [hused]
    · simp [hused] at hone
  · apply (hothers j hji hj).kept <;> simp [hji]

/-- The list of the note has no slot, and takes a free one. -/
theorem Good.placed (h : Good log s) (hi : s.lists i = 0) (hnative : native ≠ 0)
    (hnot : ¬Holds s.lists native) : Good (log ++ [.note native p generation])
      { lists := update s.lists i native
        resources := update s.resources i p
        generations := update s.generations i generation
        entries := update s.entries i (if p ≠ 0 then 1 else 2) } := by
  refine ⟨h.apart.put (.inr hnot), fun j hj => ?_, fun other hother hnone => ?_⟩
  · dsimp only at hj ⊢
    by_cases hji : j = i
    · rw [hji, Function.update_self, notes_note, if_pos rfl, h.all native hnative hnot, nil_append]
      apply Tells.first <;> simp
    have hne : native ≠ s.lists j := by
      rintro hsame
      exact hnot ⟨j, hsame.symm⟩
    rw [Function.update_of_ne hji] at hj ⊢
    rw [notes_note, if_neg hne]
    apply (h.tells j hj).kept <;> simp [hji]
  · rw [holds_put (by rw [hi]; exact hother.symm), not_or] at hnone
    rw [notes_note, if_neg hnone.1]
    exact h.all other hother hnone.2

theorem Good.note (h : Good log s) (hroom : Room s (.note native p generation)) :
    Good (log ++ [.note native p generation]) (s.note native p generation) := by
  unfold LiveBindHint.note
  split
  · rename_i hzero
    refine ⟨h.apart, fun i hi => ?_, fun other hother hnone => ?_⟩
    · rw [notes_note, if_neg (by rw [hzero]; exact hi.symm)]
      exact h.tells i hi
    · rw [notes_note, if_neg (by rw [hzero]; exact hother.symm)]
      exact h.all other hother hnone
  rename_i hnative
  split
  · rename_i i hplace
    exact h.noted_again (place_some hplace) hnative
  rename_i hnone
  have hnot : ¬Holds s.lists native := place_none.mp hnone
  split
  · rename_i hfull
    rcases hroom with hzero | hheld | hfree
    · exact absurd hzero hnative
    · exact absurd hheld hnot
    · exact absurd hfree (place_none.mp hfull)
  rename_i i hplace
  exact h.placed (place_some hplace) hnative hnot

end

theorem Good.step (h : Good log s) (hroom : Room s call) : Good (log ++ [call]) (s.step call) := by
  cases call with
  | note native p generation => exact h.note hroom
  | take native => exact h.take
  | clear native => exact h.clear
  | clear_all => exact clear_all

theorem after_good (hroom : Guarded step Room {} log) : Good log (after log) := by
  induction log using reverseRecOn with
  | nil => exact Good.start
  | append_singleton log call ih =>
    obtain ⟨hlog, hcall, -⟩ := (guarded_append _ _).mp hroom
    unfold after at ih ⊢
    rw [run_snoc]
    exact (ih hlog).step hcall

/-! ## What a bind takes -/

/-- A take names a resource only where every note of the list named it, in its generation; it names
none where two resources were noted, or one that is not recognised. -/
structure Sound (log : List Call) (native : Nat) (taken : Taken) : Prop where
  only : taken.resource ≠ 0 →
    notes log native ≠ [] ∧ ∀ n ∈ notes log native, n = (taken.resource, taken.generation)
  ambiguous : ∀ a ∈ notes log native, ∀ b ∈ notes log native, a.1 ≠ b.1 ∨ a.1 = 0 → taken.resource = 0

theorem Sound.of_only {taken : Taken} (h : taken.resource ≠ 0 →
    notes log native ≠ [] ∧ ∀ n ∈ notes log native, n = (taken.resource, taken.generation)) :
    Sound log native taken := by
  refine ⟨h, fun a ha b hb hbad => ?_⟩
  by_contra htaken
  obtain ⟨-, hall⟩ := h htaken
  rw [hall a ha, hall b hb] at hbad
  rcases hbad with hne | hzero
  · exact hne rfl
  · exact htaken hzero

theorem Good.sound (h : Good log s) (native : Nat) : Sound log native (s.take native).2 := by
  apply Sound.of_only
  unfold LiveBindHint.take
  split
  · exact fun htaken => absurd rfl htaken
  rename_i hnative
  split
  · exact fun htaken => absurd rfl htaken
  rename_i i hplace
  have hi : s.lists i = native := place_some hplace
  have htells := h.tells i (by rwa [hi])
  rw [hi] at htells
  intro htaken
  dsimp only at htaken ⊢
  split at htaken
  · rename_i hone
    obtain ⟨hresource, hall⟩ := htells.only hone
    rw [if_pos hone, if_pos hresource]
    exact ⟨htells.noted, hall⟩
  · exact absurd rfl htaken

/-- While every note finds a slot, a live bind names the only candidate of its list. -/
theorem a_live_bind_names_the_only_candidate (log : List Call) (hroom : Guarded step Room {} log) (native : Nat) :
    Sound log native ((after log).take native).2 := (after_good hroom).sound native

/-- Two lists in turn, of which one has two candidates. -/
theorem two_lists_are_apart :
    Sound [.note 1 100 7, .note 2 200 8, .note 1 100 7, .note 2 300 9] 1
        ((after [.note 1 100 7, .note 2 200 8, .note 1 100 7, .note 2 300 9]).take 1).2 ∧
      ((after [.note 1 100 7, .note 2 200 8, .note 1 100 7, .note 2 300 9]).take 1).2 = ⟨100, 7⟩ :=
  ⟨a_live_bind_names_the_only_candidate _ (by
    refine ⟨.inr (.inr ⟨0, rfl⟩), .inr (.inr ⟨1, rfl⟩), .inr (.inl ⟨0, rfl⟩), .inr (.inl ⟨1, rfl⟩), trivial⟩) 1, by decide⟩

/-- Sixty-four other lists fill the table, so the list's first candidate is dropped; once one of
them is taken, its second one stands alone. -/
theorem a_dropped_note_hides_a_candidate :
    ¬∀ (log : List Call) (native : Nat), Sound log native ((after log).take native).2 := by
  intro h
  have hbad := h ((range 64).map (fun i => .note (i + 1) 100 7) ++ [.note 65 200 8, .take 1, .note 65 300 9]) 65
  have htaken : ((after ((range 64).map (fun i => Call.note (i + 1) 100 7) ++
      [.note 65 200 8, .take 1, .note 65 300 9])).take 65).2 = ⟨300, 9⟩ := by decide +kernel
  have hnotes : notes ((range 64).map (fun i => Call.note (i + 1) 100 7) ++
      [.note 65 200 8, .take 1, .note 65 300 9]) 65 = [(200, 8), (300, 9)] := by decide +kernel
  rw [htaken] at hbad
  have hfirst := (hbad.only (by decide)).2 (200, 8) (by rw [hnotes]; exact mem_cons_self)
  revert hfirst
  decide

end LiveBindHint

end taxi_camera.standalone
