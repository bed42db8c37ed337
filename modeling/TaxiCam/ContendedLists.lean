-- The command lists whose lookup expired on one recording thread, until the
-- next lookup that finds them reports it. `ContendedLists` and `find_list` of
-- src/bridge/d3d12_bridge.cpp. A list is the number of its address, 0 is none.
import TaxiCam.Histories
import TaxiCam.Runs
import TaxiCam.SlotTables

namespace taxi_camera.standalone

open histories runs slot_tables List

/-- `next` counts on where the source's comes round: eight divides its 2^32. -/
structure ContendedLists where
  lists : Fin 8 → Nat := fun _ => 0
  next : Nat := 0
  count : Nat := 0

namespace ContendedLists

variable (s : ContendedLists) (native : Nat)

/-- The place that is written next. -/
def turn : Fin 8 := Fin.ofNat 8 s.next

def remember : ContendedLists :=
  match place s.lists native with
  | some _ => s
  | none =>
    { lists := Function.update s.lists s.turn native
      next := s.next + 1
      count := s.count - (if s.lists s.turn ≠ 0 then 1 else 0) + if native ≠ 0 then 1 else 0 }

def take : ContendedLists × Bool :=
  if s.count = 0 then (s, false)
  else match place s.lists native with
    | some i =>
      ({ s with lists := Function.update s.lists i 0, count := s.count - if s.lists i ≠ 0 then 1 else 0 }, true)
    | none => (s, false)

/-- A lookup that expired, and one that came to the registered list. -/
inductive Lookup
  | expired (native : Nat)
  | found (native : Nat)
deriving DecidableEq

def step : ContendedLists → Lookup → ContendedLists
  | s, .expired native => s.remember native
  | s, .found native => (s.take native).1

/-! ## What is owed -/

/-- A lookup of the list expired, and none found it since. -/
def Owed (log : List Lookup) (native : Nat) : Prop :=
  Since (· = .found native) (fun _ lookup => lookup = .expired native) log

/-- The state after the lookups of a thread. -/
def after (log : List Lookup) : ContendedLists := run step {} log

/-- The count is right, no list stands twice, and what stands is owed. -/
structure Good (log : List Lookup) (s : ContendedLists) : Prop where
  count : s.count = occupied 0 s.lists
  apart : Apart 0 s.lists
  owed : ∀ native ≠ 0, Holds s.lists native → Owed log native

variable {s : ContendedLists} {native : Nat} {log : List Lookup}
variable {lookup : Lookup} {other : Nat}

theorem Owed.snoc (h : Owed log native) (hother : lookup ≠ .found native) : Owed (log ++ [lookup]) native := by
  apply Since.snoc h
  simpa using hother

theorem Good.remember (h : Good log s) : Good (log ++ [.expired native]) (s.remember native) := by
  unfold ContendedLists.remember
  split
  · exact ⟨h.count, h.apart, fun other hother hheld => (h.owed other hother hheld).snoc (by simp)⟩
  rename_i hnone
  have hnot : ¬Holds s.lists native := place_none.mp hnone
  refine ⟨?_, h.apart.put (.inr hnot), fun other hother hheld => ?_⟩
  · rw [occupied_put, h.count]
  · obtain ⟨i, hi⟩ := hheld
    dsimp only at hi
    by_cases hturn : i = s.turn
    · rw [hturn, Function.update_self] at hi
      rw [hi]
      exact Since.now rfl
    rw [Function.update_of_ne hturn] at hi
    exact (h.owed other hother ⟨i, hi⟩).snoc (by simp)

theorem Good.take (h : Good log s) : Good (log ++ [.found native]) (s.take native).1 := by
  -- a list that stands after the lookup is not the one that was looked up
  have hkeeps : ∀ other ≠ 0, other ≠ native → Holds s.lists other → Owed (log ++ [.found native]) other :=
    fun other hother hne hheld => (h.owed other hother hheld).snoc (by simpa using Ne.symm hne)
  unfold ContendedLists.take
  split
  · rename_i hzero
    rw [h.count] at hzero
    refine ⟨h.count, h.apart, fun other hother hheld => ?_⟩
    obtain ⟨i, hi⟩ := hheld
    exact absurd (hi.symm.trans (occupied_eq_zero.mp hzero i)) hother
  split
  · rename_i i hplace
    have hi : s.lists i = native := place_some hplace
    refine ⟨?_, h.apart.put (.inl rfl), fun other hother hheld => ?_⟩
    · rw [occupied_put, h.count]
      simp
    · obtain ⟨j, hj⟩ := hheld
      dsimp only at hj
      have hji : j ≠ i := by
        rintro rfl
        rw [Function.update_self] at hj
        exact hother hj.symm
      rw [Function.update_of_ne hji] at hj
      apply hkeeps other hother _ ⟨j, hj⟩
      rintro rfl
      exact hji (h.apart j i (hj.trans hi.symm) (by rwa [hj]))
  rename_i hnone
  refine ⟨h.count, h.apart, fun other hother hheld => hkeeps other hother ?_ hheld⟩
  rintro rfl
  exact place_none.mp hnone hheld

theorem after_good (log : List Lookup) : Good log (after log) := by
  induction log using reverseRecOn with
  | nil => exact ⟨occupied_empty.symm, Apart.empty, fun native hnative ⟨_, h⟩ => absurd h.symm hnative⟩
  | append_singleton log lookup ih =>
    unfold after at ih ⊢
    rw [run_snoc]
    cases lookup with
    | expired native => exact ih.remember
    | found native => exact ih.take

/-! ## Reports -/

/-- A lookup that finds a list reports it exactly when the list stands. -/
theorem Good.reports (h : Good log s) (hnative : native ≠ 0) : (s.take native).2 = true ↔ Holds s.lists native := by
  unfold ContendedLists.take
  constructor
  · intro htake
    split at htake
    · cases htake
    split at htake
    · rename_i i hplace
      exact ⟨i, place_some hplace⟩
    · cases htake
  · rintro ⟨i, hi⟩
    have hcount : s.count ≠ 0 := by
      rw [h.count]
      intro hzero
      rw [occupied_eq_zero.mp hzero i] at hi
      exact hnative hi.symm
    rw [if_neg hcount, h.apart.place hi hnative]

/-- A lookup that expires finds its list among the remembered ones, or a free place. -/
def Room : ContendedLists → Lookup → Prop
  | s, .expired native => Holds s.lists native ∨ s.lists s.turn = 0
  | _, .found _ => True

/-- Every list that is owed stands. -/
def Complete (log : List Lookup) (s : ContendedLists) : Prop :=
  ∀ native ≠ 0, Owed log native → Holds s.lists native

theorem owed_snoc (h : Owed (log ++ [lookup]) native) :
    lookup = .expired native ∨ lookup ≠ .found native ∧ Owed log native := by
  obtain ⟨before, x, rest, hsplit, rfl, hrest⟩ := h
  rcases eq_nil_or_concat rest with rfl | ⟨rest, y, rfl⟩
  · exact .inl (head_eq_of_cons_eq (append_inj' hsplit rfl).2)
  rw [concat_eq_append, ← cons_append, ← append_assoc] at hsplit
  obtain ⟨rfl, hlookup⟩ := append_inj' hsplit rfl
  obtain rfl := cons.inj hlookup |>.1
  refine .inr ⟨?_, before, _, rest, rfl, rfl, fun e he => hrest e ?_⟩
  · have hlast := hrest lookup (by simp)
    simpa using hlast
  · simp [he]

theorem remember_holds : Holds (s.remember native).lists native := by
  unfold remember
  split
  · rename_i i hplace
    exact ⟨i, place_some hplace⟩
  · exact ⟨s.turn, Function.update_self ..⟩

theorem remember_keeps (hroom : Room s (.expired native)) (hother : other ≠ 0)
    (h : Holds s.lists other) : Holds (s.remember native).lists other := by
  unfold remember
  split
  · exact h
  rename_i hnone
  have hfree : s.lists s.turn = 0 := hroom.resolve_left (place_none.mp hnone)
  apply (holds_put _).mpr (.inr h)
  rw [hfree]
  exact hother.symm

theorem take_keeps (hne : native ≠ other) (h : Holds s.lists other) : Holds (s.take native).1.lists other := by
  unfold take
  split
  · exact h
  split
  · rename_i i hplace
    apply (holds_put _).mpr (.inr h)
    rw [place_some hplace]
    exact hne
  · exact h

theorem Complete.step (h : Complete log s) (hroom : Room s lookup) : Complete (log ++ [lookup]) (s.step lookup) := by
  intro other hother howed
  cases lookup with
  | expired native =>
    rcases owed_snoc howed with hnow | ⟨-, howed⟩
    · obtain rfl := Lookup.expired.inj hnow
      exact remember_holds
    · exact remember_keeps hroom hother (h other hother howed)
  | found native =>
    rcases owed_snoc howed with hnow | ⟨hne, howed⟩
    · cases hnow
    apply take_keeps _ (h other hother howed)
    rintro rfl
    exact hne rfl

/-- Every lookup that finds a list which is owed reports it. -/
def Reports (log : List Lookup) : Prop :=
  ∀ before, before <+: log → ∀ native ≠ 0, Owed before native → ((after before).take native).2 = true

theorem reports_iff : Reports log ↔ ∀ before, before <+: log → Complete before (after before) := by
  constructor
  · exact fun h before hbefore native hnative howed =>
      ((after_good before).reports hnative).mp (h before hbefore native hnative howed)
  · exact fun h before hbefore native hnative howed =>
      ((after_good before).reports hnative).mpr (h before hbefore native hnative howed)

/-- A lookup that writes over a list loses what is owed to it. -/
theorem Complete.room (hg : Good log s) (h : Complete (log ++ [lookup]) (s.step lookup)) :
    Room s lookup := by
  cases lookup with
  | found native => exact trivial
  | expired native =>
    by_cases hheld : Holds s.lists native
    · exact .inl hheld
    by_cases hfree : s.lists s.turn = 0
    · exact .inr hfree
    have howed : Owed log (s.lists s.turn) := hg.owed _ hfree ⟨s.turn, rfl⟩
    have hstands := h _ hfree (howed.snoc (by simp))
    unfold ContendedLists.step remember at hstands
    simp only [place_none.mpr hheld] at hstands
    refine absurd hstands (hg.apart.gone hfree ?_)
    intro heq
    exact hheld ⟨s.turn, heq.symm⟩

/-- The count is the number of the remembered lists after any lookups; and every list that is owed
is reported exactly when no lookup wrote over another list's place. -/
theorem contended_recordings_are_reported (log : List Lookup) :
    (after log).count = occupied 0 (after log).lists ∧ (Reports log ↔ Guarded step Room {} log) := by
  refine ⟨(after_good log).count, ?_⟩
  rw [reports_iff]
  induction log using reverseRecOn with
  | nil =>
    refine iff_of_true (fun before hbefore native hnative howed => ?_) trivial
    obtain rfl := prefix_nil.mp hbefore
    obtain ⟨before, x, rest, hsplit, -⟩ := howed
    cases before <;> cases hsplit
  | append_singleton log lookup ih =>
    rw [guarded_append, ← ih]
    constructor
    · intro h
      refine ⟨fun before hbefore => h before (hbefore.trans (prefix_append ..)), ?_, trivial⟩
      have hlast := h _ (prefix_refl _)
      unfold after at hlast
      rw [run_snoc] at hlast
      exact Complete.room (after_good log) hlast
    · rintro ⟨h, hroom, -⟩ before hbefore
      rcases prefix_concat_iff.mp hbefore with rfl | hbefore
      · unfold after
        rw [run_snoc]
        exact (h log (prefix_refl _)).step hroom
      · exact h before hbefore

/-- Nine lists expire, and the first of them is found: its place was the ninth's. -/
theorem a_ninth_list_is_written_over :
    ¬∀ log : List Lookup, (after log).count = occupied 0 (after log).lists ∧ Reports log := by
  intro h
  have howed : Owed ([1, 2, 3, 4, 5, 6, 7, 8, 9].map Lookup.expired) 1 :=
    ⟨[], .expired 1, [2, 3, 4, 5, 6, 7, 8, 9].map Lookup.expired, rfl, rfl, by decide⟩
  have hreported := (h _).2 _ (prefix_refl _) 1 (by decide) howed
  revert hreported
  decide

end ContendedLists

end taxi_camera.standalone
