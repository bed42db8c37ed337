-- The pool of views as an inspection for a creation reads it, and the ledger of
-- the views that went back to it. src/camera/view_pool.hpp. An address is a
-- token that is only compared; zero stands for none.
import Mathlib.Data.Finset.Card
import Mathlib.Data.List.Count

namespace taxi_camera.engine_camera


/-! ## The pool -/

structure ViewSlot where
  view_address : Nat := 0
  free : Bool := false
  release_pending : Bool := false
  release_queued : Bool := false
deriving DecidableEq

/-- What an inspection published. `release_views` are the entries of the release queues that count. -/
structure ViewPoolSnapshot where
  valid : Bool := false
  slots : Vector ViewSlot 8 := Vector.replicate 8 {}
  free_count : Nat := 0
  first_free_indices : Vector Int 4 := Vector.replicate 4 (-1)
  release_checked : Bool := false
  release_views : List Nat := []
deriving DecidableEq

open List

namespace ViewPoolSnapshot

variable (pool : ViewPoolSnapshot)

def slot (index : Int) : Option ViewSlot :=
  if index < 0 then none else pool.slots[index.toNat]?

/-- The slot that a creation takes is there, and the engine is done with its last view. -/
def settled (index : Int) : Bool :=
  match pool.slot index with
  | none => false
  | some slot => !(slot.release_pending || slot.release_queued)

/-- The engine selects the first free slot, not the first that is not queued. -/
def creation_available (required : Nat) : Bool :=
  pool.valid && pool.release_checked && required != 0 && decide (required ≤ 4) &&
    decide (required ≤ pool.free_count) &&
    (pool.first_free_indices.toList.take required).all pool.settled

/-- The view is in a release queue, or marked where it stands. -/
def releasing (view : Nat) : Bool :=
  pool.release_views.contains view ||
    pool.slots.toList.any fun slot => slot.view_address == view && slot.release_pending

end ViewPoolSnapshot

/-! ## The ledger -/

structure RetiredViewPool where
  renderer : Nat := 0
  views : List Nat := List.replicate 4 0
  owned : ∀ view ∈ views, view ≠ 0 → renderer ≠ 0 := by simp

namespace RetiredViewPool

/-- The first place that is empty takes the view. -/
def occupy (view : Nat) : List Nat → List Nat
  | [] => []
  | old :: rest => if old = 0 then view :: rest else old :: occupy view rest

variable (s : RetiredViewPool) (renderer : Nat)

def refuses (view : Nat) : Bool :=
  renderer == 0 || view == 0 || (s.renderer != 0 && s.renderer != renderer)

def retain (view : Nat) : RetiredViewPool × Bool :=
  if h : s.refuses renderer view then (s, false)
  else if view ∈ s.views then (s, true)
  else if 0 ∈ s.views then
    ({ renderer
       views := occupy view s.views
       owned := fun _ _ _ h0 => h (by simp [refuses, h0]) }, true)
  else (s, false)

def pending : Bool := s.views.any (· != 0)

/-- What a snapshot proves nothing about. -/
def keep (pool : ViewPoolSnapshot) (old : Nat) : Nat := if pool.releasing old then old else 0

theorem keep_ne_zero {pool : ViewPoolSnapshot} {old : Nat} (h : keep pool old ≠ 0) : keep pool old = old := by
  unfold keep at h ⊢
  split
  · rfl
  · next hnot => exact absurd (if_neg hnot) h

/-- A different renderer cannot prove a release. -/
def proves (pool : ViewPoolSnapshot) : Bool :=
  renderer == s.renderer && pool.valid && pool.release_checked

/-- Whether every view is released now. -/
def observe (pool : ViewPoolSnapshot) : RetiredViewPool × Bool :=
  if !s.pending then (s, true)
  else if !s.proves renderer pool then (s, false)
  else
    let kept := s.views.map (keep pool)
    if h : kept.any (· != 0) then
      ({ s with
         views := kept
         owned := by
           intro view hmem hview
           obtain ⟨old, hold, rfl⟩ := mem_map.mp hmem
           exact s.owned old hold (by rwa [keep_ne_zero hview] at hview) }, false)
    else
      ({ renderer := 0
         views := kept
         owned := fun view hmem hview => absurd (any_eq_true.mpr ⟨view, hmem, by simpa using hview⟩) h }, true)

/-- The views that the snapshot takes out of the ledger. -/
def released (pool : ViewPoolSnapshot) : List Nat :=
  if s.proves renderer pool then s.views.filter fun old => old != 0 && !pool.releasing old else []

/-- The view is in the ledger, as a view of the renderer. -/
def Holds (view : Nat) : Prop := view ≠ 0 ∧ view ∈ s.views ∧ s.renderer = renderer

/-- There is room for the views that are not in the ledger yet. -/
def takes (views : List Nat) : Bool :=
  renderer != 0 && (s.renderer == 0 || s.renderer == renderer) &&
    decide (((views.filter (· != 0)).toFinset \ s.views.toFinset).card ≤ s.views.count 0)

/-! ## Laws -/

section
variable {s : RetiredViewPool} {renderer other view old : Nat} {pool : ViewPoolSnapshot}
variable {rest views : List Nat}

theorem mem_occupy (h : 0 ∈ views) : view ∈ occupy view views := by
  induction views with
  | nil => exact absurd h not_mem_nil
  | cons x rest ih =>
    unfold occupy
    by_cases hx : x = 0
    · rw [if_pos hx]
      exact mem_cons_self
    rw [if_neg hx]
    refine mem_cons_of_mem _ (ih ?_)
    rcases mem_cons.mp h with h0 | h0
    · exact absurd h0.symm hx
    · exact h0

theorem mem_occupy_of_mem (hold : old ≠ 0) (h : old ∈ views) : old ∈ occupy view views := by
  induction views with
  | nil => exact absurd h not_mem_nil
  | cons x rest ih =>
    unfold occupy
    by_cases hx : x = 0
    · rw [if_pos hx]
      rcases mem_cons.mp h with rfl | hmem
      · exact absurd hx hold
      · exact mem_cons_of_mem _ hmem
    rw [if_neg hx]
    rcases mem_cons.mp h with rfl | hmem
    · exact mem_cons_self
    · exact mem_cons_of_mem _ (ih hmem)

theorem count_occupy (hview : view ≠ 0) : (occupy view views).count 0 = views.count 0 - 1 := by
  induction views with
  | nil => rfl
  | cons x rest ih =>
    unfold occupy
    by_cases hx : x = 0
    · rw [if_pos hx, hx, count_cons_of_ne hview, count_cons_self, Nat.add_sub_cancel]
    · rw [if_neg hx, count_cons_of_ne hx, count_cons_of_ne hx, ih]

theorem refuses_eq_false (h : ¬s.refuses renderer view = true) :
    renderer ≠ 0 ∧ view ≠ 0 ∧ (s.renderer = 0 ∨ s.renderer = renderer) := by
  simpa [refuses, not_or, or_iff_not_imp_left, and_assoc] using h

theorem Holds.retain (h : s.Holds other old) : (s.retain renderer view).1.Holds other old := by
  obtain ⟨hold, hmem, rfl⟩ := h
  unfold retain
  split
  · exact ⟨hold, hmem, rfl⟩
  next hgood =>
  split
  · exact ⟨hold, hmem, rfl⟩
  split
  · rcases (refuses_eq_false hgood).2.2 with h0 | hsame
    · exact absurd h0 (s.owned old hmem hold)
    · exact ⟨hold, mem_occupy_of_mem hold hmem, hsame.symm⟩
  · exact ⟨hold, hmem, rfl⟩

/-- A view that was retained is in the ledger. -/
theorem holds_of_retain (h : (s.retain renderer view).2 = true) : (s.retain renderer view).1.Holds renderer view := by
  unfold retain at h ⊢
  split at h
  · cases h
  next hgood =>
  obtain ⟨-, hview, hsame⟩ := refuses_eq_false hgood
  rw [dif_neg hgood]
  split at h
  · next hmem =>
    rw [if_pos hmem]
    exact ⟨hview, hmem, hsame.resolve_left (s.owned view hmem hview)⟩
  next hmem =>
  rw [if_neg hmem]
  split at h
  · next hroom =>
    rw [if_pos hroom]
    exact ⟨hview, mem_occupy hroom, rfl⟩
  · cases h

theorem holds_pending (h : s.Holds other old) : s.pending = true := any_eq_true.mpr ⟨old, h.2.1, by simpa using h.1⟩

/-- A view leaves the ledger by a snapshot that proves its release alone. -/
theorem Holds.observe (h : s.Holds other old) :
    (s.observe renderer pool).1.Holds other old ∨ (renderer = other ∧ old ∈ s.released renderer pool) := by
  have hpending := holds_pending h
  obtain ⟨hold, hmem, rfl⟩ := h
  unfold observe
  rw [hpending]
  by_cases hproves : s.proves renderer pool = true
  · have hrenderer : renderer = s.renderer := by
      simp only [proves, Bool.and_eq_true, beq_iff_eq] at hproves
      exact hproves.1.1
    by_cases hreleasing : pool.releasing old = true
    · left
      have hkeep : keep pool old = old := if_pos hreleasing
      have hkept : old ∈ s.views.map (keep pool) := mem_map.mpr ⟨old, hmem, hkeep⟩
      have hany : (s.views.map (keep pool)).any (· != 0) = true := any_eq_true.mpr ⟨old, hkept, by simpa using hold⟩
      simp only [Bool.not_true, Bool.false_eq_true, if_false, hproves]
      rw [dif_pos hany]
      exact ⟨hold, hkept, rfl⟩
    right
    refine ⟨hrenderer, ?_⟩
    unfold released
    rw [if_pos hproves]
    exact mem_filter.mpr ⟨hmem, by simpa [hreleasing] using hold⟩
  left
  simp only [Bool.not_true, Bool.false_eq_true, if_false, hproves]
  exact ⟨hold, hmem, rfl⟩

/-- Where an observation is content, the ledger is empty. -/
theorem not_holds_of_observe (h : (s.observe renderer pool).2 = true) :
    ¬(s.observe renderer pool).1.Holds other old := by
  intro hholds
  have hpending := holds_pending hholds
  unfold observe at h hpending
  split at h
  · next hempty =>
    rw [if_pos hempty] at hpending
    rw [hpending] at hempty
    cases hempty
  next hsome =>
  rw [if_neg hsome] at hpending
  split at h
  · cases h
  next hproves =>
  rw [if_neg hproves] at hpending
  dsimp only at h hpending
  split at h
  · cases h
  next hnone =>
  rw [dif_neg hnone] at hpending
  exact hnone hpending

theorem takes_zero : s.takes renderer (0 :: rest) = s.takes renderer rest := by
  have hfilter : (0 :: rest).filter (· != 0) = rest.filter (· != 0) := filter_cons_of_neg (by simp)
  unfold takes
  rw [hfilter]

/-- With room, a view of the row is retained, and there is room for the others. -/
theorem takes_retain (h : s.takes renderer (view :: rest) = true)
    (hview : view ≠ 0) : (s.retain renderer view).2 = true ∧
      (s.retain renderer view).1.takes renderer rest = true := by
  simp only [takes, Bool.and_eq_true, bne_iff_ne, Bool.or_eq_true, beq_iff_eq, decide_eq_true_eq] at h ⊢
  obtain ⟨⟨hrenderer, hsame⟩, hroom⟩ := h
  have hgood : ¬s.refuses renderer view = true := by
    simp only [refuses, Bool.or_eq_true, Bool.and_eq_true, beq_iff_eq, bne_iff_ne]
    tauto
  have hfilter : (view :: rest).filter (· != 0) = view :: rest.filter (· != 0) :=
    filter_cons_of_pos (by simpa using hview)
  rw [hfilter, toFinset_cons] at hroom
  unfold retain
  rw [dif_neg hgood]
  by_cases hmem : view ∈ s.views
  · rw [if_pos hmem]
    refine ⟨rfl, ⟨hrenderer, hsame⟩, ?_⟩
    rwa [Finset.insert_sdiff_of_mem _ (mem_toFinset.mpr hmem)] at hroom
  rw [if_neg hmem]
  have hnew : view ∉ s.views.toFinset := fun h => hmem (mem_toFinset.mp h)
  rw [Finset.insert_sdiff_of_notMem _ hnew] at hroom
  have hzero : 0 ∈ s.views := by
    apply count_pos_iff.mp
    have := Finset.card_pos.mpr (Finset.insert_nonempty view ((rest.filter (· != 0)).toFinset \ s.views.toFinset))
    omega
  rw [if_pos hzero]
  refine ⟨rfl, ⟨hrenderer, .inr rfl⟩, ?_⟩
  dsimp only
  rw [count_occupy hview]
  -- the view that came in is one less that is still to come
  have hsub : (rest.filter (· != 0)).toFinset \ (occupy view s.views).toFinset ⊆
      (insert view ((rest.filter (· != 0)).toFinset \ s.views.toFinset)).erase view := by
    intro x hx
    obtain ⟨hx, hnot⟩ := Finset.mem_sdiff.mp hx
    rw [mem_toFinset] at hnot
    refine Finset.mem_erase.mpr ⟨?_, Finset.mem_insert_of_mem (Finset.mem_sdiff.mpr ⟨hx, ?_⟩)⟩
    · rintro rfl
      exact hnot (mem_occupy hzero)
    · intro hold
      have hx0 : x ≠ 0 := by simpa using (mem_filter.mp (mem_toFinset.mp hx)).2
      exact hnot (mem_occupy_of_mem hx0 (mem_toFinset.mp hold))
  have hcard := Finset.card_le_card hsub
  rw [Finset.card_erase_of_mem (Finset.mem_insert_self _ _)] at hcard
  omega

end

end RetiredViewPool

end taxi_camera.engine_camera
