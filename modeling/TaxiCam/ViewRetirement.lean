-- The retirement of a view: its gate is seen closed before the native removal.
-- src/camera/view_retirement.hpp. There are two slots, for any number of
-- entries. The history has every call and what it answered.
import TaxiCam.OwnedViews
import TaxiCam.SlotTables

namespace taxi_camera.native_camera.view_retirement

open engine_camera histories runs slot_tables

inductive Action
  | wait | close_gate | erase
deriving DecidableEq

structure Slot where
  owner : ManagerToken := {}
  id : EntryId := 0
  closed_update : Nat := 0

def Slot.key (slot : Slot) : ManagerToken × EntryId := (slot.owner, slot.id)

/-- No entry stands twice in the slots. -/
structure ViewRetirement where
  slots : Fin 2 → Slot := fun _ => {}
  apart : Apart ({}, 0) fun i => (slots i).key := by exact Apart.empty

/-- A complete and ready chain. -/
def chain_ready (view : InspectedView) : Bool :=
  view.complete && view.ready && view.status = .ready && view.view_address != 0 && view.node_address != 0 &&
    view.camera_address != 0 && decide (0 ≤ view.view_index) && decide (view.view_index < 8)

/-- A complete and ready chain whose gate is closed. -/
def shut (view : InspectedView) : Bool := chain_ready view && view.closed

namespace ViewRetirement

variable (s : ViewRetirement) (owner : ManagerToken) (id : EntryId)

def held : Option (Fin 2) := first fun i => (s.slots i).owner = owner && (s.slots i).id = id

def free : Option (Fin 2) := first fun i => (s.slots i).id = 0

def put (i : Fin 2) (slot : Slot) (h : slot.key = ({}, 0) ∨ ¬Holds (fun i => (s.slots i).key) slot.key) : ViewRetirement where
  slots := Function.update s.slots i slot
  apart := by
    have hkeys : (fun j => (Function.update s.slots i slot j).key) = Function.update (fun j => (s.slots j).key) i slot.key := by
      funext j
      exact Function.apply_update (fun _ slot => slot.key) s.slots i slot j
    rw [hkeys]
    exact s.apart.put h

def reset (slot : Option (Fin 2)) : ViewRetirement :=
  match slot with
  | none => s
  | some i => s.put i {} (.inl rfl)

theorem not_held (h : s.held owner id = none) : ¬Holds (fun i => (s.slots i).key) (owner, id) := by
  rintro ⟨i, hi⟩
  have hnone := first_none.mp h i
  simp only [Slot.key, Prod.mk.injEq] at hi
  simp [hi] at hnone

def observe (update : Nat) (view : InspectedView) : Action × ViewRetirement :=
  if !owner.valid || id == 0 then (.wait, s)
  else if !chain_ready view then (.wait, s.reset (s.held owner id))
  else if !view.closed then (.close_gate, s.reset (s.held owner id))
  else
    match h : s.held owner id with
    | none =>
      match s.free with
      | none => (.wait, s)
      | some i => (.wait, s.put i ⟨owner, id, update⟩ (.inr (s.not_held owner id h)))
    | some i =>
      if update < (s.slots i).closed_update then (.wait, s.reset (some i))
      else (if (s.slots i).closed_update < update then .erase else .wait, s)

def forget : ViewRetirement where
  slots := fun i => if (s.slots i).owner = owner ∧ (s.slots i).id = id then {} else s.slots i
  apart := by
    intro i j hkey hfree
    by_cases hi : (s.slots i).owner = owner ∧ (s.slots i).id = id
    · simp only [if_pos hi] at hfree
      exact absurd rfl hfree
    by_cases hj : (s.slots j).owner = owner ∧ (s.slots j).id = id
    · simp only [if_neg hi, if_pos hj] at hkey hfree
      exact absurd hkey hfree
    simp only [if_neg hi, if_neg hj] at hkey hfree
    exact s.apart i j hkey hfree

end ViewRetirement

/-! ## Histories -/

inductive Call
  | observe (owner : ManagerToken) (id : EntryId) (update : Nat) (view : InspectedView)
  | forget (owner : ManagerToken) (id : EntryId)
  | clear

/-- A call, and the answer of one that observes. -/
structure Event where
  call : Call
  answer : Action := .wait

/-- The retirement, and all that it was asked. -/
structure World where
  retirement : ViewRetirement := {}
  log : List Event := []

def step (w : World) : Call → World
  | .observe owner id update view =>
    let observed := w.retirement.observe owner id update view
    ⟨observed.2, w.log ++ [⟨.observe owner id update view, observed.1⟩]⟩
  | .forget owner id => ⟨w.retirement.forget owner id, w.log ++ [{ call := .forget owner id }]⟩
  | .clear => ⟨{}, w.log ++ [{ call := .clear }]⟩

/-- An event behind which an entry's gate has to be seen closed once more: a view of it that is not complete, ready and
closed, or that it was forgotten. -/
def breaks (owner : ManagerToken) (id : EntryId) (e : Event) : Bool :=
  match e.call with
  | .observe o i _ view => o = owner && i = id && !shut view
  | .forget o i => o = owner && i = id
  | .clear => true

/-- The entry's gate was seen closed in an update. -/
def SeenClosed (owner : ManagerToken) (id : EntryId) (update : Nat) (_ : List Event) (e : Event) : Prop :=
  ∃ view, e.call = .observe owner id update view ∧ shut view = true

/-- What an erase is answered for. -/
def Retires (before : List Event) (e : Event) : Prop :=
  e.answer = .erase → ∃ owner id update view, e.call = .observe owner id update view ∧ shut view = true ∧
    ∃ earlier < update, Since (breaks owner id) (SeenClosed owner id earlier) before

/-- Every slot in use has seen its entry's gate closed, and no view since that takes it back. -/
structure Good (w : World) : Prop where
  valid {i} : (w.retirement.slots i).id ≠ 0 → (w.retirement.slots i).owner.valid = true
  seen {i} : (w.retirement.slots i).id ≠ 0 → Since (breaks (w.retirement.slots i).owner (w.retirement.slots i).id)
    (SeenClosed (w.retirement.slots i).owner (w.retirement.slots i).id (w.retirement.slots i).closed_update) w.log
  retires : Explained Retires w.log

section
variable {w : World} {s : ViewRetirement} {owner : ManagerToken} {id : EntryId} {i : Fin 2}

theorem reset_slots {slot : Option (Fin 2)} (hused : ((s.reset slot).slots i).id ≠ 0) :
    slot ≠ some i ∧ (s.reset slot).slots i = s.slots i := by
  cases slot with
  | none => exact ⟨nofun, rfl⟩
  | some j =>
    by_cases hij : i = j
    · subst hij
      have hempty : (s.reset (some i)).slots i = {} := Function.update_self ..
      rw [hempty] at hused
      exact absurd rfl hused
    · exact ⟨fun h => hij (Option.some.inj h).symm, Function.update_of_ne hij ..⟩

theorem held_some (h : s.held owner id = some i) : (s.slots i).owner = owner ∧ (s.slots i).id = id := by
  have htest := first_some h
  simpa using htest

/-- The slot that is not the one found for an entry is another's. -/
theorem other_slot (hid : id ≠ 0) (h : s.held owner id ≠ some i) : ¬((s.slots i).owner = owner ∧ (s.slots i).id = id) := by
  rintro ⟨ho, hi⟩
  refine h (first_unique (by simp [ho, hi]) fun j hj => ?_)
  obtain ⟨hjo, hji⟩ : (s.slots j).owner = owner ∧ (s.slots j).id = id := by simpa using hj
  refine s.apart j i ?_ ?_
  · simp only [Slot.key, hjo, hji, ho, hi]
  · simp only [Slot.key, hji, ne_eq, Prod.mk.injEq, hid, and_false, not_false_eq_true]

/-- One call: each slot in use is as it was, and the call takes nothing back from it, or its gate was seen closed by it. -/
theorem Good.next (h : Good w) {e : Event} (he : Retires w.log e)
    (hslots : ∀ i, (s.slots i).id ≠ 0 →
      (s.slots i = w.retirement.slots i ∧ breaks (s.slots i).owner (s.slots i).id e = false) ∨
      ((s.slots i).owner.valid = true ∧ SeenClosed (s.slots i).owner (s.slots i).id (s.slots i).closed_update w.log e)) :
    Good ⟨s, w.log ++ [e]⟩ where
  valid {i} hused := by
    rcases hslots i hused with ⟨hsame, -⟩ | ⟨hvalid, -⟩
    · rw [hsame] at hused ⊢
      exact h.valid hused
    · exact hvalid
  seen {i} hused := by
    rcases hslots i hused with ⟨hsame, hkept⟩ | ⟨-, hseen⟩
    · rw [hsame] at hused hkept ⊢
      exact (h.seen hused).snoc hkept
    · exact Since.now hseen
  retires := explained_snoc h.retires he

theorem not_broken {update : Nat} {view : InspectedView} {answer : Action} {o : ManagerToken} {j : EntryId}
    (h : shut view = true ∨ ¬(o = owner ∧ j = id)) : breaks o j ⟨.observe owner id update view, answer⟩ = false := by
  unfold breaks
  rcases h with hshut | hother
  · simp [hshut]
  by_contra hbreaks
  simp only [Bool.not_eq_false, Bool.and_eq_true, decide_eq_true_eq] at hbreaks
  exact hother ⟨hbreaks.1.1.symm, hbreaks.1.2.symm⟩

theorem Good.observe (h : Good w) (update : Nat) (view : InspectedView) :
    Good (step w (.observe owner id update view)) := by
  show Good ⟨(w.retirement.observe owner id update view).2,
    w.log ++ [⟨.observe owner id update view, (w.retirement.observe owner id update view).1⟩]⟩
  have hreset (hid : id ≠ 0) {answer : Action} (hanswer : answer ≠ .erase) :
      Good ⟨w.retirement.reset (w.retirement.held owner id), w.log ++ [⟨.observe owner id update view, answer⟩]⟩ := by
    refine h.next (fun herase => absurd herase hanswer) fun i hused => .inl ?_
    obtain ⟨hother, hsame⟩ := reset_slots hused
    exact ⟨hsame, not_broken (.inr (hsame ▸ other_slot hid hother))⟩
  unfold ViewRetirement.observe
  split
  · rename_i hnone
    refine h.next nofun fun i hused => .inl ⟨rfl, not_broken (.inr ?_)⟩
    rintro ⟨rfl, rfl⟩
    simp [h.valid hused, hused] at hnone
  rename_i hvalid
  obtain ⟨howner, hid⟩ : owner.valid = true ∧ id ≠ 0 := by simpa using hvalid
  split
  · exact hreset hid nofun
  rename_i hready
  split
  · exact hreset hid nofun
  rename_i hclosed
  have hshut : shut view = true := by
    simp only [Bool.not_eq_true', Bool.not_eq_false] at hready hclosed
    rw [shut, hready, hclosed, Bool.and_self]
  split
  · split
    · exact h.next nofun fun i _ => .inl ⟨rfl, not_broken (.inl hshut)⟩
    rename_i j hfree
    refine h.next nofun fun i hused => ?_
    by_cases hij : i = j
    · subst hij
      right
      rw [show (w.retirement.put i ⟨owner, id, update⟩ _).slots i = ⟨owner, id, update⟩ from Function.update_self ..]
      exact ⟨howner, view, rfl, hshut⟩
    · exact .inl ⟨Function.update_of_ne hij .., not_broken (.inl hshut)⟩
  rename_i j hheld
  obtain ⟨hjo, hji⟩ := held_some hheld
  split
  · rw [← hheld]
    exact hreset hid nofun
  refine h.next (fun herase => ?_) fun i _ => .inl ⟨rfl, not_broken (.inl hshut)⟩
  split at herase
  · rename_i hearlier
    refine ⟨owner, id, update, view, rfl, hshut, _, hearlier, ?_⟩
    have hseen := h.seen (i := j) (hji ▸ hid)
    rwa [hjo, hji] at hseen
  · cases herase

theorem Good.step (h : Good w) (c : Call) : Good (step w c) := by
  cases c with
  | observe owner id update view => exact h.observe update view
  | forget owner id =>
    refine h.next nofun fun i hused => .inl ?_
    have hslot : ¬((w.retirement.slots i).owner = owner ∧ (w.retirement.slots i).id = id) := by
      intro hmatch
      exact hused (congrArg Slot.id (if_pos hmatch))
    have hsame : (w.retirement.forget owner id).slots i = w.retirement.slots i := if_neg hslot
    refine ⟨hsame, ?_⟩
    rw [hsame]
    by_contra hbreaks
    simp only [breaks, Bool.not_eq_false, Bool.and_eq_true, decide_eq_true_eq] at hbreaks
    exact hslot ⟨hbreaks.1.symm, hbreaks.2.symm⟩
  | clear => exact h.next nofun fun _ hused => absurd rfl hused

theorem Good.start : Good {} where
  valid hused := absurd rfl hused
  seen hused := absurd rfl hused
  retires := explained_nil

/-- An erase is answered behind an earlier update in which the entry's gate was closed, and every view of it since was
complete, ready and closed. -/
theorem retires (calls : List Call) : Explained Retires (run step ({} : World) calls).log := by
  have hone : ∀ (w : World) (c : Call), Good w → Good (view_retirement.step w c) := fun _ c h => h.step c
  exact (invariant hone calls Good.start).retires

end

end taxi_camera.native_camera.view_retirement
