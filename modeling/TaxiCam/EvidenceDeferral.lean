-- Evidence that takes the manager lock and evidence that waits in the deferred
-- ring, against what the recording threads reported: evidence_lock, defer,
-- apply_deferred_work and before_submission of
-- src/graphics/scene_capture_manager.cpp.
import TaxiCam.Runs
import TaxiCam.SourceEvidence
import TaxiCam.TicketQueue

namespace taxi_camera.SceneCaptureManager

open source_state ticket_queue List
open Function (update_of_ne update_self)
open Function (update)

/-! ## What was reported -/

/-- The evidence of a list since its last Reset, each piece with what the manager knew when it was
reported. `start` is the list as the Reset leaves it. -/
structure Reported where
  start : CommandList
  fresh : start.source_effects = {} ∧ start.source_touched = false
  evidence : List (Sources × Evidence) := []

/-- The list with the evidence in the order in which it was reported. -/
def Reported.list (reported : Reported) : CommandList :=
  reported.evidence.foldl (fun item e => item.apply_evidence e.1 e.2) reported.start

/-- What the thread that makes the call has reported after it. -/
def report (sources : Sources) (work : DeferredWork) : Option Reported → Option Reported
  | none => none
  | some reported =>
    if reported.start.object_generation = work.generation then
      match work.kind with
      | .reset => some ⟨reported.start.retire sources, ⟨rfl, rfl⟩, []⟩
      | .destroy => none
      | .evidence e => some { reported with evidence := reported.evidence ++ [(sources, e)] }
    else some reported

/-! ## The manager, its ring and the recording threads -/

/-- The producer of an entry is the thread that pushes it. `issued` is the last number that the
bridge gave to a list. -/
structure Deferral where
  sources : Sources := {}
  lists : Nat → Option CommandList := fun _ => none
  deferred_work : Queue DeferredWork := {}
  issued : Nat := 0
  reported : Nat → Option Reported := fun _ => none

namespace Deferral

/-- The thread is between the two steps of a push. -/
def writing (s : Deferral) (thread : Nat) : Bool :=
  s.deferred_work.entries.any fun e => e.producer == thread && !e.written

/-- The thread can make the call: it is not in a push, and the list has been registered. -/
def calls (s : Deferral) (thread : Nat) (work : DeferredWork) : Bool :=
  !s.writing thread && decide (work.generation ≤ s.issued)

/-- The drain, which every holder of the lock runs first. -/
def apply_deferred_work (s : Deferral) : Deferral :=
  { s with
    lists := deliver DeferredWork.native (take s.sources) s.lists s.deferred_work.ready
    deferred_work := s.deferred_work.drained }

def note_report (s : Deferral) (work : DeferredWork) : Deferral :=
  let reported := report s.sources work (s.reported work.native)
  { s with reported := update s.reported work.native reported }

/-- The call of a thread that has the lock. -/
def apply_directly (s : Deferral) (work : DeferredWork) : Deferral :=
  let item := take s.sources work (s.lists work.native)
  { s with lists := update s.lists work.native item }

/-- The first step of the push of a thread that has not got the lock. -/
def defer (s : Deferral) (thread : Nat) (work : DeferredWork) : Deferral :=
  { s with deferred_work := s.deferred_work.reserve thread work }

def is_draw (work : DeferredWork) : Bool :=
  match work.kind with
  | .evidence (.draw _ _ _) => true
  | _ => false

/-- A call that recording threads make. A draw that has not got the lock is counted and dropped,
so it is no report. -/
def call (s : Deferral) (thread : Nat) (work : DeferredWork) (contended : Bool) : Deferral :=
  if s.calls thread work = false then s
  else if !contended then (s.note_report work).apply_deferred_work.apply_directly work
  else if is_draw work then s
  else (s.note_report work).defer thread work

def publish (s : Deferral) (thread : Nat) : Deferral :=
  { s with deferred_work := s.deferred_work.publish thread }

/-- The list that `register_list` puts at the address. -/
def admitted (s : Deferral) (device_key generation : Nat) (observed : Bool) : CommandList where
  device_key := device_key
  object_generation := generation
  session_generation := (s.sources.session_generation device_key).getD 0
  awaiting_native_reset := !observed

/-- The number of a list is larger than the numbers before it. -/
def register_list (s : Deferral) (native device_key generation : Nat) (observed : Bool) :
    Deferral :=
  if generation ≤ s.issued then s
  else
    let drained := s.apply_deferred_work
    let item := s.admitted device_key generation observed
    { drained with
      lists := update drained.lists native (some item)
      issued := generation
      reported := update s.reported native (some ⟨item, ⟨rfl, rfl⟩, []⟩) }

inductive Op
  | call (thread : Nat) (work : DeferredWork) (contended : Bool)
  | publish (thread : Nat)
  | register_list (native device_key generation : Nat) (observed : Bool)
  | hold
  | change (sources : Sources)
  | execute (natives : List Nat)

/-- A batch reads the lists that `before_submission` finds after the drain. -/
def step (s : Deferral) : Op → Deferral
  | .call thread work contended => s.call thread work contended
  | .publish thread => s.publish thread
  | .register_list native device_key generation observed =>
    s.register_list native device_key generation observed
  | .hold | .execute _ => s.apply_deferred_work
  | .change sources => { s with sources }

/-- The recordings that an ordered batch applies, in order. -/
def applied (s : Deferral) (natives : List Nat) : List Recording :=
  natives.filterMap fun native => (s.lists native).bind fun item =>
    if item.source_touched then some item.source_effects else none

/-! ## What a batch should find, and what it takes -/

/-- The call is about an object that is no longer at its address. -/
def stale (s : Deferral) (work : DeferredWork) : Bool :=
  match s.reported work.native with
  | some reported => reported.start.object_generation != work.generation
  | none => false

/-- A batch finds every list of it as it was reported since its last Reset, and leaves nothing of
it in the ring. -/
def Faithful (s : Deferral) : Op → Prop
  | .execute natives => ∀ native ∈ natives,
    s.apply_deferred_work.lists native = (s.reported native).map Reported.list ∧
      ∀ e ∈ s.apply_deferred_work.deferred_work.entries,
        e.value.native = native → s.stale e.value = true
  | _ => True

/-- No thread keeps, by an entry that it has reserved and not written, an earlier call of the list
in the ring when a later one, or a batch, takes the lock; and what the manager knows does not
change what a call in the ring says. -/
def Unhindered (s : Deferral) : Op → Prop
  | .call thread work contended =>
    s.calls thread work = true → contended = false → work.kind ≠ .destroy →
      ∀ e ∈ s.deferred_work.waiting,
        e.value.native = work.native → e.value.generation ≠ work.generation
  | .change sources => ∀ e ∈ s.deferred_work.entries, ∀ list,
    take sources e.value list = take s.sources e.value list
  | .execute natives => ∀ native ∈ natives, ∀ e ∈ s.deferred_work.waiting,
    e.value.native = native → s.stale e.value = true
  | .publish _ | .register_list _ _ _ _ | .hold => True

end Deferral

/-! ## Reports -/

theorem Reported.sameObject (reported : Reported) : CommandList.SameObject reported.start reported.list :=
  CommandList.sameObject_foldl (fun _ (e : Sources × Evidence) => CommandList.sameObject_evidence e.2) _

@[simp] theorem Reported.object_generation_list (reported : Reported) :
    reported.list.object_generation = reported.start.object_generation :=
  reported.sameObject.object_generation

/-- A report does to the list what the call does. -/
theorem list_report (sources : Sources) (work : DeferredWork) (reported : Option Reported) :
    (report sources work reported).map Reported.list = take sources work (reported.map Reported.list) := by
  cases reported with
  | none => rfl
  | some reported =>
    rw [Option.map_some]
    by_cases hg : reported.start.object_generation = work.generation
    · rw [take_of_eq (by rw [reported.object_generation_list, hg])]
      unfold report
      dsimp only
      rw [if_pos hg]
      cases hk : work.kind with
      | reset => exact congrArg some (reported.sameObject.retire sources).symm
      | destroy => rfl
      | evidence e =>
        simp only [CommandList.apply_work, Option.map_some, Reported.list, foldl_append, foldl_cons, foldl_nil]
    rw [take_of_ne (by rw [reported.object_generation_list]; exact hg)]
    unfold report
    dsimp only
    rw [if_neg hg, Option.map_some]

/-! ## Calls that wait for one address -/

section
variable {sources : Sources} {works : List DeferredWork} {item : CommandList}
  {list : Option CommandList}

/-- The list after the calls, in order. -/
def take_all (sources : Sources) (works : List DeferredWork) (list : Option CommandList) :
    Option CommandList := works.foldl (fun list work => take sources work list) list

theorem take_all_none : take_all sources works none = none := by
  induction works with
  | nil => rfl
  | cons work rest ih => exact ih

theorem take_all_of_ne (h : ∀ work ∈ works, item.object_generation ≠ work.generation) :
    take_all sources works (some item) = some item := by
  induction works with
  | nil => rfl
  | cons work rest ih =>
    unfold take_all
    rw [foldl_cons, take_of_ne (h work mem_cons_self)]
    exact ih fun w hw => h w (mem_cons_of_mem _ hw)

theorem object_generation_take_all {later : CommandList} (h : take_all sources works (some item) = some later) :
    later.object_generation = item.object_generation := by
  induction works generalizing item with
  | nil => rw [← Option.some.inj h]
  | cons work rest ih =>
    unfold take_all at h
    rw [foldl_cons] at h
    cases htaken : take sources work (some item) with
    | none =>
      rw [htaken] at h
      exact absurd (take_all_none.symm.trans h) (Option.some_ne_none later).symm
    | some taken =>
      rw [htaken] at h
      exact (ih h).trans (object_generation_take htaken)

/-- A list that is destroyed is gone, in front of what waits and behind it. -/
theorem take_destroy_comm {work other : DeferredWork} (hk : work.kind = .destroy) :
    take sources other (take sources work list) = take sources work (take sources other list) := by
  by_cases hne : work.generation = other.generation
  · cases list with
    | none => rfl
    | some item =>
      by_cases hg : item.object_generation = work.generation
      · have hgone (later : CommandList) (hl : later.object_generation = work.generation) :
            take sources work (some later) = none := by
          rw [take_of_eq hl, hk]
          rfl
        rw [hgone item hg, take_none]
        cases htaken : take sources other (some item) with
        | none => rfl
        | some taken => exact (hgone taken ((object_generation_take htaken).trans hg)).symm
      · rw [take_of_ne hg, take_of_ne (hne ▸ hg), take_of_ne hg]
  · exact take_comm hne

/-- A call passes the calls that wait, if it destroys the list or they are about other objects. -/
theorem take_all_comm {work : DeferredWork} (h : work.kind ≠ .destroy → ∀ w ∈ works, w.generation ≠ work.generation) :
    take_all sources works (take sources work list) = take sources work (take_all sources works list) := by
  induction works generalizing list with
  | nil => rfl
  | cons w rest ih =>
    have hone : take sources w (take sources work list) = take sources work (take sources w list) := by
      by_cases hk : work.kind = .destroy
      · exact take_destroy_comm hk
      · exact take_comm (h hk w mem_cons_self).symm
    unfold take_all
    rw [foldl_cons, foldl_cons, hone]
    exact ih fun hk x hx => h hk x (mem_cons_of_mem _ hx)

end

/-! ## The invariant -/

namespace Deferral

variable {s : Deferral}

/-- The calls on an address that are in the ring. -/
def pending (s : Deferral) (native : Nat) : List DeferredWork :=
  (s.deferred_work.entries.map (·.value)).filter fun work => work.native = native

variable {work : DeferredWork} {native : Nat}

theorem mem_pending (h : work ∈ s.pending native) :
    ∃ e ∈ s.deferred_work.entries, e.value = work ∧ e.value.native = native := by
  obtain ⟨hmem, hn⟩ := mem_filter.mp h
  obtain ⟨e, he, rfl⟩ := mem_map.mp hmem
  exact ⟨e, he, rfl, by simpa using hn⟩

/-- The lists are what was reported once the calls in the ring are applied, and those are calls
on lists that were registered. -/
structure Sound (s : Deferral) : Prop where
  agrees : ∀ native, take_all s.sources (s.pending native) (s.lists native) =
    (s.reported native).map Reported.list
  registered : ∀ e ∈ s.deferred_work.entries, e.value.generation ≤ s.issued

theorem sound_initial : Sound {} where
  agrees _ := rfl
  registered _ h := by cases h

/-- The drain applies the calls in front of those that it leaves. -/
theorem pending_split (s : Deferral) (native : Nat) :
    s.pending native = (s.deferred_work.ready.filter fun work => work.native = native) ++
      s.apply_deferred_work.pending native := by
  unfold pending
  rw [← s.deferred_work.ready_append_waiting, filter_append]
  rfl

theorem Sound.apply_deferred_work (h : s.Sound) : s.apply_deferred_work.Sound := by
  refine ⟨fun native => ?_, fun e he => h.registered e (Queue.mem_of_mem_waiting he)⟩
  have hagrees := h.agrees native
  rw [pending_split, take_all, foldl_append] at hagrees
  have hlist : s.apply_deferred_work.lists native =
      take_all s.sources (s.deferred_work.ready.filter fun work => work.native = native)
        (s.lists native) := deliver_at _ _ _ _ _
  rw [hlist]
  exact hagrees

/-- A report that is put at the end of the ring. -/
theorem Sound.defer (h : s.Sound) {thread : Nat} (hissued : work.generation ≤ s.issued) :
    ((s.note_report work).defer thread work).Sound := by
  constructor
  · intro native
    have hagrees := h.agrees native
    have hpending : ((s.note_report work).defer thread work).pending native =
        s.pending native ++ if work.native = native then [work] else [] := by
      unfold pending
      change (((s.deferred_work.reserve thread work).entries).map (·.value)).filter _ = _
      rw [Queue.entries_reserve, map_append, filter_append]
      by_cases hn : work.native = native <;> simp [hn]
    rw [hpending]
    change take_all s.sources _ (s.lists native) = (update s.reported work.native _ native).map Reported.list
    unfold take_all at hagrees ⊢
    rw [foldl_append, hagrees]
    by_cases hn : work.native = native
    · subst hn
      rw [if_pos rfl, update_self, list_report, foldl_cons, foldl_nil]
    · rw [if_neg hn, update_of_ne (Ne.symm hn), foldl_nil]
  · intro e he
    rcases mem_append.mp he with he | he
    · exact h.registered e he
    rw [mem_singleton.mp he]
    exact hissued

/-- A call that takes the lock, when nothing of its list is left in the ring. -/
theorem Sound.apply_directly (h : s.Sound)
    (hfree : work.kind ≠ .destroy → ∀ e ∈ s.deferred_work.entries,
      e.value.native = work.native → e.value.generation ≠ work.generation) :
    ((s.note_report work).apply_directly work).Sound := by
  refine ⟨fun native => ?_, h.registered⟩
  have hagrees := h.agrees native
  change take_all s.sources (s.pending native) (update s.lists work.native _ native) =
    (update s.reported work.native _ native).map Reported.list
  by_cases hn : work.native = native
  · subst hn
    rw [update_self, update_self, list_report, ← hagrees]
    apply take_all_comm
    intro hk w hw
    obtain ⟨e, he, rfl, hnative⟩ := mem_pending hw
    exact hfree hk e he hnative
  · rw [update_of_ne (Ne.symm hn), update_of_ne (Ne.symm hn), hagrees]

theorem Sound.publish (h : s.Sound) (thread : Nat) : (s.publish thread).Sound := by
  constructor
  · intro native
    have hpending : (s.publish thread).pending native = s.pending native := by
      unfold pending
      rw [← Queue.values_publish s.deferred_work thread]
      rfl
    rw [hpending]
    exact h.agrees native
  · intro e he
    obtain ⟨e', he', rfl⟩ := mem_map.mp he
    have hold := h.registered e' he'
    split <;> exact hold

/-- A new object: what is in the ring is about the objects before it. -/
theorem Sound.register_list (h : s.Sound) (native device_key generation : Nat) (observed : Bool) :
    (s.register_list native device_key generation observed).Sound := by
  unfold Deferral.register_list
  split
  · exact h
  rename_i hnew
  have hdrained := h.apply_deferred_work
  constructor
  · intro other
    have hagrees := hdrained.agrees other
    dsimp only
    by_cases hn : other = native
    · subst hn
      rw [update_self, update_self]
      apply take_all_of_ne
      intro work hw
      obtain ⟨e, he, rfl, -⟩ := mem_pending hw
      have hle := hdrained.registered e he
      change generation ≠ e.value.generation
      change e.value.generation ≤ s.issued at hle
      omega
    rw [update_of_ne hn, update_of_ne hn]
    exact hagrees
  · intro e he
    have hle := hdrained.registered e he
    change e.value.generation ≤ s.issued at hle
    dsimp only
    omega

/-- Knowledge that changes what no call in the ring says. -/
theorem Sound.change (h : s.Sound) {sources : Sources}
    (hsame : ∀ e ∈ s.deferred_work.entries, ∀ list, take sources e.value list = take s.sources e.value list) :
    Sound { s with sources } := by
  refine ⟨fun native => ?_, h.registered⟩
  rw [← h.agrees native]
  apply foldl_ext
  intro list work hw
  obtain ⟨e, he, rfl, -⟩ := mem_pending hw
  exact hsame e he list

theorem Sound.call (h : s.Sound) (thread : Nat) (work : DeferredWork) (contended : Bool)
    (hfree : s.Unhindered (.call thread work contended)) :
    (s.call thread work contended).Sound := by
  unfold Deferral.call
  split
  · exact h
  rename_i hcalls
  rw [Bool.not_eq_false] at hcalls
  have hissued : work.generation ≤ s.issued := by
    unfold calls at hcalls
    simp only [Bool.and_eq_true, decide_eq_true_eq] at hcalls
    exact hcalls.2
  cases contended with
  | false => exact h.apply_deferred_work.apply_directly (hfree hcalls rfl)
  | true =>
    simp only [Bool.not_true, Bool.false_eq_true, if_false]
    split
    · exact h
    · exact h.defer hissued

theorem Sound.step (h : s.Sound) (op : Op) (hfree : s.Unhindered op) : (s.step op).Sound := by
  cases op with
  | call thread work contended => exact h.call thread work contended hfree
  | publish thread => exact h.publish thread
  | register_list native device_key generation observed =>
    exact h.register_list native device_key generation observed
  | hold => exact h.apply_deferred_work
  | execute natives => exact h.apply_deferred_work
  | change sources => exact h.change hfree

/-! ## The law -/

/-- A list of which the ring holds nothing is the list that was reported. -/
theorem Sound.list_eq (h : s.Sound)
    (hfree : ∀ e ∈ s.deferred_work.entries, e.value.native = native → s.stale e.value = true) :
    s.lists native = (s.reported native).map Reported.list := by
  have hagrees := h.agrees native
  cases hr : s.reported native with
  | none =>
    have hnone : s.pending native = [] := by
      apply eq_nil_iff_forall_not_mem.mpr
      intro work hw
      obtain ⟨e, he, rfl, hn⟩ := mem_pending hw
      have hstale := hfree e he hn
      unfold stale at hstale
      rw [hn, hr] at hstale
      cases hstale
    rw [hnone, hr] at hagrees
    exact hagrees
  | some reported =>
    rw [hr, Option.map_some] at hagrees
    cases hl : s.lists native with
    | none =>
      rw [hl, take_all_none] at hagrees
      cases hagrees
    | some item =>
      rw [hl] at hagrees
      have hgen := object_generation_take_all hagrees
      rw [reported.object_generation_list] at hgen
      have hsame : take_all s.sources (s.pending native) (some item) = some item := by
        apply take_all_of_ne
        intro work hw
        obtain ⟨e, he, rfl, hn⟩ := mem_pending hw
        have hstale := hfree e he hn
        unfold stale at hstale
        rw [hn, hr] at hstale
        rw [← hgen]
        simpa using hstale
      rw [Option.map_some, ← hagrees, hsame]

theorem Sound.faithful (h : s.Sound) (op : Op) (hfree : s.Unhindered op) : s.Faithful op := by
  cases op with
  | execute natives =>
    intro native hn
    exact ⟨h.apply_deferred_work.list_eq (hfree native hn), hfree native hn⟩
  | call | publish | register_list | hold | change => trivial

/-- In every run in which no entry that is not written keeps a call of a list in the ring while a
later call of the list or a batch takes the lock, every ordered batch applies to each list of it
what was reported since its last Reset, in that order, and nothing of the list waits in the ring. -/
theorem batches_apply_what_was_reported (ops : List Op)
    (hfree : runs.Guarded step Unhindered {} ops) : runs.Guarded step Faithful {} ops := by
  have hstep (t : Deferral) (op : Op) (ht : t.Sound) (hop : t.Unhindered op) :
      t.Faithful op ∧ (t.step op).Sound := ⟨ht.faithful op hop, ht.step op hop⟩
  exact runs.guarded_of_invariant hstep ops sound_initial hfree

/-- Source 9 is known on device 1. -/
def known : Sources where
  candidates := fun resource => if resource = 9 then some ⟨1, 5⟩ else none
  session_generation := fun key => if key = 1 then some 1 else none

/-- The source enters, or leaves, the state of a render target on the list at an address, whose
number is the address. -/
def transition (native state_after : Nat) : DeferredWork :=
  ⟨.evidence (.legacy_barrier (.transition 9 state_after 0 0)), native, native⟩

/-- Lists 1 and 2 are registered. -/
def registered_lists : List Op :=
  [.change known, .register_list 1 1 1 true, .register_list 2 1 2 true]

/-- The first barrier of list 1 waits in the ring, and the drain of the second takes it. -/
theorem barrier_drained_in_time :
    let ops := registered_lists ++ [.call 1 (transition 1 4) true, .publish 1,
      .call 1 (transition 1 8) false, .execute [1]]
    (runs.run step {} ops).applied [1] = [{ effects := [⟨⟨9, 5⟩, .legacy_rt, 0⟩, ⟨⟨9, 5⟩, .other, 0⟩] }] ∧
    runs.Guarded step Faithful {} ops := by
  intro ops
  refine ⟨by decide +kernel, ?_⟩
  apply batches_apply_what_was_reported
  refine ⟨?_, trivial, trivial, ?_, trivial, ?_, ?_, trivial⟩
  · intro e he
    cases he
  · intro _ hlock
    cases hlock
  · intro _ _ _ e he
    exact absurd he not_mem_nil
  · intro native _ e he
    exact absurd he not_mem_nil

/-- Thread 2 has reserved an entry and not written it: the first barrier of list 1 waits behind it,
and the second is applied in front of the first. -/
theorem barrier_overtaken :
    let ops := registered_lists ++ [.call 2 (transition 2 4) true, .call 1 (transition 1 4) true,
      .publish 1, .call 1 (transition 1 8) false, .publish 2, .execute [1]]
    (runs.run step {} ops).applied [1] = [{ effects := [⟨⟨9, 5⟩, .other, 0⟩, ⟨⟨9, 5⟩, .legacy_rt, 0⟩] }] ∧
    ¬ runs.Guarded step Faithful {} ops := by
  intro ops
  refine ⟨by decide +kernel, fun h => ?_⟩
  have hbatch := (h.2.2.2.2.2.2.2.2.1 1 mem_cons_self).1
  exact absurd hbatch (by decide +kernel)

end Deferral

end taxi_camera.SceneCaptureManager
