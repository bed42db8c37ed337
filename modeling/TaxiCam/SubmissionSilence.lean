-- Recordings that were refused: every question that names one is answered by
-- nothing, alone and in any batch, until a reset that was observed advances its
-- generation.
import TaxiCam.SubmissionStates

namespace taxi_camera.standalone

open PfdSubmissionProof ResourceStates List

/-! ## The questions by the number of a slot -/

namespace PfdSubmissionProof

def site_at (p : PfdSubmissionProof) (test : Slot → Bool) (index generation : Nat) : Candidate :=
  match p.slots[index]? with
  | some slot =>
    if test slot then ⟨slot.key, generation, slot.first_before, slot.after, slot.subresource⟩ else {}
  | none => {}

def candidate_at (p : PfdSubmissionProof) (index generation : Nat) : Candidate :=
  if p.complete generation && p.barrier_only then
    p.site_at (fun slot => slot.seen && slot.exit) index generation
  else {}

def prefix_candidate_at (p : PfdSubmissionProof) (index generation : Nat) : Candidate :=
  if p.complete generation then p.site_at (fun slot => slot.seen && slot.prefix_exit) index generation
  else {}

def suffix_candidate_at (p : PfdSubmissionProof) (index generation : Nat) : Candidate :=
  if p.complete generation then p.site_at p.suffix_site index generation else {}

def activity_candidate_at (p : PfdSubmissionProof) (index generation : Nat) : Candidate :=
  if p.complete generation then p.site_at (fun slot => slot.seen && slot.leading_exit) index generation
  else {}

structure PrefixRefusal where
  key : Key := {}
  operation : Nat := UINT_MAX
deriving DecidableEq

def prefix_refusal (p : PfdSubmissionProof) (index generation : Nat) : PrefixRefusal :=
  if p.complete generation then
    match p.slots[index]? with
    | some slot =>
      if slot.seen && slot.prefix_blocker != UINT_MAX then ⟨slot.key, slot.prefix_blocker⟩ else {}
    | none => {}
  else {}

end PfdSubmissionProof

def batch_candidate (batch : List Recording) (after_list : Nat) (key : Key) : Candidate :=
  match batch[after_list]? with
  | some r => if batch_allows batch then r.proof.candidate key r.generation else {}
  | none => {}

/-! ## Events -/

/-- What can be called on a ledger. -/
inductive LedgerEvent
  | reset (generation : Nat) (observed : Bool)
  | invalidate (reason : Refusal)
  | close (generation : Nat) (succeeded : Bool)
  | report (r : Report)

def LedgerEvent.apply (p : PfdSubmissionProof) : LedgerEvent → PfdSubmissionProof
  | .reset generation observed => p.reset generation observed
  | .invalidate reason => p.invalidate reason
  | .close generation succeeded => p.close generation succeeded
  | .report r => p.report r

/-- The reset that a refused ledger waits for. -/
def LedgerEvent.Admits (p : PfdSubmissionProof) : LedgerEvent → Prop
  | .reset generation observed => generation ≠ 0 ∧ generation > p.recording ∧ observed = true
  | _ => False

/-- A transition that the ledger refuses: a split barrier or one of a subresource that it does not
model, one inside a pass or of no display, one to the state it is from, a reused resource, a broken
chain, and a display more than it can prove. -/
def BadTransition (p : PfdSubmissionProof) (key : Key) (before after : ResourceStates)
    (subresource flags : Nat) : Prop :=
  p.active_pass = true ∨ key.named = false ∨ flags ≠ BARRIER_FLAG_NONE ∨
    (subresource ≠ 0 ∧ subresource ≠ ALL_SUBRESOURCES) ∨ before = after ∨
    (∃ slot, p.holder key = some slot ∧
      (slot.key ≠ key ∨ (slot.seen = true ∧ slot.after ≠ before))) ∨
    (p.holder key = none ∧ maximum_resources ≤ p.slots.length)

/-- A noted write that the ledger refuses. -/
def BadWrite (p : PfdSubmissionProof) (key : Key) : Prop :=
  key.named = true ∧ ((∃ slot, p.holder key = some slot ∧ slot.key ≠ key) ∨
    (p.holder key = none ∧ p.slots.length = maximum_resources))

/-- What invalidates a recording. -/
inductive LedgerFault (p : PfdSubmissionProof) : LedgerEvent → Prop
  | unknown (reason : Refusal) : LedgerFault p (.invalidate reason)
  | shut (r : Report) : p.is_open = false → LedgerFault p (.report r)
  | transition (key : Key) (before after : ResourceStates) (subresource flags : Nat) :
    BadTransition p key before after subresource flags →
      LedgerFault p (.report (.observe_legacy key before after subresource flags))
  | pass (flags : BitVec 32) (ordinary : Bool) :
    p.active_pass = true ∨ ordinary = false ∨ flags &&& ~~~ALLOW_UAV_WRITES ≠ 0#32 →
      LedgerFault p (.report (.begin_pass flags ordinary))
  | no_pass : p.active_pass = false → LedgerFault p (.report .end_pass)
  | draw (key : Key) (operation : Nat) : BadWrite p key →
      LedgerFault p (.report (.note_render_target_write key operation))
  | clear (key : Key) (operation : Nat) : BadWrite p key →
      LedgerFault p (.report (.note_unordered_access_write key operation))
  | close (generation : Nat) (succeeded : Bool) :
    p.closed = true ∨ p.active_pass = true ∨ generation ≠ p.recording ∨ succeeded = false →
      LedgerFault p (.close generation succeeded)
  | reuse (generation : Nat) (observed : Bool) :
    generation = 0 ∨ generation ≤ p.recording ∨ observed = false →
      LedgerFault p (.reset generation observed)

section
variable {p : PfdSubmissionProof}

theorem known_of_shut (h : p.is_open = false) (r : Report) : (p.report r).known = false := by
  have hshut : (!p.is_open) = true := by rw [h]; rfl
  have hagain (q : PfdSubmissionProof) (reason : Refusal) : (!(q.invalidate reason).is_open) = true := rfl
  cases r with
  | gpu_work operation may => simp only [report, gpu_work, hshut, if_true, invalidate_known]
  | begin_pass flags ordinary => simp only [report, begin_pass, hshut, if_true, invalidate_known]
  | end_pass => simp only [report, end_pass, hshut, if_true, invalidate_known]
  | observe_legacy key before after subresource flags =>
    simp only [report, observe_legacy, hshut, if_true, invalidate_known]
  | compute_work operation =>
    simp only [report, compute_work, state_disjoint_work, gpu_work, hshut, if_true, hagain, invalidate_known]
  | note_render_target_write key operation =>
    simp only [report, note_render_target_write, note_carried_write, gpu_work, hshut, if_true,
      hagain, invalidate_known]
  | note_unordered_access_write key operation =>
    simp only [report, note_unordered_access_write, note_carried_write, compute_work,
      state_disjoint_work, gpu_work, hshut, if_true, hagain, invalidate_known]

variable {key : Key} {event : LedgerEvent} {q : PfdSubmissionProof}

theorem known_of_bad_transition {before after : ResourceStates}
    {subresource flags : Nat} (h : BadTransition p key before after subresource flags) :
    (p.observe_legacy key before after subresource flags).known = false := by
  unfold observe_legacy
  split
  · rfl
  split
  · rfl
  rename_i hgood
  simp only [Bool.or_eq_true, Bool.and_eq_true, bne_iff_ne, beq_iff_eq, Bool.not_eq_true',
    not_or, not_and_or, not_not] at hgood
  obtain ⟨⟨⟨⟨hpass, hkey⟩, hflags⟩, hsub⟩, hsame⟩ := hgood
  rcases h with h | h | h | ⟨h0, hall⟩ | h | ⟨slot, hslot, h⟩ | ⟨hnone, hlen⟩
  · exact absurd h hpass
  · exact absurd h hkey
  · exact absurd hflags h
  · exact (hsub.elim h0 hall).elim
  · exact absurd h hsame
  · simp only [hslot]
    split
    · rfl
    rename_i hown
    rw [bne_iff_ne, not_not] at hown
    obtain ⟨hseen, hafter⟩ := h.resolve_left (not_not.mpr hown)
    rw [if_pos (by simp [hseen, hafter])]
    rfl
  simp only [hnone]
  rw [if_neg (by omega)]
  rfl

/-! ## The keys of the slots -/

@[simp] theorem promoted_key (operation : Nat) (slot : Slot) :
    (promoted operation slot).key = slot.key := (promoted_refreshes operation slot).key

@[simp] theorem computed_key (operation : Nat) (slot : Slot) :
    (computed operation slot).key = slot.key := (computed_refreshes operation slot).key

theorem keys_gpu_work (p : PfdSubmissionProof) (operation : Nat) (may : Bool) :
    (p.gpu_work operation may).slots.map Slot.key = p.slots.map Slot.key := by
  unfold gpu_work
  split
  · rfl
  split
  · rw [map_map]
    exact map_congr_left fun slot _ => promoted_key operation slot
  · rfl

theorem keys_compute_work (p : PfdSubmissionProof) (operation : Nat) :
    (p.compute_work operation).slots.map Slot.key = p.slots.map Slot.key := by
  unfold compute_work
  dsimp only
  split
  · exact keys_gpu_work p operation false
  rw [map_map, ← keys_gpu_work p operation false]
  exact map_congr_left fun slot _ => computed_key operation slot

/-- The holder of a resource is read off the keys. -/
theorem holder_of_keys (hq : q.slots.map Slot.key = p.slots.map Slot.key) (key : Key) :
    (q.holder key).map Slot.key = (p.holder key).map Slot.key := by
  have hfind (r : PfdSubmissionProof) : (r.holder key).map Slot.key =
      (r.slots.map Slot.key).find? (fun k => k.resource == key.resource) := by
    rw [find?_map]
    rfl
  rw [hfind, hfind, hq]

theorem known_of_bad_write (state : ResourceStates)
    (operation : Nat) (hq : q.slots.map Slot.key = p.slots.map Slot.key) (h : BadWrite p key) :
    (q.note_carried_write key state operation).known = false := by
  obtain ⟨hnamed, h⟩ := h
  have hlen : q.slots.length = p.slots.length := by
    simpa using congrArg length hq
  unfold note_carried_write
  split
  · rfl
  rw [if_neg (by simp [hnamed])]
  rcases h with ⟨slot, hslot, hown⟩ | ⟨hnone, hfull⟩
  · have hholder := holder_of_keys hq key
    rw [hslot, Option.map_some, Option.map_eq_some_iff] at hholder
    obtain ⟨t, ht, hkey⟩ := hholder
    simp only [ht]
    rw [if_pos (by simp [hkey, hown])]
    rfl
  have hholder := holder_of_keys hq key
  rw [hnone, Option.map_none, Option.map_eq_none_iff] at hholder
  simp only [hholder]
  rw [if_pos (by simp [hlen, hfull])]
  rfl

/-- What invalidates a recording leaves a ledger that does not know it. -/
theorem known_of_ledgerFault (h : LedgerFault p event) : (event.apply p).known = false := by
  cases h with
  | unknown reason => rfl
  | shut r hshut => exact known_of_shut hshut r
  | transition key before after subresource flags hbad => exact known_of_bad_transition hbad
  | pass flags ordinary hbad =>
    simp only [LedgerEvent.apply, report, begin_pass]
    split
    · rfl
    rename_i hopen
    have hpass : (p.gpu_work 68).active_pass = p.active_pass := by
      unfold gpu_work
      rw [if_neg hopen]
      rfl
    rw [hpass, if_pos (by simpa [or_assoc] using hbad)]
    rfl
  | no_pass hpass =>
    simp only [LedgerEvent.apply, report, end_pass]
    split
    · rfl
    rw [if_pos (by simp [hpass])]
    rfl
  | draw key operation hbad =>
    exact known_of_bad_write RENDER_TARGET operation (keys_gpu_work p operation true) hbad
  | clear key operation hbad =>
    exact known_of_bad_write UNORDERED_ACCESS operation (keys_compute_work p operation) hbad
  | close generation succeeded hbad =>
    simp only [LedgerEvent.apply, close]
    rw [if_pos (by simp only [Bool.or_eq_true, Bool.not_eq_true', bne_iff_ne]; tauto)]
    rfl
  | reuse generation observed hbad =>
    simp only [LedgerEvent.apply, reset, Bool.and_eq_false_iff, bne_eq_false_iff_eq, decide_eq_false_iff_not]
    rcases hbad with h | h | h
    · exact .inl (.inl h)
    · exact .inl (.inr (Nat.not_lt.mpr h))
    · exact .inr h

/-- Only the reset that it waits for makes a ledger know a recording again. -/
theorem known_of_not_admitted (h : p.known = false) (hevent : ¬ event.Admits p) : (event.apply p).known = false := by
  cases event with
  | reset generation observed =>
    apply known_of_ledgerFault (LedgerFault.reuse generation observed _)
    by_contra hall
    simp only [not_or, Nat.not_le, Bool.not_eq_false] at hall
    exact hevent hall
  | invalidate reason => rfl
  | close generation succeeded =>
    simp only [LedgerEvent.apply, close]
    rw [if_pos (by simp [h])]
    rfl
  | report r => exact known_of_shut (by simp [is_open, h]) r

/-! ## Silence -/

/-- Every question that names the ledger is answered by nothing, alone and in any batch. -/
structure AnswersNothing (p : PfdSubmissionProof) : Prop where
  complete : ∀ generation, p.complete generation = false
  candidate : ∀ key generation, p.candidate key generation = {}
  prefixed : ∀ key generation, p.prefix_candidate key generation = {}
  suffix : ∀ key generation, p.suffix_candidate key generation = {}
  activity : ∀ key generation, p.activity_candidate key generation = {}
  candidate_at : ∀ index generation, p.candidate_at index generation = {}
  prefixed_at : ∀ index generation, p.prefix_candidate_at index generation = {}
  suffix_at : ∀ index generation, p.suffix_candidate_at index generation = {}
  activity_at : ∀ index generation, p.activity_candidate_at index generation = {}
  refusal : ∀ index generation, p.prefix_refusal index generation = {}
  overwrote : ∀ key generation, p.overwrote key generation = false
  mentions : ∀ key generation, p.mentions key generation = false
  settlements : ∀ generation capacity, p.settlements generation capacity = []
  batch : ∀ batch : List Recording, (∃ r ∈ batch, r.proof = p) →
    batch_allows batch = false ∧ (∀ i key, batch_candidate batch i key = {}) ∧
    ∀ key, batch_overlay batch key = {} ∧ batch_entry batch key = {} ∧
      batch_after batch key = {} ∧ ∀ state, carried_overlay batch key state = {}

theorem batch_refused {batch : List Recording} (hmem : ∃ r ∈ batch, r.proof = p)
    (h : ∀ generation, p.complete generation = false) : batch_allows batch = false := by
  obtain ⟨r, hr, rfl⟩ := hmem
  unfold batch_allows
  split
  · rfl
  rw [all_eq_false]
  exact ⟨r, hr, by simp [h]⟩

theorem answersNothing_of_known (h : p.known = false) : AnswersNothing p := by
  have hc (generation : Nat) : p.complete generation = false := by simp [complete, h]
  have hquiet (generation : Nat) : ¬ p.complete generation = true := by simp [hc]
  refine ⟨hc, ?_, ?_, ?_, ?_, ?_, ?_, ?_, ?_, ?_, ?_, ?_, ?_, ?_⟩
  · intro key generation
    simp [candidate, hc]
  · intro key generation
    simp [prefix_candidate, hc]
  · intro key generation
    simp [suffix_candidate, hc]
  · intro key generation
    simp [activity_candidate, hc]
  · intro index generation
    simp [candidate_at, hc]
  · intro index generation
    simp [prefix_candidate_at, hc]
  · intro index generation
    simp [suffix_candidate_at, hc]
  · intro index generation
    simp [activity_candidate_at, hc]
  · intro index generation
    simp [prefix_refusal, hc]
  · intro key generation
    simp [overwrote, hc]
  · intro key generation
    simp [mentions, hc]
  · intro generation capacity
    simp [settlements, hc]
  · intro batch hmem
    have hb := batch_refused hmem hc
    refine ⟨hb, fun i key => ?_, fun key => ⟨?_, ?_, ?_, fun state => ?_⟩⟩
    · unfold batch_candidate
      split <;> simp [hb]
    · simp [batch_overlay, hb]
    · simp [batch_entry, hb]
    · simp [batch_after, hb]
    · simp [carried_overlay, hb]

end

/-! ## Every ledger of a bridge -/

/-- The ledgers by number. An event is called on one of them. -/
abbrev Ledgers := Nat → PfdSubmissionProof

def Ledgers.step (ledgers : Ledgers) (call : Nat × LedgerEvent) : Ledgers :=
  Function.update ledgers call.1 (call.2.apply (ledgers call.1))

/-- No event of the run is the reset that ledger `i` waits for. -/
def NotAdmitted (i : Nat) (ledgers : Ledgers) (call : Nat × LedgerEvent) : Prop :=
  call.1 = i → ¬ call.2.Admits (ledgers i)

section
variable {ledgers : Ledgers} {i : Nat}

theorem ledgers_step_known {call : Nat × LedgerEvent} (h : (ledgers i).known = false)
    (hcall : NotAdmitted i ledgers call) : (ledgers.step call i).known = false := by
  unfold Ledgers.step
  by_cases hi : i = call.1
  · subst hi
    rw [Function.update_self]
    exact known_of_not_admitted h (hcall rfl)
  rw [Function.update_of_ne hi]
  exact h

theorem ledgers_run_known (calls : List (Nat × LedgerEvent)) (h : (ledgers i).known = false)
    (hcalls : runs.Guarded Ledgers.step (NotAdmitted i) ledgers calls) :
    (runs.run Ledgers.step ledgers calls i).known = false := by
  have hstep (l : Ledgers) (call : Nat × LedgerEvent) (hl : (l i).known = false)
      (hcall : NotAdmitted i l call) : (l.step call i).known = false :=
    ledgers_step_known hl hcall
  exact runs.guarded_invariant hstep calls h hcalls

end

end taxi_camera.standalone
