-- The commands of a list, what the bridge reports about them, and the states
-- that a valid stream of them really leaves the displays in. `Agrees` is the
-- invariant between the two, kept by each report of a recording.
import TaxiCam.SubmissionProof

namespace taxi_camera.standalone

open PfdSubmissionProof ResourceStates List

/-! ## The commands of a list -/

/-- A legacy barrier. -/
inductive Barrier
  | transition (key : Key) (before after : ResourceStates) (subresource flags : Nat)
  | aliasing
  | uav

/-- A command with the displays that it works on: the cleared targets of a pass, the bound
targets of a draw, the displays that a dispatch writes. -/
inductive Command
  | barrier (b : Barrier)
  | begin_pass (flags : BitVec 32) (ordinary_access : Bool) (clears : List Key)
  | end_pass
  | draw (targets : List Key)
  | clear_render_target (key : Key)
  | dispatch (writes : List Key)
  | clear_unordered_access (key : Key) (operation : Nat)
  | other_work (operation : Nat) (may_render_target : Bool)

/-- The subresources that move the base mip. -/
def base_mip (subresource : Nat) : Bool := subresource == 0 || subresource == ALL_SUBRESOURCES

/-! ## What the bridge reports -/

/-- `observe_legacy` of the bridge, for a tracked display. -/
def observe_barrier (mip_levels : Key → Nat) (p : PfdSubmissionProof) :
    Barrier → PfdSubmissionProof
  | .aliasing => p.invalidate .barrier_uncertainty
  | .uav => p
  | .transition key before after subresource flags =>
    if flags != BARRIER_FLAG_NONE then p.invalidate .barrier_uncertainty
    else if base_mip subresource then p.observe_legacy key before after subresource flags
    else if subresource ≥ mip_levels key then p.invalidate .invalid_transition
    else p

/-- The reports of one command, in the order of the bridge. -/
def report_command (mip_levels : Key → Nat) (p : PfdSubmissionProof) :
    Command → PfdSubmissionProof
  | .barrier b => observe_barrier mip_levels p b
  | .begin_pass flags ordinary clears =>
    clears.foldl (fun p key => p.note_render_target_write key 68) (p.begin_pass flags ordinary)
  | .end_pass => p.end_pass
  | .draw targets =>
    targets.foldl (fun p key => p.note_render_target_write key 12) (p.gpu_work 12)
  | .clear_render_target key => (p.gpu_work 48).note_render_target_write key 48
  | .dispatch _ => p.compute_work 14
  | .clear_unordered_access key operation =>
    (p.compute_work operation).note_unordered_access_write key operation
  | .other_work operation may => p.gpu_work operation may

/-- One recording of a list: the ledger that its earlier recordings left, the commands between
Reset and Close, and whether Close succeeded. -/
structure CommandList where
  ledger : PfdSubmissionProof := {}
  generation : Nat
  commands : List Command
  observed : Bool := true
  succeeded : Bool := true

def CommandList.recording (mip_levels : Key → Nat) (l : CommandList) : Recording :=
  let opened := l.ledger.reset l.generation l.observed
  ⟨(runs.run (report_command mip_levels) opened l.commands).close l.generation l.succeeded,
    l.generation⟩

/-! ## What the GPU does -/

/-- The state of the base mip of each display. -/
abbrev Displays := Key → ResourceStates

/-- Only a barrier of the base mip changes its state. -/
def Command.effect (d : Displays) : Command → Displays
  | .barrier (.transition key _ after subresource _) =>
    if base_mip subresource then Function.update d key after else d
  | _ => d

/-- The state that the displays of a command must be in. -/
def Command.Valid (d : Displays) : Command → Prop
  | .barrier (.transition key before _ subresource _) => base_mip subresource = true → d key = before
  | .barrier _ | .end_pass | .other_work _ _ => True
  | .begin_pass _ _ clears => ∀ key ∈ clears, d key = RENDER_TARGET
  | .draw targets => ∀ key ∈ targets, d key = RENDER_TARGET
  | .clear_render_target key => d key = RENDER_TARGET
  | .dispatch writes => ∀ key ∈ writes, d key = UNORDERED_ACCESS
  | .clear_unordered_access key _ => d key = UNORDERED_ACCESS

/-- A draw to the display, or a clear of it. -/
def Command.Writes (key : Key) : Command → Prop
  | .begin_pass _ _ clears => key ∈ clears
  | .draw targets => key ∈ targets
  | .clear_render_target k | .clear_unordered_access k _ => k = key
  | _ => False

/-- A write, or a barrier of the base mip. -/
def Command.Names (key : Key) : Command → Prop
  | .barrier (.transition k _ _ subresource _) => k = key ∧ base_mip subresource = true
  | c => c.Writes key

/-- A command that names the display, or a dispatch that writes it. -/
def Command.Uses (key : Key) : Command → Prop
  | .dispatch writes => key ∈ writes
  | c => c.Names key

def CommandList.effect (d : Displays) (l : CommandList) : Displays :=
  runs.run Command.effect d l.commands

/-- The lists are a valid stream from the states `d`. -/
def ValidBatch (d : Displays) (batch : List CommandList) : Prop :=
  runs.Guarded CommandList.effect
    (fun d l => runs.Guarded Command.effect Command.Valid d l.commands) d batch

/-- The states in front of list `i`, which are those behind the list before it. -/
def statesBefore (d : Displays) (batch : List CommandList) (i : Nat) : Displays :=
  runs.run CommandList.effect d (batch.take i)

/-! ## The invariant of one recording -/

/-- A slot agrees with the states `entry` in front of the list and the states `now`. -/
structure SlotAgrees (entry now : Displays) (s : Slot) : Prop where
  seen : s.seen = true
  after : s.after = now s.key
  first : s.first_before = entry s.key
  exit : s.prefix_exit = true → s.first_before = RENDER_TARGET

/-- Every slot agrees with the states. Every display of `named` has a slot, and every display
of `written` has a slot that says so. -/
structure Agrees (entry now : Displays) (named written : Key → Prop) (slots : List Slot) :
    Prop where
  slot : ∀ s ∈ slots, SlotAgrees entry now s
  one : (slots.map (·.key.resource)).Nodup
  untouched : ∀ key, (∀ s ∈ slots, s.key ≠ key) → now key = entry key
  named : ∀ key, named key → key.named = true → ∃ s ∈ slots, s.key = key
  written : ∀ key, written key → key.named = true → ∃ s ∈ slots, s.key = key ∧ s.wrote = true

/-- A ledger that still knows its recording agrees with the states. -/
def Tracks (entry now : Displays) (named written : Key → Prop) (p : PfdSubmissionProof) : Prop :=
  p.known = true → Agrees entry now named written p.slots

/-- What a report may do to a slot without a change of state. -/
structure Refreshes (s t : Slot) : Prop where
  key : t.key = s.key
  seen : t.seen = s.seen
  after : t.after = s.after
  first : t.first_before = s.first_before
  exit : t.prefix_exit = true → s.prefix_exit = true
  wrote : s.wrote = true → t.wrote = true

theorem promoted_refreshes (operation : Nat) (s : Slot) : Refreshes s (promoted operation s) := by
  unfold promoted
  split
  · split <;> exact ⟨rfl, rfl, rfl, rfl, by simp, by simp⟩
  · exact ⟨rfl, rfl, rfl, rfl, id, id⟩

theorem computed_refreshes (operation : Nat) (s : Slot) : Refreshes s (computed operation s) := by
  unfold computed
  split
  · exact ⟨rfl, rfl, rfl, rfl, by simp, by simp⟩
  · exact ⟨rfl, rfl, rfl, rfl, id, id⟩

theorem carried_refreshes {s : Slot} (hs : s.seen = true) (state : ResourceStates)
    (operation : Nat) : Refreshes s (carried s state operation) := by
  unfold carried
  rw [if_pos hs]
  exact ⟨rfl, rfl, rfl, rfl, by simp, by simp⟩

@[simp] theorem carried_key (s : Slot) (state : ResourceStates) (operation : Nat) :
    (carried s state operation).key = s.key := by
  unfold carried; split <;> rfl

@[simp] theorem carried_wrote (s : Slot) (state : ResourceStates) (operation : Nat) :
    (carried s state operation).wrote = true := rfl

@[simp] theorem transition_key (s : Slot) (before after : ResourceStates) (subresource : Nat)
    (i : Bool) (b : Nat) : (transition s before after subresource i b).key = s.key := rfl

section
variable {entry now now' : Displays} {named written named' written' : Key → Prop}
  {slots : List Slot} {key : Key}

variable {s t : Slot} {f : Slot → Slot}

theorem SlotAgrees.refreshed (h : SlotAgrees entry now s) (hst : Refreshes s t) :
    SlotAgrees entry now t := by
  obtain ⟨h1, h2, h3, h4⟩ := h
  exact ⟨by rw [hst.seen, h1], by rw [hst.after, hst.key, h2], by rw [hst.first, hst.key, h3],
    fun he => by rw [hst.first]; exact h4 (hst.exit he)⟩

/-- A slot of another display agrees with every change of this one. -/
theorem SlotAgrees.of_ne (h : SlotAgrees entry now s) (hs : s.key ≠ key)
    (hoff : ∀ k, k ≠ key → now' k = now k) : SlotAgrees entry now' s :=
  ⟨h.seen, by rw [h.after, hoff s.key hs], h.first, h.exit⟩

theorem Agrees.weaken (h : Agrees entry now named written slots)
    (hn : ∀ k, named' k → named k) (hw : ∀ k, written' k → written k) :
    Agrees entry now named' written' slots :=
  ⟨h.slot, h.one, h.untouched, fun k hk => h.named k (hn k hk), fun k hk => h.written k (hw k hk)⟩

theorem Agrees.keys (h : Agrees entry now named written slots) : (slots.map Slot.key).Nodup := by
  have hone := h.one
  rw [← Function.comp_def Key.resource Slot.key, ← map_map] at hone
  exact hone.of_map

/-- Reports that refresh every slot. -/
theorem agrees_map (h : Agrees entry now named written slots)
    (hf : ∀ s, Refreshes s (f s)) : Agrees entry now named written (slots.map f) := by
  refine ⟨?_, ?_, ?_, ?_, ?_⟩
  · intro t ht
    obtain ⟨s, hs, rfl⟩ := mem_map.mp ht
    exact (h.slot s hs).refreshed (hf s)
  · have hkeys : (slots.map f).map (·.key.resource) = slots.map (·.key.resource) := by
      rw [map_map]
      exact map_congr_left fun s _ => by simp [(hf s).key]
    rw [hkeys]
    exact h.one
  · intro k hno
    refine h.untouched k fun s hs => ?_
    have := hno (f s) (mem_map_of_mem hs)
    rwa [(hf s).key] at this
  · intro k hk hnamed
    obtain ⟨s, hs, rfl⟩ := h.named k hk hnamed
    exact ⟨f s, mem_map_of_mem hs, (hf s).key⟩
  · intro k hk hnamed
    obtain ⟨s, hs, rfl, hw⟩ := h.written k hk hnamed
    exact ⟨f s, mem_map_of_mem hs, (hf s).key, (hf s).wrote hw⟩

/-- A report about a display that has a slot. -/
theorem agrees_modify (h : Agrees entry now named written slots)
    (hs : s ∈ slots) (hkey : s.key = key) (hf : ∀ t, (f t).key = t.key)
    (hwrote : ∀ t, t.wrote = true → (f t).wrote = true) (hnew : SlotAgrees entry now' (f s))
    (hoff : ∀ k, k ≠ key → now' k = now k) (hn : ∀ k, named' k → named k ∨ k = key)
    (hw : ∀ k, written' k → written k ∨ (k = key ∧ (f s).wrote = true)) :
    Agrees entry now' named' written' (keyed.modify Slot.key key f slots) := by
  have hmap : (keyed.modify Slot.key key f slots).map Slot.key = slots.map Slot.key := keyed.map_key_modify hf slots
  have hother : ∀ t ∈ slots, t.key ≠ key → t ∈ keyed.modify Slot.key key f slots :=
    fun t ht hne => keyed.mem_modify_of_ne ht hne
  have hself : f s ∈ keyed.modify Slot.key key f slots := keyed.mem_modify_self h.keys hs hkey
  refine ⟨?_, ?_, ?_, ?_, ?_⟩
  · intro t ht
    rcases keyed.mem_modify h.keys ht with ⟨hm, hne⟩ | ⟨x, hx, hxk, rfl⟩
    · exact (h.slot t hm).of_ne hne hoff
    have : x = s := inj_on_of_nodup_map h.keys hx hs (hxk.trans hkey.symm)
    exact this ▸ hnew
  · have hone := h.one
    rw [← Function.comp_def Key.resource Slot.key, ← map_map] at hone ⊢
    rwa [hmap]
  · intro k hno
    have hk : k ≠ key := fun he => hno (f s) hself (by rw [hf, hkey, he])
    rw [hoff k hk]
    refine h.untouched k fun t ht he => ?_
    exact hno t (hother t ht (he ▸ hk)) he
  · intro k hk hnamed
    by_cases he : k = key
    · exact ⟨f s, hself, by rw [hf, hkey, he]⟩
    obtain ⟨t, ht, rfl⟩ := h.named k ((hn k hk).resolve_right he) hnamed
    exact ⟨t, hother t ht he, rfl⟩
  · intro k hk hnamed
    rcases hw k hk with hold | ⟨he, hnow⟩
    · obtain ⟨t, ht, rfl, htw⟩ := h.written k hold hnamed
      by_cases he : t.key = key
      · have : t = s := inj_on_of_nodup_map h.keys ht hs (he.trans hkey.symm)
        subst this
        exact ⟨f t, hself, hf t, hwrote t htw⟩
      · exact ⟨t, hother t ht he, rfl, htw⟩
    · exact ⟨f s, hself, by rw [hf, hkey, he], hnow⟩

/-- A report about a display that has no slot yet. -/
theorem agrees_append (h : Agrees entry now named written slots)
    (hfresh : ∀ s ∈ slots, s.key.resource ≠ t.key.resource) (hnew : SlotAgrees entry now' t)
    (hoff : ∀ k, k ≠ t.key → now' k = now k) (hn : ∀ k, named' k → named k ∨ k = t.key)
    (hw : ∀ k, written' k → written k ∨ (k = t.key ∧ t.wrote = true)) :
    Agrees entry now' named' written' (slots ++ [t]) := by
  have hne : ∀ s ∈ slots, s.key ≠ t.key := fun s hs he => hfresh s hs (by rw [he])
  have hlast : t ∈ slots ++ [t] := mem_append_right _ (mem_singleton_self t)
  refine ⟨?_, ?_, ?_, ?_, ?_⟩
  · intro s hs
    rcases mem_append.mp hs with hs | hs
    · exact (h.slot s hs).of_ne (hne s hs) hoff
    rw [mem_singleton.mp hs]
    exact hnew
  · rw [map_append, nodup_append]
    refine ⟨h.one, nodup_singleton _, ?_⟩
    intro a ha b hb hab
    obtain ⟨s, hs, rfl⟩ := mem_map.mp ha
    rw [map_singleton, mem_singleton] at hb
    exact hfresh s hs (hab.trans hb)
  · intro k hno
    rw [hoff k fun he => hno t hlast he.symm]
    exact h.untouched k fun s hs => hno s (mem_append_left _ hs)
  · intro k hk hnamed
    rcases hn k hk with hold | rfl
    · obtain ⟨s, hs, rfl⟩ := h.named k hold hnamed
      exact ⟨s, mem_append_left _ hs, rfl⟩
    · exact ⟨t, hlast, rfl⟩
  · intro k hk hnamed
    rcases hw k hk with hold | ⟨rfl, hnow⟩
    · obtain ⟨s, hs, rfl, hsw⟩ := h.written k hold hnamed
      exact ⟨s, mem_append_left _ hs, rfl, hsw⟩
    · exact ⟨t, hlast, rfl, hnow⟩

end

/-! ## One report keeps the invariant -/

@[simp] theorem invalidate_known (p : PfdSubmissionProof) (reason : Refusal) :
    (p.invalidate reason).known = false := rfl

theorem holder_none {p : PfdSubmissionProof} {key : Key} (h : p.holder key = none) :
    ∀ s ∈ p.slots, s.key.resource ≠ key.resource := by
  intro s hs
  simpa using List.find?_eq_none.mp h s hs

section
variable {entry now : Displays} {named written : Key → Prop} {p : PfdSubmissionProof}

theorem tracks_gpu_work (operation : Nat) (may : Bool) (h : Tracks entry now named written p) :
    Tracks entry now named written (p.gpu_work operation may) := by
  unfold gpu_work
  split
  · exact fun hk => by simp at hk
  split
  · exact fun hk => agrees_map (h hk) (promoted_refreshes operation)
  · exact h

theorem tracks_compute_work (operation : Nat) (h : Tracks entry now named written p) :
    Tracks entry now named written (p.compute_work operation) := by
  have hq : Tracks entry now named written (p.state_disjoint_work operation) := tracks_gpu_work operation false h
  unfold compute_work
  generalize p.state_disjoint_work operation = q at hq ⊢
  dsimp only
  split
  · exact fun hk => by simp at hk
  · exact fun hk => agrees_map (hq hk) (computed_refreshes operation)

theorem tracks_begin_pass (flags : BitVec 32) (ordinary : Bool) (h : Tracks entry now named written p) :
    Tracks entry now named written (p.begin_pass flags ordinary) := by
  unfold begin_pass
  have hq := tracks_gpu_work 68 true h
  split
  · exact fun hk => by simp at hk
  simp only
  split
  · exact fun hk => by simp at hk
  · exact hq

theorem tracks_end_pass (h : Tracks entry now named written p) : Tracks entry now named written p.end_pass := by
  unfold end_pass
  split
  · exact fun hk => by simp at hk
  split
  · exact fun hk => by simp at hk
  · exact h

variable {key : Key}

/-- A barrier from the state that the display is in. -/
theorem tracks_observe_legacy {before : ResourceStates} (after : ResourceStates)
    (subresource flags : Nat) (h : Tracks entry now named written p) (hnow : now key = before) :
    Tracks entry (Function.update now key after) (fun k => named k ∨ k = key) written
      (p.observe_legacy key before after subresource flags) := by
  have hoff : ∀ k, k ≠ key → Function.update now key after k = now k := fun k hk => Function.update_of_ne hk after now
  unfold observe_legacy
  split
  · exact fun hk => by simp at hk
  split
  · exact fun hk => by simp at hk
  simp only
  split
  · rename_i slot hslot
    have hmem : slot ∈ p.slots := mem_of_find?_eq_some hslot
    split
    · exact fun hk => by simp at hk
    rename_i hkey
    have hkey : slot.key = key := by simpa using hkey
    split
    · exact fun hk => by simp at hk
    intro hk
    have hp : Agrees entry now named written p.slots := h hk
    have hs := hp.slot slot hmem
    refine agrees_modify hp hmem hkey (fun _ => rfl) ?_ ?_ hoff (fun k hn => hn) fun k hw => .inl hw
    · intro t ht
      simp [transition, ht]
    · refine ⟨rfl, by simp [transition, hkey], hs.first, ?_⟩
      intro he
      simp only [transition, hs.seen, Bool.not_true, Bool.false_and, Bool.and_eq_true] at he
      exact hs.exit he.1
  rename_i hnone
  split
  · intro hk
    have hp : Agrees entry now named written p.slots := h hk
    have hfresh := holder_none hnone
    refine agrees_append hp hfresh ⟨rfl, ?_, ?_, ?_⟩ hoff (fun k hn => hn) fun k hw => .inl hw
    · simp [transition]
    · have hentry := hp.untouched key fun s hs he => hfresh s hs (by rw [he])
      exact (hnow ▸ hentry :)
    · intro he
      simp only [transition, Bool.not_false, Bool.true_and, Bool.and_eq_true] at he
      change before = RENDER_TARGET
      by_contra hb
      simp [beq_eq_false_iff_ne.mpr hb] at he
  · exact fun hk => by simp at hk

/-- A write to a display that is in the reported state. -/
theorem tracks_note_carried_write {state : ResourceStates} (operation : Nat)
    (h : Tracks entry now named written p) (hnow : now key = state) :
    Tracks entry now (fun k => named k ∨ k = key) (fun k => written k ∨ k = key)
      (p.note_carried_write key state operation) := by
  unfold note_carried_write
  split
  · exact fun hk => by simp at hk
  split
  · rename_i hunnamed
    intro hk
    have hp := h hk
    have hfalse : key.named = false := by simpa using hunnamed
    refine ⟨hp.slot, hp.one, hp.untouched, ?_, ?_⟩
    · rintro k (hn | rfl) hnamed
      · exact hp.named k hn hnamed
      · rw [hfalse] at hnamed; cases hnamed
    · rintro k (hw | rfl) hnamed
      · exact hp.written k hw hnamed
      · rw [hfalse] at hnamed; cases hnamed
  split
  · rename_i slot hslot
    have hmem : slot ∈ p.slots := mem_of_find?_eq_some hslot
    split
    · exact fun hk => by simp at hk
    rename_i hkey
    have hkey : slot.key = key := by simpa using hkey
    split
    · -- the slot has the state of the display, so the write is not skipped
      rename_i hskip
      intro hk
      have hs := (h hk).slot slot hmem
      rw [hs.after, hkey, hnow] at hskip
      simp at hskip
    intro hk
    have hp : Agrees entry now named written p.slots := h hk
    have hs := hp.slot slot hmem
    exact agrees_modify hp hmem hkey (fun t => carried_key t state operation)
      (fun t _ => carried_wrote t state operation)
      (hs.refreshed (carried_refreshes hs.seen state operation)) (fun _ _ => rfl)
      (fun k hn => hn) fun k hw => hw.imp_right fun he => ⟨he, rfl⟩
  rename_i hnone
  split
  · exact fun hk => by simp at hk
  intro hk
  have hp : Agrees entry now named written p.slots := h hk
  have hfresh := holder_none hnone
  have hentry : now key = entry key := hp.untouched key fun s hs he => hfresh s hs (by rw [he])
  exact agrees_append hp hfresh ⟨rfl, hnow.symm, hnow.symm.trans hentry, fun he => by simp [carried] at he⟩
    (fun _ _ => rfl) (fun k hn => hn) fun k hw => hw.imp_right fun he => ⟨he, rfl⟩

theorem tracks_note_render_target_write (operation : Nat)
    (h : Tracks entry now named written p) (hnow : now key = RENDER_TARGET) :
    Tracks entry now (fun k => named k ∨ k = key) (fun k => written k ∨ k = key)
      (p.note_render_target_write key operation) :=
  tracks_note_carried_write operation (tracks_gpu_work operation true h) hnow

theorem tracks_note_render_target_writes (operation : Nat) (keys : List Key)
    (h : Tracks entry now named written p) (hnow : ∀ key ∈ keys, now key = RENDER_TARGET) :
    Tracks entry now (fun k => named k ∨ k ∈ keys) (fun k => written k ∨ k ∈ keys)
      (keys.foldl (fun p key => p.note_render_target_write key operation) p) := by
  induction keys generalizing p named written with
  | nil => simpa using h
  | cons key rest ih =>
    have hfirst := tracks_note_render_target_write operation h (hnow key mem_cons_self)
    have hrest := ih hfirst fun k hk => hnow k (mem_cons_of_mem _ hk)
    simpa only [foldl_cons, mem_cons, or_assoc] using hrest

theorem Tracks.weaken {named' written' : Key → Prop} (h : Tracks entry now named written p)
    (hn : ∀ k, named' k → named k) (hw : ∀ k, written' k → written k) :
    Tracks entry now named' written' p := fun hk => (h hk).weaken hn hw

theorem tracks_barrier (mip_levels : Key → Nat) (b : Barrier) (h : Tracks entry now named written p)
    (hv : (Command.barrier b).Valid now) :
    Tracks entry ((Command.barrier b).effect now)
      (fun k => named k ∨ (Command.barrier b).Names k) written (observe_barrier mip_levels p b) := by
  cases b with
  | aliasing => exact fun hk => by simp [observe_barrier] at hk
  | uav => exact h.weaken (fun k hk => hk.resolve_right id) fun k hk => hk
  | transition key before after subresource flags =>
    simp only [observe_barrier, Command.effect, Command.Names]
    by_cases hflags : (flags != BARRIER_FLAG_NONE) = true
    · rw [if_pos hflags]
      exact fun hk => by simp at hk
    rw [if_neg hflags]
    by_cases hbase : base_mip subresource = true
    · rw [if_pos hbase, if_pos hbase]
      exact (tracks_observe_legacy after subresource flags h (hv hbase)).weaken
        (fun k hk => hk.imp_right fun he => he.1.symm) fun k hk => hk
    rw [if_neg hbase, if_neg hbase]
    split
    · exact fun hk => by simp at hk
    · exact h.weaken (fun k hk => hk.resolve_right fun he => hbase he.2) fun k hk => hk

/-- A valid command, reported, keeps the invariant. -/
theorem tracks_report_command (mip_levels : Key → Nat) (c : Command)
    (h : Tracks entry now named written p) (hv : c.Valid now) :
    Tracks entry (c.effect now) (fun k => named k ∨ c.Names k) (fun k => written k ∨ c.Writes k)
      (report_command mip_levels p c) := by
  cases c with
  | barrier b =>
    exact (tracks_barrier mip_levels b h hv).weaken (fun k hk => hk)
      fun k hk => hk.resolve_right (by simp [Command.Writes])
  | begin_pass flags ordinary clears =>
    exact tracks_note_render_target_writes 68 clears (tracks_begin_pass flags ordinary h) hv
  | end_pass =>
    exact (tracks_end_pass h).weaken (fun k hk => hk.resolve_right id) fun k hk => hk.resolve_right id
  | draw targets =>
    exact tracks_note_render_target_writes 12 targets (tracks_gpu_work 12 true h) hv
  | clear_render_target key =>
    exact (tracks_note_render_target_write 48 (tracks_gpu_work 48 true h) hv).weaken
      (fun k hk => hk.imp_right Eq.symm) fun k hk => hk.imp_right Eq.symm
  | dispatch writes =>
    exact (tracks_compute_work 14 h).weaken (fun k hk => hk.resolve_right id) fun k hk => hk.resolve_right id
  | clear_unordered_access key operation =>
    have hwork := tracks_compute_work operation (tracks_compute_work operation h)
    exact (tracks_note_carried_write operation hwork hv).weaken
      (fun k hk => hk.imp_right Eq.symm) fun k hk => hk.imp_right Eq.symm
  | other_work operation may =>
    exact (tracks_gpu_work operation may h).weaken (fun k hk => hk.resolve_right id) fun k hk => hk.resolve_right id

/-- A valid list of commands, reported, keeps the invariant. -/
theorem tracks_run (mip_levels : Key → Nat) (commands : List Command) (h : Tracks entry now named written p)
    (hv : runs.Guarded Command.effect Command.Valid now commands) :
    Tracks entry (runs.run Command.effect now commands) (fun k => named k ∨ ∃ c ∈ commands, c.Names k)
      (fun k => written k ∨ ∃ c ∈ commands, c.Writes k)
      (runs.run (report_command mip_levels) p commands) := by
  induction commands generalizing p now named written with
  | nil => exact h.weaken (fun k hk => by simpa using hk) fun k hk => by simpa using hk
  | cons c rest ih =>
    have hrest := ih (tracks_report_command mip_levels c h hv.1) hv.2
    simpa only [runs.run_cons, exists_mem_cons_iff, or_assoc] using hrest

end

end taxi_camera.standalone
