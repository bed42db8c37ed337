-- When a carried copy returns the display to the state that it is in: the
-- settled state is the one of the Close that was recorded last, and the state
-- of the display the one of the list that was executed last.
import TaxiCam.DisplaySettlement

namespace taxi_camera.standalone

open PfdSubmissionProof ResourceStates ticket_queue List
open Function (update_of_ne update_self)

namespace SettledDisplays

variable {mip_levels : Key → Nat} {s : SettledDisplays}

/-! ## What an execution of lists must meet, and what its copies should -/

/-- The lists of a forwarded Execute were closed with success, and are a valid stream from the
states that the queue leaves in front of them. -/
def ValidForward (s : SettledDisplays) : Op → Prop
  | .forward e => ∀ p, s.planned e = some p →
    (∀ i ∈ p.lists, ∃ l, s.closed i = some l ∧ l.succeeded = true) ∧
      ValidBatch s.displays (s.batch p.lists)
  | _ => True

/-- The recordings of the lists of an Execute. -/
def recordings (mip_levels : Key → Nat) (s : SettledDisplays) (lists : List Nat) : List Recording :=
  (s.batch lists).map fun l => l.recording mip_levels

/-- Every carried copy that the plan of a forwarded Execute makes returns its display to the state
that the lists of the Execute leave it in. -/
def CopiesRestore (mip_levels : Key → Nat) (s : SettledDisplays) : Op → Prop
  | .forward e => ∀ p, s.planned e = some p → ∀ native target copy state,
    p.saw.resources native = some target →
    p.saw.carried_state (s.recordings mip_levels p.lists) native copy = some state →
      (s.forward e).displays ⟨native, target.id⟩ = state
  | _ => True

/-- When an Execute with a carried copy reaches the queue, the list that named the display last is
the one whose settlement was the last that the plan found recorded. -/
def RecordedLast (mip_levels : Key → Nat) (s : SettledDisplays) : Op → Prop
  | .forward e => ∀ p, s.planned e = some p → ∀ native target copy state,
    p.saw.resources native = some target →
    p.saw.carried_state (s.recordings mip_levels p.lists) native copy = some state →
      s.touched ⟨native, target.id⟩ = p.settled ⟨native, target.id⟩
  | _ => True

/-! ## The invariant -/

/-- The complete recording of Close `i` leaves the display in `state`. -/
def Leaves (mip_levels : Key → Nat) (closed : Nat → Option CommandList) (i : Nat) (key : Key)
    (state : ResourceStates) : Prop :=
  ∃ l, closed i = some l ∧
    (l.recording mip_levels).proof.complete (l.recording mip_levels).generation = true ∧
    ∃ slot ∈ (l.recording mip_levels).proof.slots, slot.key = key ∧ slot.after = state

/-- A settled state is the one that the last recorded Close left the display in. -/
def Settles (mip_levels : Key → Nat) (closed : Nat → Option CommandList) (r : Registry)
    (settled : Key → Option Nat) : Prop :=
  ∀ native target, r.resources native = some target →
    target.settled_state ≠ kSettledStateUnknown →
    ∃ i, settled ⟨native, target.id⟩ = some i ∧
      Leaves mip_levels closed i ⟨native, target.id⟩ target.settled_state

structure Orderly (mip_levels : Key → Nat) (s : SettledDisplays) : Prop where
  settles : Settles mip_levels s.closed s.registry s.settled
  unrecorded : ∀ i, ∀ row ∈ s.unrecorded i, Leaves mip_levels s.closed i row.key row.after
  queued : ∀ e ∈ s.registry.deferred_settlements.entries,
    Leaves mip_levels s.closed e.producer e.value.key e.value.after
  planned : ∀ e p, s.planned e = some p → Settles mip_levels s.closed p.saw p.settled
  touched : ∀ key i, s.touched key = some i → ∃ l, s.closed i = some l ∧
    ∀ slot ∈ (l.recording mip_levels).proof.slots, slot.key = key →
      (l.recording mip_levels).proof.complete (l.recording mip_levels).generation = true →
        s.displays key = slot.after

theorem orderly_initial (d : Displays) : Orderly mip_levels { displays := d } where
  settles _ _ h := by cases h
  unrecorded _ _ h := by cases h
  queued _ h := by cases h
  planned _ _ h := by cases h
  touched _ _ h := by cases h

/-! ## Rows -/

variable {l : CommandList} {key : Key} {settled : Key → Option Nat} {batch : List Recording}
variable {e i : Nat} {closed closed' : Nat → Option CommandList} {p : PlannedExecute} {r : Registry}
variable {target : Resource} {state : ResourceStates} {t : SettledDisplays} {row : Settlement}

theorem leaves_of_row (hl : closed i = some l) {capacity : Nat}
    (hrow : row ∈ (l.recording mip_levels).proof.settlements (l.recording mip_levels).generation
      capacity) : Leaves mip_levels closed i row.key row.after := by
  unfold settlements at hrow
  split at hrow
  · cases hrow
  rename_i hcomplete
  obtain ⟨slot, hslot, rfl⟩ := mem_map.mp (mem_of_mem_take hrow)
  exact ⟨l, hl, by simpa using hcomplete, slot, (mem_filter.mp hslot).1, rfl, rfl⟩

/-- A row that is recorded settles its display to the state that its Close left. -/
theorem settles_settle (h : Settles mip_levels closed r settled) (hrow : Leaves mip_levels closed i row.key row.after) :
    Settles mip_levels closed (r.apply_settlement row) (note settled r i row) := by
  unfold Registry.apply_settlement note
  by_cases hs : r.settles row = true
  · rw [if_pos hs, if_pos hs]
    intro native target htarget hstate
    dsimp only at htarget
    by_cases hn : native = row.key.resource
    · subst hn
      rw [update_self, Option.map_eq_some_iff] at htarget
      obtain ⟨found, hfound, rfl⟩ := htarget
      have hid : found.id = row.key.generation := by
        unfold Registry.settles at hs
        rw [hfound] at hs
        simp only [Bool.and_eq_true, beq_iff_eq] at hs
        exact hs.1
      have hkey : (⟨row.key.resource, found.id⟩ : Key) = row.key := by rw [hid]
      refine ⟨i, ?_, ?_⟩
      · rw [hkey, update_self]
      · rw [hkey]
        by_cases hrestorable : row.restorable = true
        · rw [if_pos hrestorable]
          exact hrow
        rw [if_neg hrestorable] at hstate
        exact absurd rfl hstate
    rw [update_of_ne hn] at htarget
    have hne : (⟨native, target.id⟩ : Key) ≠ row.key := fun he => hn (congrArg Key.resource he)
    rw [update_of_ne hne]
    exact h native target htarget hstate
  · rw [if_neg hs, if_neg hs]
    exact h

theorem Orderly.settle (h : Orderly mip_levels s) {row : Nat × Settlement}
    (hrow : Leaves mip_levels s.closed row.1 row.2.key row.2.after) :
    Orderly mip_levels (s.settle row) := by
  have hring : (s.settle row).registry.deferred_settlements = s.registry.deferred_settlements := by
    unfold SettledDisplays.settle Registry.apply_settlement
    split <;> rfl
  refine ⟨settles_settle h.settles hrow, h.unrecorded, ?_, h.planned, h.touched⟩
  rw [hring]
  exact h.queued

theorem closed_settle (rows : List (Nat × Settlement)) : (runs.run settle s rows).closed = s.closed := by
  induction rows generalizing s with
  | nil => rfl
  | cons row rest ih => exact ih

theorem Orderly.settle_rows (h : Orderly mip_levels s) (rows : List (Nat × Settlement))
    (hrows : ∀ row ∈ rows, Leaves mip_levels s.closed row.1 row.2.key row.2.after) :
    Orderly mip_levels (runs.run SettledDisplays.settle s rows) := by
  induction rows generalizing s with
  | nil => exact h
  | cons row rest ih =>
    apply ih (h.settle (hrows row mem_cons_self))
    exact fun other hother => hrows other (mem_cons_of_mem _ hother)

/-! ## The calls of the bridge -/

theorem Leaves.mono (h : Leaves mip_levels closed i key state)
    (hmore : ∀ i l, closed i = some l → closed' i = some l) :
    Leaves mip_levels closed' i key state := by
  obtain ⟨l, hl, hrest⟩ := h
  exact ⟨l, hmore i l hl, hrest⟩

theorem Settles.mono (h : Settles mip_levels closed r settled)
    (hmore : ∀ i l, closed i = some l → closed' i = some l) :
    Settles mip_levels closed' r settled := by
  intro native target htarget hstate
  obtain ⟨i, hi, hleaves⟩ := h native target htarget hstate
  exact ⟨i, hi, hleaves.mono hmore⟩

theorem Orderly.close (h : Orderly mip_levels s) (i : Nat) (l : CommandList) :
    Orderly mip_levels (s.close mip_levels i l) := by
  unfold SettledDisplays.close
  cases hi : s.closed i with
  | some _ => exact h
  | none =>
    have hmore (j : Nat) (l' : CommandList) (hj : s.closed j = some l') :
        Function.update s.closed i (some l) j = some l' := by
      rw [update_of_ne, hj]
      rintro rfl
      rw [hi] at hj
      cases hj
    refine ⟨h.settles.mono hmore, ?_, ?_, ?_, ?_⟩
    · intro j row hrow
      dsimp only at hrow ⊢
      by_cases hj : j = i
      · subst hj
        rw [update_self] at hrow
        split at hrow
        · exact leaves_of_row (update_self ..) hrow
        · cases hrow
      rw [update_of_ne hj] at hrow
      exact (h.unrecorded j row hrow).mono hmore
    · intro e he
      exact (h.queued e he).mono hmore
    · intro e p hp
      exact (h.planned e p hp).mono hmore
    · intro key j hj
      obtain ⟨l', hl', hrest⟩ := h.touched key j hj
      exact ⟨l', hmore j l' hl', hrest⟩

/-- A change of the registry that settles nothing and queues nothing. -/
theorem Orderly.registry (h : Orderly mip_levels s) (hsettles : Settles mip_levels s.closed r s.settled)
    (hqueued : ∀ e ∈ r.deferred_settlements.entries,
      Leaves mip_levels s.closed e.producer e.value.key e.value.after) :
    Orderly mip_levels { s with registry := r } :=
  ⟨hsettles, h.unrecorded, hqueued, h.planned, h.touched⟩

@[simp] theorem resources_take_overflow (r : Registry) : r.take_overflow.resources = r.resources := by
  unfold Registry.take_overflow
  split <;> rfl

@[simp] theorem entries_take_overflow (r : Registry) :
    r.take_overflow.deferred_settlements.entries = r.deferred_settlements.entries := by
  unfold Registry.take_overflow
  split <;> rfl

theorem Orderly.drain (h : Orderly mip_levels s) : Orderly mip_levels s.drain := by
  apply settle_rows
  · apply h.registry
    · intro native target htarget hstate
      rw [resources_take_overflow] at htarget
      exact h.settles native target htarget hstate
    · intro e he
      apply h.queued e
      rw [← entries_take_overflow]
      exact Queue.mem_of_mem_waiting he
  · intro row hrow
    obtain ⟨e, he, rfl⟩ := mem_map.mp hrow
    exact h.queued e (takeWhile_subset _ he)

@[simp] theorem closed_drain : s.drain.closed = s.closed := closed_settle _

theorem Orderly.record (h : Orderly mip_levels s) (i : Nat) : Orderly mip_levels (s.record i) := by
  apply settle_rows
  · have hdrain := h.drain
    refine ⟨hdrain.settles, ?_, hdrain.queued, hdrain.planned, hdrain.touched⟩
    intro j row hrow
    dsimp only at hrow ⊢
    by_cases hj : j = i
    · subst hj
      rw [update_self] at hrow
      cases hrow
    rw [update_of_ne hj] at hrow
    rw [closed_drain]
    exact h.unrecorded j row hrow
  · intro row hrow
    obtain ⟨x, hx, rfl⟩ := mem_map.mp hrow
    rw [closed_drain]
    exact h.unrecorded i x hx

theorem Orderly.push (h : Orderly mip_levels s) (i : Nat) (full : Bool) : Orderly mip_levels (s.push i full) := by
  unfold SettledDisplays.push
  cases hrows : s.unrecorded i with
  | nil => exact h
  | cons row rest =>
    refine ⟨h.settles, ?_, ?_, h.planned, h.touched⟩
    · intro j x hx
      dsimp only at hx
      by_cases hj : j = i
      · subst hj
        rw [update_self] at hx
        exact h.unrecorded j x (hrows ▸ mem_cons_of_mem _ hx)
      rw [update_of_ne hj] at hx
      exact h.unrecorded j x hx
    · intro e he
      dsimp only at he
      split at he
      · exact h.queued e he
      rw [Queue.entries_reserve] at he
      rcases mem_append.mp he with hold | hnew
      · exact h.queued e hold
      rw [mem_singleton.mp hnew]
      exact h.unrecorded i row (hrows ▸ mem_cons_self)

theorem Orderly.publish (h : Orderly mip_levels s) (i : Nat) : Orderly mip_levels (s.publish i) := by
  apply h.registry
  · exact h.settles
  · intro e he
    obtain ⟨x, hx, rfl⟩ := mem_map.mp he
    have hqueued := h.queued x hx
    split <;> exact hqueued

/-- The registry of a drain does not depend on the Closes that its rows are of. -/
theorem registry_drain : s.drain.registry = s.registry.drain_deferred_settlements := by
  have hrows (t : SettledDisplays) (rows : List (Nat × Settlement)) :
      (runs.run settle t rows).registry =
        runs.run (fun r row => r.apply_settlement row) t.registry (rows.map (·.2)) := by
    induction rows generalizing t with
    | nil => rfl
    | cons row rest ih => exact ih (t.settle row)
  exact hrows _ _

theorem Orderly.discover (h : Orderly mip_levels s) : Orderly mip_levels s.discover := by
  have hdrain := h.drain
  have hregistry := registry_drain (s := s)
  unfold SettledDisplays.discover Registry.discover_pfds
  rw [← hregistry]
  dsimp only
  split
  · apply hdrain.registry
    · intro native target htarget hstate
      obtain ⟨found, -, rfl⟩ := Option.map_eq_some_iff.mp htarget
      exact absurd rfl hstate
    · exact hdrain.queued
  · exact hdrain

theorem Orderly.plan (h : Orderly mip_levels s) (e : Nat) (lists : List Nat) :
    Orderly mip_levels (s.plan e lists) := by
  have hdrain := h.drain
  refine ⟨hdrain.settles, hdrain.unrecorded, hdrain.queued, ?_, hdrain.touched⟩
  intro e' p hp
  unfold SettledDisplays.plan at hp ⊢
  dsimp only at hp ⊢
  by_cases he : e' = e
  · subst he
    rw [update_self, Option.some.injEq] at hp
    subst hp
    exact hdrain.settles
  rw [update_of_ne he] at hp
  rw [closed_drain]
  exact h.planned e' p hp

theorem Orderly.change (h : Orderly mip_levels s) (native : Nat) (c : Change) :
    Orderly mip_levels (s.change native c) := by
  apply h.registry
  · intro n target htarget hstate
    dsimp only at htarget
    by_cases hn : n = native
    · subst hn
      rw [update_self] at htarget
      cases c with
      | register id =>
        rw [Change.apply, Option.some.injEq] at htarget
        subst htarget
        exact absurd rfl hstate
      | retire | shape _ | cover _ =>
        obtain ⟨found, hfound, rfl⟩ := Option.map_eq_some_iff.mp htarget
        exact h.settles n found hfound hstate
    rw [update_of_ne hn] at htarget
    exact h.settles n target htarget hstate
  · exact h.queued

/-! ## The lists on the queue -/

/-- A list that does not name a display leaves it in its state. -/
theorem effect_of_not_touches (h : ¬ Touches l key) (d : Displays) : l.effect d key = d key := by
  unfold CommandList.effect
  have hcommands : ∀ c ∈ l.commands, ¬ c.Names key := fun c hc hn => h ⟨c, hc, hn⟩
  generalize l.commands = commands at hcommands
  induction commands generalizing d with
  | nil => rfl
  | cons c rest ih =>
    rw [runs.run_cons, ih _ fun x hx => hcommands x (mem_cons_of_mem _ hx)]
    have hc := hcommands c mem_cons_self
    cases c with
    | barrier b =>
      cases b with
      | transition k before after subresource flags =>
        simp only [Command.effect]
        split
        · rename_i hbase
          rw [update_of_ne]
          rintro rfl
          exact hc ⟨rfl, hbase⟩
        · rfl
      | aliasing | uav => rfl
    | _ => rfl

/-- A complete list that does not mention a display leaves it in its state. -/
theorem effect_of_not_mentions {d : Displays}
    (hv : runs.Guarded Command.effect Command.Valid d l.commands) (hkey : key.named = true)
    (hc : (l.recording mip_levels).proof.complete (l.recording mip_levels).generation = true)
    (hm : (l.recording mip_levels).proof.mentions key (l.recording mip_levels).generation = false) :
    l.effect d key = d key := by
  have hagrees := agrees_recording mip_levels hv hc
  apply hagrees.untouched
  intro slot hslot hown
  have hresource : key.resource ≠ 0 := by
    intro hzero
    simp [Key.named, hzero] at hkey
  unfold mentions at hm
  rw [if_neg (by simp [hc, hresource]), any_eq_false] at hm
  exact hm slot hslot (by simp [(hagrees.slot slot hslot).seen, hown])

theorem Orderly.execute (h : Orderly mip_levels s) (hl : s.closed i = some l)
    (hv : runs.Guarded Command.effect Command.Valid s.displays l.commands) :
    Orderly mip_levels (s.execute i) := by
  unfold SettledDisplays.execute
  rw [hl]
  refine ⟨h.settles, h.unrecorded, h.queued, h.planned, ?_⟩
  intro key j hj
  dsimp only at hj ⊢
  split at hj
  · obtain rfl := Option.some.inj hj
    refine ⟨l, hl, fun slot hslot hown hc => ?_⟩
    rw [((agrees_recording mip_levels hv hc).slot slot hslot).after, hown]
  rename_i huntouched
  obtain ⟨l', hl', hrest⟩ := h.touched key j hj
  refine ⟨l', hl', fun slot hslot hown hc => ?_⟩
  rw [effect_of_not_touches huntouched]
  exact hrest slot hslot hown hc

/-- The lists of an Execute, one after the other. -/
theorem Orderly.execute_lists (h : Orderly mip_levels s) (lists : List Nat)
    (hclosed : ∀ i ∈ lists, ∃ l, s.closed i = some l)
    (hv : ValidBatch s.displays (s.batch lists)) :
    Orderly mip_levels (runs.run SettledDisplays.execute s lists) ∧
      (runs.run SettledDisplays.execute s lists).displays =
        runs.run CommandList.effect s.displays (s.batch lists) := by
  induction lists generalizing s with
  | nil => exact ⟨h, rfl⟩
  | cons i rest ih =>
    obtain ⟨l, hl⟩ := hclosed i mem_cons_self
    have hbatch : s.batch (i :: rest) = l :: s.batch rest := filterMap_cons_some hl
    rw [hbatch] at hv ⊢
    have hsame : (s.execute i).closed = s.closed := by
      unfold SettledDisplays.execute
      rw [hl]
    have hdisplays : (s.execute i).displays = l.effect s.displays := by
      unfold SettledDisplays.execute
      rw [hl]
    have hrest : (s.execute i).batch rest = s.batch rest := by
      unfold batch
      rw [hsame]
    rw [runs.run_cons, runs.run_cons, ← hdisplays, ← hrest]
    apply ih (h.execute hl hv.1)
    · intro j hj
      rw [hsame]
      exact hclosed j (mem_cons_of_mem _ hj)
    · rw [hrest, hdisplays]
      exact hv.2

/-- The invariant does not depend on the plans that wait. -/
theorem Orderly.forget_plan (h : Orderly mip_levels s) (e : Nat) :
    Orderly mip_levels { s with planned := Function.update s.planned e none } := by
  refine ⟨h.settles, h.unrecorded, h.queued, ?_, h.touched⟩
  intro e' p hp
  dsimp only at hp
  by_cases he : e' = e
  · subst he
    rw [update_self] at hp
    cases hp
  rw [update_of_ne he] at hp
  exact h.planned e' p hp

theorem Orderly.forward (h : Orderly mip_levels s) (e : Nat) (hv : s.ValidForward (.forward e)) :
    Orderly mip_levels (s.forward e) := by
  unfold SettledDisplays.forward
  cases hp : s.planned e with
  | none => exact h
  | some p =>
    obtain ⟨hclosed, hbatch⟩ := hv p hp
    refine ((h.forget_plan e).execute_lists p.lists ?_ hbatch).1
    intro i hi
    obtain ⟨l, hl, -⟩ := hclosed i hi
    exact ⟨l, hl⟩

theorem Orderly.step (h : Orderly mip_levels s) (op : Op) (hv : s.ValidForward op) :
    Orderly mip_levels (SettledDisplays.step mip_levels s op) := by
  cases op with
  | close i l => exact h.close i l
  | record i => exact h.record i
  | push i full => exact h.push i full
  | publish i => exact h.publish i
  | discover => exact h.discover
  | plan e lists => exact h.plan e lists
  | forward e => exact h.forward e hv
  | change native c => exact h.change native c

/-! ## Carried copies -/

theorem state_of_carried {carried : ResourceStates} (h : (carried_overlay batch key carried).is_site = true) :
    (carried_overlay batch key carried).candidate.state_after = carried ∧
      batch_allows batch = true ∧ key.named = true ∧
      ∀ r ∈ batch, r.proof.mentions key r.generation = false := by
  unfold carried_overlay at h ⊢
  split at h
  · simp [Overlay.is_site, Candidate.is_site, Key.named] at h
  rename_i hgood
  rw [if_neg hgood]
  simp only [Bool.or_eq_true, Bool.not_eq_true', not_or, Bool.not_eq_false] at hgood
  split at h
  · simp [Overlay.is_site, Candidate.is_site, Key.named] at h
  rename_i hquiet
  rw [if_neg hquiet]
  rw [Bool.not_eq_true, any_eq_false] at hquiet
  split at h
  · refine ⟨rfl, hgood.1.1, hgood.1.2, fun r hr => ?_⟩
    exact Bool.not_eq_true _ ▸ hquiet r hr
  · simp [Overlay.is_site, Candidate.is_site, Key.named] at h

theorem no_site : ¬ (({} : Overlay).is_site = true) := by
  simp [Overlay.is_site, Candidate.is_site, Key.named]

/-- Each kind of copy is the quiet overlay, or none. -/
theorem planned_overlay_quiet (r : Registry) (batch : List Recording) (key : Key)
    (target : Resource) (copy : CarriedCopy) :
    r.planned_overlay batch key target copy = {} ∨
      r.planned_overlay batch key target copy = r.quiet_overlay batch key target := by
  cases copy with
  | cover =>
    unfold Registry.planned_overlay Registry.cover_overlay
    dsimp only
    split
    · split
      · exact .inl rfl
      · exact .inr rfl
    · exact .inl rfl
  | restore =>
    unfold Registry.planned_overlay Registry.restore_overlay
    dsimp only
    split
    · split
      · exact .inl rfl
      · exact .inr rfl
    · exact .inl rfl
  | snapshot =>
    unfold Registry.planned_overlay Registry.snapshot_overlay
    dsimp only
    split
    · split
      · exact .inl rfl
      · exact .inr rfl
    · exact .inl rfl

/-- What a carried copy of a display needs: a settled state, and a complete batch that leaves the
display alone. -/
structure Carried (batch : List Recording) (key : Key) (target : Resource)
    (state : ResourceStates) : Prop where
  settled : target.settled_state = state
  known : state ≠ kSettledStateUnknown
  allowed : batch_allows batch = true
  named : key.named = true
  quiet : ∀ r ∈ batch, r.proof.mentions key r.generation = false

theorem carried_of_quiet (h : (r.quiet_overlay batch key target).is_site = true) :
    Carried batch key target (r.quiet_overlay batch key target).candidate.state_after := by
  unfold Registry.quiet_overlay at h ⊢
  split at h
  · exact absurd h no_site
  rename_i hfresh
  rw [if_neg hfresh]
  split at h
  · rename_i hknown
    rw [if_pos hknown]
    obtain ⟨hstate, hallow, hnamed, hmentions⟩ := state_of_carried h
    rw [hstate]
    exact ⟨rfl, hknown, hallow, hnamed, hmentions⟩
  · exact absurd h no_site

theorem carried_of_state {native : Nat} {copy : CarriedCopy} (htarget : r.resources native = some target)
    (h : r.carried_state batch native copy = some state) :
    Carried batch ⟨native, target.id⟩ target state := by
  unfold Registry.carried_state at h
  simp only [htarget] at h
  split at h
  · rename_i hsite
    rw [Option.some.injEq] at h
    rcases planned_overlay_quiet r batch ⟨native, target.id⟩ target copy with hnone | hquiet
    · rw [hnone] at hsite
      exact absurd hsite no_site
    rw [hquiet] at hsite h
    exact h ▸ carried_of_quiet hsite
  · cases h

/-- A batch whose lists do not mention the display leaves it in its state. -/
theorem batch_effect_of_not_mentions (hkey : key.named = true) (batch : List CommandList)
    (d : Displays) (hv : ValidBatch d batch)
    (hquiet : ∀ l ∈ batch,
      (l.recording mip_levels).proof.complete (l.recording mip_levels).generation = true ∧
        (l.recording mip_levels).proof.mentions key (l.recording mip_levels).generation = false) :
    runs.run CommandList.effect d batch key = d key := by
  induction batch generalizing d with
  | nil => rfl
  | cons l rest ih =>
    obtain ⟨hc, hm⟩ := hquiet l mem_cons_self
    rw [runs.run_cons, ih _ hv.2 fun x hx => hquiet x (mem_cons_of_mem _ hx)]
    exact effect_of_not_mentions hv.1 hkey hc hm

/-! ## The law -/

/-- A carried copy of an Execute whose display was last named by the list that was recorded last. -/
theorem Orderly.copies_restore (h : Orderly mip_levels s) (op : Op) (hv : s.ValidForward op)
    (hlast : s.RecordedLast mip_levels op) : s.CopiesRestore mip_levels op := by
  cases op with
  | forward e =>
    intro p hp native target copy state htarget hcopy
    have hcarried := carried_of_state htarget hcopy
    obtain ⟨hclosed, hbatch⟩ := hv p hp
    have hsome (i : Nat) (hi : i ∈ p.lists) : ∃ l, s.closed i = some l := by
      obtain ⟨l, hl, -⟩ := hclosed i hi
      exact ⟨l, hl⟩
    -- the batch leaves the display as it finds it
    have hdisplays : (s.forward e).displays ⟨native, target.id⟩ = s.displays ⟨native, target.id⟩ := by
      unfold SettledDisplays.forward
      rw [hp]
      have hrun := ((h.forget_plan e).execute_lists p.lists hsome hbatch).2
      rw [hrun]
      apply batch_effect_of_not_mentions hcarried.named _ _ hbatch
      intro l hl
      have hmem : l.recording mip_levels ∈ s.recordings mip_levels p.lists := mem_map_of_mem hl
      exact ⟨complete_of_allows hcarried.allowed _ hmem, hcarried.quiet _ hmem⟩
    -- and finds it as the Close that was recorded last left it
    have hknown : target.settled_state ≠ kSettledStateUnknown := hcarried.settled ▸ hcarried.known
    obtain ⟨i, hi, l, hl, hc, slot, hslot, hown, hafter⟩ := h.planned e p hp native target htarget hknown
    have htouched := (hlast p hp native target copy state htarget hcopy).trans hi
    obtain ⟨l', hl', hstate⟩ := h.touched _ i htouched
    rw [hl, Option.some.injEq] at hl'
    subst hl'
    rw [hdisplays, hstate slot hslot hown hc, hafter, hcarried.settled]
  | close | record | push | publish | discover | plan | change => trivial

theorem guarded_copies_restore (ops : List Op) (h : Orderly mip_levels s)
    (hv : runs.Guarded (SettledDisplays.step mip_levels) ValidForward s ops)
    (hlast : runs.Guarded (SettledDisplays.step mip_levels) (RecordedLast mip_levels) s ops) :
    runs.Guarded (SettledDisplays.step mip_levels) (CopiesRestore mip_levels) s ops := by
  have hstep (t : SettledDisplays) (op : Op) (ht : Orderly mip_levels t)
      (hop : ValidForward t op ∧ RecordedLast mip_levels t op) :
      CopiesRestore mip_levels t op ∧ Orderly mip_levels (step mip_levels t op) :=
    ⟨ht.copies_restore op hop.1 hop.2, ht.step op hop.1⟩
  exact runs.guarded_of_invariant hstep ops h ((runs.guarded_and ops).mpr ⟨hv, hlast⟩)

/-- In every run of Closes and Executes, a carried copy returns its display to the state that it is
in, when the list that named the display last on the queue is the one whose settlement the plan of
the copy found recorded last. -/
theorem carried_copies_restore_what_was_recorded_last (mip_levels : Key → Nat) (d : Displays) (ops : List Op)
    (hv : runs.Guarded (SettledDisplays.step mip_levels) ValidForward { displays := d } ops)
    (hlast : runs.Guarded (SettledDisplays.step mip_levels) (RecordedLast mip_levels) { displays := d } ops) :
    runs.Guarded (SettledDisplays.step mip_levels) (CopiesRestore mip_levels) { displays := d } ops :=
  guarded_copies_restore ops (orderly_initial d) hv hlast

/-- A list that ends the drawing of display 1, and one that leaves it alone. -/
def ending : CommandList where
  generation := 1
  commands := [.barrier (.transition ⟨1, 7⟩ RENDER_TARGET PIXEL_SHADER_RESOURCE 0 0)]

def quiet : CommandList where
  generation := 1
  commands := []

/-- Display 1 is tracked, and the ending list is closed and recorded. -/
def opening : List Op := [.change 1 (.register 7), .close 0 ending, .record 0]

/-- The quiet list is closed and executed. -/
def quietly : List Op := [.close 1 quiet, .record 1, .plan 1 [1], .forward 1]

theorem valid_forward_of_plan (hp : t.planned e = some p)
    (hclosed : ∀ i ∈ p.lists, ∃ l, t.closed i = some l ∧ l.succeeded = true)
    (hbatch : ValidBatch t.displays (t.batch p.lists)) : ValidForward t (.forward e) := by
  intro p' hp'
  rw [hp, Option.some.injEq] at hp'
  subst hp'
  exact ⟨hclosed, hbatch⟩

/-- The state of a carried copy of Execute `e`. -/
def copied (s : SettledDisplays) (e native : Nat) (copy : CarriedCopy) : Option ResourceStates :=
  (s.planned e).bind fun p => p.saw.carried_state (s.recordings (fun _ => 1) p.lists) native copy

theorem recorded_last_of_plan (only : Nat) (display : Resource) (hp : t.planned e = some p)
    (hresources : p.saw.resources only = some display)
    (hnone : ∀ native, native ≠ only → p.saw.resources native = none)
    (h : ∀ copy state,
      p.saw.carried_state (t.recordings (fun _ => 1) p.lists) only copy = some state →
        t.touched ⟨only, display.id⟩ = p.settled ⟨only, display.id⟩) :
    RecordedLast (fun _ => 1) t (.forward e) := by
  intro p' hp' native target copy state htarget hcopy
  rw [hp, Option.some.injEq] at hp'
  subst hp'
  by_cases hn : native = only
  · subst hn
    rw [hresources, Option.some.injEq] at htarget
    subst htarget
    exact h copy state hcopy
  rw [hnone native hn] at htarget
  cases htarget

/-- The ending list is executed before the quiet one, whose carried copy finds the display in the
state that was settled. -/
theorem settled_after_execution :
    let ops := opening ++ [.plan 0 [0], .forward 0] ++ quietly
    let start : SettledDisplays := { displays := fun _ => RENDER_TARGET }
    let planned := runs.run (SettledDisplays.step fun _ => 1) start (ops.take 8)
    copied planned 1 1 .cover = some PIXEL_SHADER_RESOURCE ∧
    runs.Guarded (SettledDisplays.step fun _ => 1) (CopiesRestore fun _ => 1) start ops := by
  intro ops start planned
  refine ⟨by decide +kernel, ?_⟩
  apply carried_copies_restore_what_was_recorded_last
  · refine ⟨trivial, trivial, trivial, trivial, ?_, trivial, trivial, trivial, ?_, trivial⟩
    · apply valid_forward_of_plan rfl
      · intro i hi
        rw [mem_singleton.mp hi]
        exact ⟨ending, rfl, rfl⟩
      · exact ⟨⟨fun _ => rfl, trivial⟩, trivial⟩
    · apply valid_forward_of_plan rfl
      · intro i hi
        rw [mem_singleton.mp hi]
        exact ⟨quiet, rfl, rfl⟩
      · exact ⟨trivial, trivial⟩
  · refine ⟨trivial, trivial, trivial, trivial, ?_, trivial, trivial, trivial, ?_, trivial⟩
    · apply recorded_last_of_plan 1 ⟨7, true, true, PIXEL_SHADER_RESOURCE, 1, 0⟩ rfl rfl
      · intro native hn
        exact (update_of_ne hn _ _).trans (update_of_ne hn _ _)
      · intro copy state hcopy
        cases copy <;> exact absurd (hcopy.symm.trans rfl) (Option.some_ne_none state)
    · apply recorded_last_of_plan 1 ⟨7, true, true, PIXEL_SHADER_RESOURCE, 1, 0⟩ rfl rfl
      · intro native hn
        exact (update_of_ne hn _ _).trans (update_of_ne hn _ _)
      · intro copy state hcopy
        decide +kernel
/-- The ending list is closed and not executed: the carried copy of the quiet list returns the
display to the state that the ending list would leave it in. -/
theorem settled_before_execution :
    let ops := opening ++ quietly
    let start : SettledDisplays := { displays := fun _ => RENDER_TARGET }
    runs.Guarded (SettledDisplays.step fun _ => 1) ValidForward start ops ∧
      ¬ runs.Guarded (SettledDisplays.step fun _ => 1) (CopiesRestore fun _ => 1) start ops := by
  intro ops start
  constructor
  · refine ⟨trivial, trivial, trivial, trivial, trivial, trivial, ?_, trivial⟩
    apply valid_forward_of_plan rfl
    · intro i hi
      rw [mem_singleton.mp hi]
      exact ⟨quiet, rfl, rfl⟩
    · exact ⟨trivial, trivial⟩
  · intro h
    have hforward := h.2.2.2.2.2.2.1 _ rfl 1 _ .cover PIXEL_SHADER_RESOURCE rfl (by decide +kernel)
    exact absurd hforward (by decide +kernel)

end SettledDisplays

end taxi_camera.standalone
