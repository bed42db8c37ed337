-- What the tracker of the capture sources restores after a wipe: over any
-- calls, only the render-target model that was last observed for the source,
-- and none for a source that was last seen to leave it.
import TaxiCam.SourceState
import TaxiCam.Runs

namespace taxi_camera.source_state

open runs List

/-! ## The observations of a source -/

/-- What is observed of a source: its model at registration, and each state effect applied to it. -/
inductive Observation
  | initial (model : Model)
  | effect (kind : Effect.Kind)
deriving DecidableEq

/-- The state model last observed, of the observations from the last one on. A pass report retires
the live model and observes none. -/
def last_model : List Observation → Option Model
  | [] => none
  | .initial model :: _ => some model
  | .effect .legacy_rt :: _ => some .legacy_rt
  | .effect .enhanced_rt :: _ => some .enhanced_rt
  | .effect .other :: _ => some .other
  | .effect .pass_other :: rest => last_model rest
  | .effect .draw :: rest => last_model rest

/-- The model that is restored after the observations. -/
def restorable (observations : List Observation) : Model :=
  match last_model observations with
  | some model => if render_target_model model then model else .unknown
  | none => .unknown

theorem restorable_spec {observations : List Observation} (h : render_target_model (restorable observations) = true) :
    last_model observations = some (restorable observations) := by
  unfold restorable at h ⊢
  rcases hlast : last_model observations with _ | model
  · rw [hlast] at h
    cases h
  rw [hlast] at h
  dsimp only at h ⊢
  split
  · rfl
  rename_i hno
  rw [if_neg hno] at h
  cases h

/-! ## Calls -/

inductive TrackerCall
  | register_source (key : Key) (initial : Model)
  | unregister_source (key : Key)
  | clear
  | begin_batch
  | apply (recording : Recording)
  | invalidate_all
  | retire_live_models
  | rearm_retained_rt

def Tracker.call (t : Tracker) : TrackerCall → Tracker
  | .register_source key initial => (t.register_source key initial).1
  | .unregister_source key => t.unregister_source key
  | .clear => t.clear
  | .begin_batch => t.begin_batch
  | .apply recording => (t.apply recording).1
  | .invalidate_all => t.invalidate_all
  | .retire_live_models => t.retire_live_models
  | .rearm_retained_rt => t.rearm_retained_rt.1

/-- The effects of a recording that are applied. -/
def applied (recording : Recording) : List Effect :=
  if recording.invalid || decide (recording.effects.length > Recording.capacity) then []
  else recording.effects.takeWhile fun effect => valid effect.key

/-- The observations of each source since it was registered, the last one first. -/
abbrev Observed := Key → List Observation

/-- An effect that is applied is observed of its source. -/
def observe (observed : Observed) (effect : Effect) : Observed :=
  Function.update observed effect.key (.effect effect.kind :: observed effect.key)

structure TrackedSources where
  tracker : Tracker := {}
  observed : Observed := fun _ => []

namespace TrackedSources

/-- The observations after a call: registration of a source that has no slot starts them again. -/
def observations (s : TrackedSources) : TrackerCall → Observed
  | .register_source key initial =>
    if s.tracker.sources.any (fun slot => decide (slot.key = key)) then s.observed
    else Function.update s.observed key [.initial initial]
  | .apply recording => (applied recording).foldl observe s.observed
  | _ => s.observed

def step (s : TrackedSources) (c : TrackerCall) : TrackedSources where
  tracker := s.tracker.call c
  observed := s.observations c

end TrackedSources

/-! ## The invariant of the slots -/

/-- Two live slots do not hold one handle. -/
def Apart (a b : Slot) : Prop := a.key.handle ≠ 0 → a.key.handle ≠ b.key.handle

/-- What holds of each slot. -/
structure SlotKept (observed : Observed) (slot : Slot) : Prop where
  drawn : slot.state.draws ≠ 0 ↔ slot.state.drawn = true
  retained : slot.key.handle ≠ 0 → slot.retained_rt = restorable (observed slot.key)

structure SourcesKept (sources : List Slot) (observed : Observed) : Prop where
  apart : sources.Pairwise Apart
  slots : ∀ slot ∈ sources, SlotKept observed slot

theorem slotKept_free (observed : Observed) : SlotKept observed {} := ⟨by decide, fun h => absurd rfl h⟩

theorem sourcesKept_initial (observed : Observed) : SourcesKept ({} : Tracker).sources observed where
  apart := by
    apply pairwise_replicate.mpr
    exact .inr fun h => absurd rfl h
  slots slot hslot := by
    rw [eq_of_mem_replicate hslot]
    exact slotKept_free observed

variable {effect : Effect} {sources : List Slot} {observed : Observed} {s : TrackedSources}
variable {t : Tracker}

/-- Two slots of one live handle are one slot. -/
theorem SourcesKept.unique (h : SourcesKept sources observed) {a b : Slot} (ha : a ∈ sources) (hb : b ∈ sources)
    (hlive : a.key.handle ≠ 0) (hsame : a.key.handle = b.key.handle) : a = b := by
  have hapart := h.apart
  clear h
  induction sources with
  | nil => cases ha
  | cons x rest ih =>
    obtain ⟨hfirst, hrest⟩ := pairwise_cons.mp hapart
    rcases mem_cons.mp ha with rfl | ha'
    · rcases mem_cons.mp hb with rfl | hb'
      · rfl
      · exact absurd hsame (hfirst b hb' hlive)
    rcases mem_cons.mp hb with rfl | hb'
    · exact absurd hsame.symm (hfirst a ha' (hsame ▸ hlive))
    · exact ih ha' hb' hrest

/-- A change of every slot that leaves its key and its retained model. -/
theorem SourcesKept.map (h : SourcesKept sources observed) {f : Slot → Slot} (hkey : ∀ x, (f x).key = x.key)
    (hretained : ∀ x, (f x).retained_rt = x.retained_rt)
    (hdrawn : ∀ x ∈ sources, ((f x).state.draws ≠ 0 ↔ (f x).state.drawn = true)) :
    SourcesKept (sources.map f) observed := by
  refine ⟨?_, ?_⟩
  · rw [pairwise_map]
    apply h.apart.imp
    intro a b hab
    unfold Apart
    rw [hkey, hkey]
    exact hab
  · intro slot hslot
    obtain ⟨x, hx, rfl⟩ := mem_map.mp hslot
    refine ⟨hdrawn x hx, ?_⟩
    rw [hkey, hretained]
    exact (h.slots x hx).retained

/-! ## One effect -/

theorem apply_key (effect : Effect) (slot : Slot) : (Slot.apply effect slot).key = slot.key := by
  unfold Slot.apply
  cases effect.kind <;> rfl

theorem add_draws_ne_zero {draws : Nat} (before : Nat) (h : draws ≠ 0) : add_draws before draws ≠ 0 := by
  unfold add_draws UINT32_MAX
  split <;> omega

theorem SlotKept.apply {slot : Slot} (h : SlotKept observed slot) (hkey : slot.key = effect.key) :
    SlotKept (observe observed effect) (Slot.apply effect slot) := by
  have hobserved : observe observed effect slot.key = .effect effect.kind :: observed slot.key := by
    unfold observe
    rw [hkey, Function.update_self]
  refine ⟨?_, ?_⟩
  · unfold Slot.apply
    cases effect.kind with
    | draw =>
      rcases render_target_model slot.state.model with _ | _
      · simp
      have hdraws : (if effect.draws = 0 then 1 else effect.draws) ≠ 0 := by
        split
        · decide
        · assumption
      simp [add_draws_ne_zero slot.state.draws hdraws]
    | _ => simp
  · rw [apply_key, hobserved]
    intro hlive
    have hretained := h.retained hlive
    unfold Slot.apply
    cases hkind : effect.kind with
    | legacy_rt | enhanced_rt | other => rfl
    | pass_other | draw => exact hretained

theorem SourcesKept.apply_effect (h : SourcesKept t.sources observed) (hvalid : valid effect.key = true) :
    SourcesKept (t.apply_effect effect).sources (observe observed effect) := by
  have hlive : effect.key.handle ≠ 0 := by
    unfold valid at hvalid
    simp only [Bool.and_eq_true, bne_iff_ne] at hvalid
    exact hvalid.1
  have hsame (x y : Slot) (hxy : Apart x y) : Apart (Slot.apply effect x) y ∧ Apart x (Slot.apply effect y) := by
    unfold Apart
    rw [apply_key, apply_key]
    exact ⟨hxy, hxy⟩
  refine ⟨?_, ?_⟩
  · exact keyed.pairwise_modify h.apart (fun x _ _ z _ hxz => (hsame x z hxz).1)
      (fun x _ _ z _ hzx => (hsame z x hzx).2)
  · intro slot hslot
    have honce : t.sources.Pairwise fun x z => x.key = effect.key → z.key ≠ effect.key := by
      apply h.apart.imp
      intro x z hxz hx hz
      rw [← hx] at hlive
      exact hxz hlive (congrArg Key.handle (hx.trans hz.symm))
    rcases keyed.mem_modify_of_pairwise honce hslot with ⟨hmem, hother⟩ | ⟨x, hx, hkey, rfl⟩
    · have hkept := h.slots slot hmem
      refine ⟨hkept.drawn, ?_⟩
      unfold observe
      rw [Function.update_of_ne hother]
      exact hkept.retained
    · exact (h.slots x hx).apply hkey

theorem SourcesKept.invalidate_all (h : SourcesKept t.sources observed) : SourcesKept t.invalidate_all.sources observed :=
  h.map (fun _ => rfl) (fun _ => rfl) fun _ _ => by simp

theorem SourcesKept.apply_effects (h : SourcesKept t.sources observed) (effects : List Effect) :
    SourcesKept (t.apply_effects effects).1.sources
      ((effects.takeWhile fun effect => valid effect.key).foldl observe observed) := by
  induction effects generalizing t observed with
  | nil => exact h
  | cons effect rest ih =>
    unfold Tracker.apply_effects
    rcases hvalid : valid effect.key with _ | _
    · rw [if_neg (by decide), takeWhile_cons_of_neg (by simp [hvalid])]
      exact h.invalidate_all
    rw [if_pos rfl, takeWhile_cons_of_pos (by simp [hvalid])]
    exact ih (h.apply_effect hvalid)

theorem SourcesKept.apply (h : SourcesKept t.sources observed) (recording : Recording) :
    SourcesKept (t.apply recording).1.sources ((applied recording).foldl observe observed) := by
  unfold Tracker.apply applied
  split
  · exact h.invalidate_all
  · exact h.apply_effects recording.effects

/-! ## Registration -/

theorem SourcesKept.congr {observed' : Observed} (h : SourcesKept sources observed)
    (hsame : ∀ slot ∈ sources, observed' slot.key = observed slot.key) :
    SourcesKept sources observed' := by
  refine ⟨h.apart, fun slot hslot => ?_⟩
  obtain ⟨hdrawn, hretained⟩ := h.slots slot hslot
  refine ⟨hdrawn, ?_⟩
  rw [hsame slot hslot]
  exact hretained

/-- A slot of the handle gives way to a new one, whose handle no other slot has. -/
theorem SourcesKept.put (handle : Nat) {fresh : Slot}
    (h : SourcesKept sources observed) (hfresh : SlotKept observed fresh)
    (hlive : fresh.key.handle ≠ 0)
    (hothers : ∀ z ∈ sources, z.key.handle = fresh.key.handle → z.key.handle = handle) :
    SourcesKept (keyed.modify (·.key.handle) handle (fun _ => fresh) sources) observed := by
  refine ⟨?_, ?_⟩
  · apply keyed.pairwise_modify h.apart
    · intro x _ hx z hz hxz _ heq
      have hsame := hx.trans (hothers z hz heq.symm).symm
      exact hxz (hsame ▸ heq ▸ hlive) hsame
    · intro x _ hx z hz hzx hz_live heq
      exact hzx hz_live ((hothers z hz heq).trans hx.symm)
  · intro slot hslot
    rcases keyed.mem_or_of_mem_modify hslot with hmem | ⟨x, _, _, rfl⟩
    · exact h.slots slot hmem
    · exact hfresh

theorem slotKept_registered (key : Key) (initial : Model) (hobserved : observed key = [.initial initial]) :
    SlotKept observed
      { key, state := { model := initial }
        retained_rt := if render_target_model initial then initial else .unknown } := by
  refine ⟨by simp, fun _ => ?_⟩
  rw [hobserved]
  rfl

theorem SourcesKept.register_source (h : SourcesKept s.tracker.sources s.observed) (key : Key) (initial : Model) :
    SourcesKept (s.tracker.register_source key initial).1.sources
      (s.observations (.register_source key initial)) := by
  have hsame : ∀ slot ∈ s.tracker.sources,
      s.observations (.register_source key initial) slot.key = s.observed slot.key := by
    intro slot hslot
    unfold TrackedSources.observations
    dsimp only
    split
    · rfl
    rename_i hnone
    apply Function.update_of_ne
    intro heq
    apply hnone
    rw [any_eq_true]
    exact ⟨slot, hslot, decide_eq_true heq⟩
  have hkept := h.congr hsame
  have hnew (hnone : ∀ slot ∈ s.tracker.sources, slot.key ≠ key) :
      s.observations (.register_source key initial) key = [.initial initial] := by
    unfold TrackedSources.observations
    dsimp only
    rw [if_neg]
    · exact Function.update_self ..
    · rw [any_eq_true]
      rintro ⟨slot, hslot, heq⟩
      exact hnone slot hslot (of_decide_eq_true heq)
  unfold Tracker.register_source
  rcases hvalid : valid key with _ | _
  · exact hkept
  have hlive : key.handle ≠ 0 := by
    unfold valid at hvalid
    simp only [Bool.and_eq_true, bne_iff_ne] at hvalid
    exact hvalid.1
  rw [if_neg (by decide)]
  split
  · rename_i slot hfind
    have hslot := mem_of_find?_eq_some hfind
    have hhandle := find?_some hfind
    rw [beq_iff_eq] at hhandle
    split
    · exact hkept
    rename_i hother
    apply hkept.put key.handle (slotKept_registered key initial _) hlive
    · exact fun _ _ heq => heq
    · apply hnew
      intro x hx heq
      have hsame_handle := (congrArg Key.handle heq).trans hhandle.symm
      have hslot_eq := h.unique hx hslot (heq ▸ hlive) hsame_handle
      exact hother (hslot_eq ▸ heq)
  rename_i hfind
  have hnone : ∀ slot ∈ s.tracker.sources, slot.key.handle ≠ key.handle := by
    intro slot hslot heq
    exact find?_eq_none.mp hfind slot hslot (beq_iff_eq.mpr heq)
  split
  · apply hkept.put 0 (slotKept_registered key initial _) hlive
    · exact fun z hz heq => absurd heq (hnone z hz)
    · exact hnew fun slot hslot heq => hnone slot hslot (congrArg Key.handle heq)
  · exact hkept

theorem SourcesKept.unregister_source (h : SourcesKept t.sources observed) (key : Key) :
    SourcesKept (t.unregister_source key).sources observed := by
  unfold Tracker.unregister_source
  split
  · exact h
  refine ⟨keyed.pairwise_modify h.apart ?_ ?_, ?_⟩
  · exact fun _ _ _ _ _ _ hfree => absurd rfl hfree
  · exact fun _ _ _ _ _ _ hlive => hlive
  · intro slot hslot
    rcases keyed.mem_or_of_mem_modify hslot with hmem | ⟨x, _, _, rfl⟩
    · exact h.slots slot hmem
    · exact slotKept_free observed

/-! ## Runs -/

theorem SourcesKept.call (h : SourcesKept s.tracker.sources s.observed)
    (c : TrackerCall) : SourcesKept (s.step c).tracker.sources (s.step c).observed := by
  cases c with
  | register_source key initial => exact h.register_source key initial
  | unregister_source key => exact h.unregister_source key
  | clear => exact sourcesKept_initial _
  | begin_batch => exact h.map (fun _ => rfl) (fun _ => rfl) fun _ _ => by simp
  | apply recording => exact h.apply recording
  | invalidate_all => exact h.invalidate_all
  | retire_live_models =>
    apply h.map
    · intro x
      split <;> rfl
    · intro x
      split <;> rfl
    · intro x hx
      split
      · simp
      · exact (h.slots x hx).drawn
  | rearm_retained_rt =>
    apply h.map
    · intro x
      split <;> rfl
    · intro x
      split <;> rfl
    · intro x hx
      split
      · simp
      · exact (h.slots x hx).drawn

/-- The state effect that was applied last, a pass report too. -/
def last_effect : List Observation → Option Effect.Kind
  | .effect kind :: rest => if kind = .draw then last_effect rest else some kind
  | _ => none

theorem last_effect_other {observations : List Observation}
    (h : last_effect observations = some .other) : last_model observations = some .other := by
  induction observations with
  | nil => cases h
  | cons observation rest ih =>
    cases observation with
    | initial => cases h
    | effect kind =>
      cases kind with
      | draw => exact ih h
      | other => rfl
      | legacy_rt | enhanced_rt | pass_other => cases h

/-- After any calls, a source has draws exactly when it is drawn, no two live slots hold one handle,
and a wipe is undone only to the render-target model last observed of the source. -/
theorem sources_are_restored (calls : List TrackerCall) :
    let s := run TrackedSources.step {} calls
    (∀ slot ∈ s.tracker.sources, (slot.state.draws ≠ 0 ↔ slot.state.drawn = true)) ∧
    s.tracker.sources.Pairwise Apart ∧
    ∀ (i : Nat) (slot slot' : Slot), s.tracker.sources[i]? = some slot →
      s.tracker.rearm_retained_rt.1.sources[i]? = some slot' →
      slot' = slot ∨ ∃ model, slot' = { slot with state := { model } } ∧
        render_target_model model = true ∧ last_model (s.observed slot.key) = some model ∧
        last_effect (s.observed slot.key) ≠ some .other := by
  intro s
  have h : SourcesKept s.tracker.sources s.observed :=
    invariant (fun (s : TrackedSources) c (h : SourcesKept s.tracker.sources s.observed) => h.call c)
      calls (sourcesKept_initial _)
  refine ⟨fun slot hslot => (h.slots slot hslot).drawn, h.apart, ?_⟩
  intro i slot slot' hslot hslot'
  unfold Tracker.rearm_retained_rt at hslot'
  rw [getElem?_map, hslot, Option.map_some, Option.some.injEq] at hslot'
  rcases hretired : Tracker.retired slot with _ | _
  · rw [hretired, if_neg (by decide)] at hslot'
    exact Or.inl hslot'.symm
  rw [hretired, if_pos rfl] at hslot'
  unfold Tracker.retired at hretired
  simp only [Bool.and_eq_true, bne_iff_ne] at hretired
  obtain ⟨⟨hlive, hrt⟩, -⟩ := hretired
  have hretained := (h.slots slot (mem_of_getElem? hslot)).retained hlive
  have hlast : last_model (s.observed slot.key) = some slot.retained_rt := by
    rw [hretained] at hrt ⊢
    exact restorable_spec hrt
  refine Or.inr ⟨slot.retained_rt, hslot'.symm, hrt, hlast, ?_⟩
  intro hother
  rw [last_effect_other hother, Option.some.injEq] at hlast
  rw [← hlast] at hrt
  cases hrt

/-- Two sources are drawn, one leaves its render target, and a wipe is undone for the other. -/
theorem one_source_is_restored :
    let calls := [.register_source ⟨1, 1⟩ .unknown, .register_source ⟨2, 1⟩ .unknown,
      .apply { effects := [{ key := ⟨1, 1⟩, kind := .legacy_rt }, { key := ⟨2, 1⟩, kind := .legacy_rt },
        { key := ⟨1, 1⟩, kind := .draw }, { key := ⟨2, 1⟩, kind := .other }] },
      .invalidate_all]
    let t := (run TrackedSources.step {} calls).tracker
    t.rearm_retained_rt.2 = 1 ∧ t.rearm_retained_rt.1.state ⟨1, 1⟩ = { model := .legacy_rt } ∧
      t.sources.Pairwise Apart :=
  ⟨by decide +kernel, by decide +kernel, (sources_are_restored _).2.1⟩

end taxi_camera.source_state
