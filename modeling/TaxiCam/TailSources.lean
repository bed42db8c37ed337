-- A source that the tracker takes for a render target that was drawn is one at
-- the end of the batch: a batch begins with no source drawn, a draw that is
-- applied found a render target, and every effect behind it forgets the draw.
import Mathlib.Data.List.Induction
import TaxiCam.SourceReplay
import TaxiCam.SourceStream

namespace taxi_camera.SceneCaptureManager

open source_state Recording List
open StreamEvent (effect execute execute_draw)

/-! ## The tracker against the sources -/

/-- Every slot that is drawn and a render target names a source that is one. -/
def Told (t : Tracker) (targets : Key → Bool) : Prop :=
  ∀ slot ∈ t.sources, valid slot.key = true → slot.state.drawn = true →
    render_target_model slot.state.model = true → targets slot.key = true

section
variable {t : Tracker} {targets : Key → Bool}

theorem told_of_undrawn (h : ∀ slot ∈ t.sources, valid slot.key = true → slot.state.drawn = false) :
    Told t targets := by
  intro slot hslot hvalid hdrawn _
  rw [h slot hslot hvalid] at hdrawn
  cases hdrawn

theorem told_map {f : source_state.Slot → source_state.Slot} (hf : ∀ slot, valid (f slot).key = true →
    (f slot).state.drawn = false) : Told ⟨t.sources.map f⟩ targets := by
  apply told_of_undrawn
  intro slot hslot hvalid
  obtain ⟨x, -, rfl⟩ := mem_map.mp hslot
  exact hf x hvalid

theorem told_begin_batch : Told t.begin_batch targets := told_map fun _ _ => rfl

theorem told_invalidate_all : Told t.invalidate_all targets := told_map fun _ _ => rfl

theorem told_retire_live_models : Told t.retire_live_models targets := by
  apply told_map
  intro slot hvalid
  by_cases hlive : slot.key.handle ≠ 0
  · rw [if_pos hlive]
  rw [if_neg hlive] at hvalid
  unfold valid at hvalid
  simp only [Bool.and_eq_true, bne_iff_ne] at hvalid
  exact absurd hvalid.1 hlive

theorem told_clear : Told t.clear targets := by
  apply told_of_undrawn
  intro slot hslot _
  rw [eq_of_mem_replicate hslot]

/-- A slot that is put in the place of another is not drawn. -/
theorem Told.put {κ : Type} [DecidableEq κ] {key : source_state.Slot → κ} {k : κ} {fresh : source_state.Slot}
    (h : Told t targets) (hfresh : fresh.state.drawn = false) :
    Told ⟨keyed.modify key k (fun _ => fresh) t.sources⟩ targets := by
  intro slot hslot hvalid hdrawn hmodel
  rcases keyed.mem_or_of_mem_modify hslot with hmem | ⟨x, _, _, rfl⟩
  · exact h slot hmem hvalid hdrawn hmodel
  rw [hfresh] at hdrawn
  cases hdrawn

theorem Told.register_source (h : Told t targets) (key : Key) (initial : Model) :
    Told (t.register_source key initial).1 targets := by
  unfold Tracker.register_source
  dsimp only
  split
  · exact h
  split
  · split
    · exact h
    · exact h.put rfl
  split
  · exact h.put rfl
  · exact h

theorem Told.unregister_source (h : Told t targets) (key : Key) : Told (t.unregister_source key) targets := by
  unfold Tracker.unregister_source
  split
  · exact h
  · exact h.put rfl

theorem Told.rearm_retained_rt (h : Told t targets) : Told t.rearm_retained_rt.1 targets := by
  intro slot hslot hvalid hdrawn hmodel
  obtain ⟨x, hx, rfl⟩ := mem_map.mp hslot
  by_cases hretired : Tracker.retired x = true
  · rw [if_pos hretired] at hdrawn
    cases hdrawn
  rw [if_neg hretired] at hvalid hdrawn hmodel ⊢
  exact h x hx hvalid hdrawn hmodel

/-- One effect, and what it does. -/
theorem Told.apply_effect {observed : Observed} (h : Told t targets)
    (hkept : SourcesKept t.sources observed) {e : Effect} (hvalid : valid e.key = true)
    {target : Bool} (hallowed : (effect e target).Allowed targets) :
    Told (t.apply_effect (counted e)) ((effect e target).execute targets) := by
  have hlive : e.key.handle ≠ 0 := by
    unfold valid at hvalid
    simp only [Bool.and_eq_true, bne_iff_ne] at hvalid
    exact hvalid.1
  have honce : t.sources.Pairwise fun x z => x.key = e.key → z.key ≠ e.key := by
    apply hkept.apart.imp
    intro x z hxz hx hz
    rw [← hx] at hlive
    exact hxz hlive (congrArg Key.handle (hx.trans hz.symm))
  intro slot hslot hslot_valid hdrawn hmodel
  rcases keyed.mem_modify_of_pairwise honce hslot with ⟨hmem, hother⟩ | ⟨x, hx, hkey, rfl⟩
  · -- another source, which the effect leaves alone
    rw [StreamEvent.execute_of_ne hother]
    exact h slot hmem hslot_valid hdrawn hmodel
  -- only a draw leaves its source drawn
  rw [apply_key] at hslot_valid ⊢
  have hkey' : x.key = e.key := hkey
  have hdraw : e.kind = .draw := by
    unfold source_state.Slot.apply counted at hdrawn
    cases hk : e.kind with
    | draw => rfl
    | _ =>
      rw [hk] at hdrawn
      cases hdrawn
  rw [execute_draw hdraw, hkey']
  exact hallowed hdraw

end

/-! ## One list -/

/-- What is noted of a list that is observed. -/
def noted (events : List StreamEvent) : Recording :=
  events.foldl (fun recording event =>
    match event with
    | .effect e _ => (recording.append e).1
    | .report _ _ => recording.invalidate) {}

/-- The effects among the events. -/
def effects (events : List StreamEvent) : List Effect :=
  events.filterMap fun event =>
    match event with
    | .effect e _ => some e
    | .report _ _ => none

/-- An event that the recording has an effect for. -/
def Followed : StreamEvent → Prop
  | .effect e _ => valid e.key = true
  | .report _ _ => False

/-- What is noted with success is valid, and was before. -/
theorem append_valid {r : Recording} {e : Effect} (h : (r.append e).1.invalid = false) :
    r.invalid = false ∧ valid e.key = true := by
  unfold append at h
  split at h
  · rename_i hinvalid
    rw [hinvalid] at h
    cases h
  rename_i hinvalid
  split at h
  · cases h
  rename_i hok
  simp only [Bool.or_eq_true, not_or, Bool.not_eq_true] at hok hinvalid
  exact ⟨hinvalid, by simpa using hok.2⟩

/-- A valid recording of a list follows each of its events. -/
theorem followed_of_valid (events : List StreamEvent) (h : (noted events).invalid = false) :
    (∀ event ∈ events, Followed event) ∧ noted events = recorded (effects events) := by
  induction events using reverseRecOn with
  | nil => exact ⟨fun _ he => (nomatch he), rfl⟩
  | append_singleton front event ih =>
    cases event with
    | report global after =>
      unfold noted at h
      rw [foldl_append] at h
      cases h
    | effect e target =>
      have hnoted : noted (front ++ [.effect e target]) = ((noted front).append e).1 := by
        unfold noted
        rw [foldl_append]
        rfl
      have heffects : effects (front ++ [.effect e target]) = effects front ++ [e] := by
        unfold effects
        rw [filterMap_append]
        rfl
      rw [hnoted] at h
      obtain ⟨hfront, hvalid⟩ := append_valid h
      obtain ⟨hfollowed, hrecorded⟩ := ih hfront
      refine ⟨?_, ?_⟩
      · intro event hevent
        rcases mem_append.mp hevent with hevent | hevent
        · exact hfollowed event hevent
        rw [mem_singleton.mp hevent]
        exact hvalid
      · rw [hnoted, heffects, hrecorded, recorded_snoc]

variable {item : CommandList} {targets : Key → Bool} {events : List StreamEvent}
variable {session_generation : Nat} {observed : Observed} {t : Tracker}

/-- The effects of a list, one by one, against what the list does. -/
theorem Told.run (h : Told t targets) (hkept : SourcesKept t.sources observed) (events : List StreamEvent)
    (hfollowed : ∀ event ∈ events, Followed event)
    (hvalid : runs.Guarded execute StreamEvent.Allowed targets events) :
    Told (runs.run Tracker.apply_effect t ((effects events).map counted)) (runs.run execute targets events) := by
  induction events generalizing t targets observed with
  | nil => exact h
  | cons event rest ih =>
    have hevent := hfollowed event mem_cons_self
    have hrest := fun x hx => hfollowed x (mem_cons_of_mem event hx)
    cases event with
    | report global after => exact hevent.elim
    | effect e target =>
      have hcounted : valid (counted e).key = true := hevent
      exact ih (h.apply_effect hkept hevent hvalid.1) (hkept.apply_effect hcounted) hrest hvalid.2

/-- A recording is applied. -/
theorem Told.apply (h : Told t targets) (hkept : SourcesKept t.sources observed) (events : List StreamEvent)
    (hvalid : runs.Guarded execute StreamEvent.Allowed targets events) :
    Told (t.apply (noted events)).1 (runs.run execute targets events) := by
  cases hinvalid : (noted events).invalid with
  | true =>
    unfold Tracker.apply
    rw [hinvalid, Bool.true_or, if_pos rfl]
    exact told_invalidate_all
  | false =>
    obtain ⟨hfollowed, hrecorded⟩ := followed_of_valid events hinvalid
    have hkeys : ∀ e ∈ effects events, valid e.key = true := by
      intro e he
      obtain ⟨event, hevent, hsome⟩ := mem_filterMap.mp he
      have hf := hfollowed event hevent
      cases event with
      | report global after => cases hsome
      | effect e' target =>
        rw [Option.some.injEq] at hsome
        exact hsome ▸ hf
    rcases recorded_eq (effects events) hkeys with ⟨hfits, hr⟩ | ⟨-, -, hi⟩
    · have hshort : ¬ (collapsed (effects events)).length > capacity := by omega
      have hgood := collapsed_recordable (effects events) hkeys
      rw [hrecorded, hr]
      unfold Tracker.apply
      rw [Bool.false_or, if_neg (by simpa using hshort), apply_effects_of_valid t _ fun e he => (hgood e he).valid,
        collapsed_replay t (effects events) hkeys]
      exact h.run hkept events hfollowed hvalid
    rw [hrecorded, hi] at hinvalid
    cases hinvalid

/-! ## What the manager knows of a list -/

/-- An event that moves no source. -/
def Quiet : StreamEvent → Prop
  | .effect e _ => e.kind = .draw
  | .report global _ => global = false

theorem run_quiet (h : ∀ event ∈ events, Quiet event) : runs.run execute targets events = targets := by
  induction events with
  | nil => rfl
  | cons event rest ih =>
    have hone : execute targets event = targets := by
      have hquiet := h event mem_cons_self
      cases event with
      | effect e target => exact execute_draw hquiet
      | report global after =>
        have hlocal : global = false := hquiet
        subst hlocal
        rfl
    rw [runs.run_cons, hone]
    exact ih fun x hx => h x (mem_cons_of_mem _ hx)

/-- An entry of the manager that has seen the list since its last Reset has noted what is recorded
on it, when it is of the session, and has seen a source only if it says so. -/
structure Observing (session_generation : Nat) (events : List StreamEvent) (item : CommandList) :
    Prop where
  session_le : item.session_generation ≤ session_generation
  effects_eq : item.awaiting_native_reset = false →
    item.session_generation = session_generation → item.source_effects = noted events
  quiet : item.awaiting_native_reset = false → item.source_touched = false →
    ∀ event ∈ events, Quiet event

theorem Observing.record (h : Observing session_generation events item) (event : StreamEvent) :
    Observing session_generation (events ++ [event]) (item.note session_generation event) := by
  have hsnoc (hquiet : ∀ x ∈ events, Quiet x) (hevent : Quiet event) : ∀ x ∈ events ++ [event], Quiet x := by
    intro x hx
    rcases mem_append.mp hx with hx | hx
    · exact hquiet x hx
    rw [mem_singleton.mp hx]
    exact hevent
  cases event with
  | effect e target =>
    unfold CommandList.note
    dsimp only
    by_cases hskip : e.kind = .draw ∧ item.session_generation ≠ session_generation
    · rw [if_pos hskip]
      refine ⟨h.session_le, fun _ hsession => absurd hsession hskip.2, fun ha ht => ?_⟩
      exact hsnoc (h.quiet ha ht) hskip.1
    rw [if_neg hskip]
    refine ⟨h.session_le, fun ha hsession => ?_, fun _ ht => (nomatch ht)⟩
    change (item.source_effects.append e).1 = _
    rw [h.effects_eq ha hsession]
    unfold noted
    rw [foldl_append]
    rfl
  | report global after =>
    have heffects (ha : item.awaiting_native_reset = false)
        (hsession : item.session_generation = session_generation) :
        item.source_effects.invalidate = noted (events ++ [.report global after]) := by
      rw [h.effects_eq ha hsession]
      unfold noted
      rw [foldl_append]
      rfl
    cases global with
    | true => exact ⟨h.session_le, heffects, fun _ ht => (nomatch ht)⟩
    | false => exact ⟨h.session_le, heffects, fun ha ht => hsnoc (h.quiet ha ht) rfl⟩

/-- A list that nothing is recorded on. -/
theorem observing_empty (hsession : item.session_generation ≤ session_generation) (heffects : item.source_effects = {}) :
    Observing session_generation [] item :=
  ⟨hsession, fun _ _ => heffects, fun _ _ _ he => (nomatch he)⟩

/-! ## The invariant -/

namespace TailedSources

structure Tailed (s : TailedSources) : Prop where
  kept : SourcesKept s.sources.tracker.sources s.sources.observed
  told : Told s.sources.tracker s.batch_end
  observing : ∀ native item, (s.lists native).item = some item →
    Observing s.session_generation (s.lists native).events item

theorem tailed_initial (targets : Key → Bool) : Tailed { targets } where
  kept := sourcesKept_initial _
  told := told_clear (t := {})
  observing _ _ h := by cases h

variable {s : TailedSources}

/-- Another list at an address. -/
theorem Tailed.set_list (h : s.Tailed) (native : Nat) {list : NativeStream}
    (hlist : ∀ item, list.item = some item → Observing s.session_generation list.events item) :
    (s.set_list native list).Tailed := by
  refine ⟨h.kept, h.told, fun other item hitem => ?_⟩
  unfold TailedSources.set_list at hitem ⊢
  dsimp only at hitem ⊢
  by_cases ho : other = native
  · subst ho
    rw [Function.update_self] at hitem ⊢
    exact hlist item hitem
  rw [Function.update_of_ne ho] at hitem ⊢
  exact h.observing other item hitem

theorem Tailed.record (h : s.Tailed) (native : Nat) (event : StreamEvent) : (s.record native event).Tailed := by
  apply h.set_list
  intro item hitem
  obtain ⟨old, hold, rfl⟩ := Option.map_eq_some_iff.mp hitem
  exact (h.observing native old hold).record event

theorem Tailed.register_list (h : s.Tailed) (native device_key generation : Nat) (observed : Bool) :
    (s.register_list native device_key generation observed).Tailed := by
  unfold TailedSources.register_list
  dsimp only
  split
  · exact h
  rename_i hnew
  apply h.set_list
  intro item hitem
  rw [Option.some.injEq] at hitem
  subst hitem
  cases observed with
  | true =>
    have hempty : (s.lists native).events = [] := by simpa using hnew
    rw [hempty]
    exact observing_empty (Nat.le_refl _) rfl
  | false => exact ⟨Nat.le_refl _, fun ha => (nomatch ha), fun ha => (nomatch ha)⟩

theorem Tailed.reset (h : s.Tailed) (native : Nat) : (s.reset native).Tailed := by
  apply h.set_list
  intro item hitem
  obtain ⟨old, -, rfl⟩ := Option.map_eq_some_iff.mp hitem
  exact observing_empty (Nat.le_refl _) rfl

variable {targets : Key → Bool} {sources : TrackedSources}

/-- Calls of the tracker that draw no source. -/
theorem Tailed.calls (h : s.Tailed) (hkept : SourcesKept sources.tracker.sources sources.observed)
    (htold : Told sources.tracker s.batch_end) : Tailed { s with sources } :=
  ⟨hkept, htold, h.observing⟩

/-! ## A batch -/

theorem Tailed.apply_list (h : s.Tailed) (hkept : SourcesKept sources.tracker.sources sources.observed)
    (htold : Told sources.tracker targets) (list : Nat × Bool)
    (hknown : s.unknown_list list.1 = false)
    (hvalid : runs.Guarded execute StreamEvent.Allowed targets (s.lists list.1).events) :
    SourcesKept (s.apply_list sources list).tracker.sources (s.apply_list sources list).observed ∧
      Told (s.apply_list sources list).tracker (runs.run execute targets (s.lists list.1).events) := by
  unfold unknown_list at hknown
  unfold TailedSources.apply_list
  cases hitem : (s.lists list.1).item with
  | none =>
    rw [hitem] at hknown
    cases hknown
  | some item =>
    rw [hitem] at hknown
    simp only [Bool.or_eq_false_iff, Bool.and_eq_false_iff, bne_eq_false_iff_eq] at hknown
    obtain ⟨hawaiting, hsession⟩ := hknown
    have hobserving := h.observing list.1 item hitem
    cases htouched : item.source_touched with
    | false =>
      simp only [htouched, Bool.not_false, if_true]
      rw [run_quiet (hobserving.quiet hawaiting htouched)]
      exact ⟨hkept, htold⟩
    | true =>
      have hsame := hsession.resolve_left (by rw [htouched]; decide)
      simp only [htouched, Bool.not_true, Bool.false_eq_true, if_false]
      rw [hobserving.effects_eq hawaiting hsame]
      have happlied := hkept.call (.apply (noted (s.lists list.1).events))
      split
      · exact ⟨happlied.call .invalidate_all, told_invalidate_all⟩
      · exact ⟨happlied, htold.apply hkept _ hvalid⟩

/-- The lists of a batch, each known. -/
theorem Tailed.apply_lists (h : s.Tailed) (hkept : SourcesKept sources.tracker.sources sources.observed)
    (htold : Told sources.tracker targets) (lists : List (Nat × Bool))
    (hknown : ∀ list ∈ lists, s.unknown_list list.1 = false)
    (hvalid : runs.Guarded execute StreamEvent.Allowed targets (s.batch_events (lists.map (·.1)))) :
    SourcesKept (lists.foldl s.apply_list sources).tracker.sources (lists.foldl s.apply_list sources).observed ∧
      Told (lists.foldl s.apply_list sources).tracker
        (runs.run execute targets (s.batch_events (lists.map (·.1)))) := by
  induction lists generalizing sources targets with
  | nil => exact ⟨hkept, htold⟩
  | cons list rest ih =>
    have hevents : s.batch_events ((list :: rest).map (·.1)) =
        (s.lists list.1).events ++ s.batch_events (rest.map (·.1)) := rfl
    rw [hevents, runs.guarded_append] at hvalid
    rw [hevents, runs.run_append]
    obtain ⟨hkept', htold'⟩ := h.apply_list hkept htold list (hknown list mem_cons_self) hvalid.1
    exact ih hkept' htold' (fun x hx => hknown x (mem_cons_of_mem _ hx)) hvalid.2

theorem Tailed.before_submission (h : s.Tailed) (lists : List (Nat × Bool))
    (hvalid : s.ValidStream (.before_submission lists)) : (s.before_submission lists).Tailed := by
  have hbegun := h.kept.call .begin_batch
  unfold TailedSources.before_submission
  split
  · exact ⟨hbegun.call .invalidate_all, told_invalidate_all, h.observing⟩
  rename_i hknown
  have hall : ∀ list ∈ lists, s.unknown_list list.1 = false := by
    intro list hlist
    rw [any_eq_true, not_exists] at hknown
    exact Bool.not_eq_true _ ▸ fun hunknown => hknown list ⟨hlist, hunknown⟩
  obtain ⟨hkept, htold⟩ := h.apply_lists hbegun told_begin_batch lists hall hvalid
  exact ⟨hkept, htold, h.observing⟩

/-! ## Runs -/

theorem Tailed.reset_session (h : s.Tailed) (keys : List Key) : (s.reset_session keys).Tailed := by
  have hregister (sources : TrackedSources) (hkept : SourcesKept sources.tracker.sources sources.observed)
      (htold : Told sources.tracker s.batch_end) :
      let later := keys.foldl (fun sources key => sources.step (.register_source key .unknown)) sources
      SourcesKept later.tracker.sources later.observed ∧ Told later.tracker s.batch_end := by
    induction keys generalizing sources with
    | nil => exact ⟨hkept, htold⟩
    | cons key rest ih => exact ih _ (hkept.call _) (htold.register_source key .unknown)
  obtain ⟨hkept, htold⟩ := hregister (s.sources.step .clear) (h.kept.call .clear)
    (told_clear (t := s.sources.tracker))
  refine ⟨hkept, htold, fun native item hitem => ?_⟩
  have hold := h.observing native item hitem
  refine ⟨Nat.le_succ_of_le hold.session_le, fun _ hsession => ?_, hold.quiet⟩
  have hle := hold.session_le
  change item.session_generation = s.session_generation + 1 at hsession
  omega

theorem Tailed.step (h : s.Tailed) (op : Op) (hvalid : s.ValidStream op) : (s.step op).Tailed := by
  cases op with
  | record native event => exact h.record native event
  | register_list native device_key generation observed =>
    exact h.register_list native device_key generation observed
  | reset native => exact h.reset native
  | destroy native => exact h.set_list native fun _ hitem => (nomatch hitem)
  | before_submission lists => exact h.before_submission lists hvalid
  | escape_unordered natives => exact ⟨h.kept, h.told, h.observing⟩
  | wipe => exact h.calls (h.kept.call .invalidate_all) told_invalidate_all
  | retire_sources =>
    have hretired : Told (s.sources.step .retire_live_models).tracker s.batch_end := told_retire_live_models
    exact h.calls ((h.kept.call .retire_live_models).call .rearm_retained_rt) hretired.rearm_retained_rt
  | rearm_source_states => exact h.calls (h.kept.call .rearm_retained_rt) h.told.rearm_retained_rt
  | register_source key initial =>
    exact h.calls (h.kept.call (.register_source key initial)) (h.told.register_source key initial)
  | unregister_source key =>
    exact h.calls (h.kept.call (.unregister_source key)) (h.told.unregister_source key)
  | reset_session keys => exact h.reset_session keys

theorem Told.candidate {t : Tracker} (h : Told t targets) {key : Key}
    (hdrawn : (t.state key).drawn = true) (hmodel : render_target_model (t.state key).model = true) :
    targets key = true := by
  unfold Tracker.state at hdrawn hmodel
  split at hdrawn
  · rename_i hvalid
    rw [if_pos hvalid] at hmodel
    split at hdrawn
    · rename_i slot hfind
      rw [hfind] at hmodel
      have hkey : slot.key = key := by simpa using find?_some hfind
      rw [← hkey]
      exact h slot (mem_of_find?_eq_some hfind) (hkey ▸ hvalid) hdrawn hmodel
    · cases hdrawn
  · cases hdrawn

/-- In every run of recordings, batches, wipes, retirements and rearms whose lists draw to a source
only while it is in a render-target state, a source that the tracker takes for a render target that
was drawn is in a render-target state at the end of the last ordered batch. -/
theorem tail_candidates_are_render_targets (targets : Key → Bool) (ops : List Op)
    (hvalid : runs.Guarded step ValidStream { targets } ops) (key : Key) :
    (runs.run step { targets } ops).tail_candidate key = true →
      (runs.run step { targets } ops).batch_end key = true := by
  intro hcandidate
  have hstep (t : TailedSources) (op : Op) (ht : t.Tailed) (hop : t.ValidStream op) :
      (t.step op).Tailed := ht.step op hop
  have htailed := runs.guarded_invariant hstep ops (tailed_initial targets) hvalid
  unfold tail_candidate at hcandidate
  simp only [Bool.and_eq_true] at hcandidate
  exact Told.candidate htailed.told hcandidate.1 hcandidate.2

/-- Source 9 leaves its render target in an escaped batch, is rearmed, and is drawn again in an
ordered batch that enters the render target. -/
theorem source_drawn_after_escape : let key : Key := ⟨9, 1⟩
    let draws : List Op := [.record 1 (.effect { key, kind := .legacy_rt } true),
      .record 1 (.effect { key, kind := .draw } true)]
    let ops : List Op := [.register_source key .unknown, .register_list 1 1 1 true] ++ draws ++
      [.before_submission [(1, false)], .record 2 (.effect { key, kind := .other } false),
        .escape_unordered [2], .retire_sources, .before_submission [(1, false)]]
    (runs.run step {} ops).tail_candidate key = true ∧ (runs.run step {} ops).batch_end key = true := by
  intro key draws ops
  have hcandidate : (runs.run step {} ops).tail_candidate key = true := by decide +kernel
  refine ⟨hcandidate, tail_candidates_are_render_targets (fun _ => false) ops ?_ key hcandidate⟩
  refine ⟨trivial, trivial, trivial, trivial, ?_, trivial, ?_, trivial, ?_, trivial⟩
  · exact ⟨fun h => (nomatch h), fun _ => rfl, trivial⟩
  · exact ⟨fun h => (nomatch h), trivial⟩
  · exact ⟨fun h => (nomatch h), fun _ => rfl, trivial⟩

end TailedSources

end taxi_camera.SceneCaptureManager
