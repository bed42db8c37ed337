-- The publication of the handoff: what a ticket that is published has been
-- checked for, that a standing publication names what the registry has, and
-- what the questions about it answer.
import TaxiCam.HandoffRegistry

namespace taxi_camera.scene.SceneHandoff

open List

variable {s s' : SceneHandoff} {i j : Fin 4}

/-! ## Resolving handles -/

variable {feed : Feed} {handles ids : Feed → Nat} {epoch handle key newest : Nat}
variable {named : Option Nat} {found : Pending} {ticket : SceneCaptureTicket}
variable {result : SceneHandoff × Bool} {manager : SceneManagerIdentity}

theorem holders_single (h : s.holders handle = [i]) : (s.devices i).key ≠ 0 ∧
      ∀ j r, (s.devices j).key ≠ 0 → Entry s j handle r → j = i := by
  have hmem (j : Fin 4) : j ∈ s.holders handle ↔
      (s.devices j).key ≠ 0 ∧ ((s.devices j).resources.lookup handle).isSome = true := by
    simp [holders]
  rw [h] at hmem
  refine ⟨((hmem i).mp (mem_singleton_self i)).1, fun j r hk hr => ?_⟩
  exact mem_singleton.mp ((hmem j).mpr ⟨hk, by rw [hr]; rfl⟩)

theorem identity_some {identity : SceneResourceIdentity} (h : s.identity_at i handle = some identity) :
    ∃ r, Entry s i handle r ∧ identity = ⟨(s.devices i).epoch, r.id, r.generation⟩ := by
  obtain ⟨r, hr, rfl⟩ := Option.map_eq_some_iff.mp h
  exact ⟨r, hr, rfl⟩

/-- A feed whose handle is one resource of the pending device. -/
def Resolved (s : SceneHandoff) (handles : Feed → Nat) (pending : Pending) (feed : Feed) : Prop :=
  handles feed ≠ 0 → ∃ i, s.holders (handles feed) = [i] ∧
    s.identity_at i (handles feed) = some (pending.resources feed) ∧
      (s.devices i).key = pending.device_key

theorem resolve_feed_some {pending : Pending} (h : s.resolve_feed handles pending feed = some found) :
    Resolved s handles found feed ∧ (∀ other, other ≠ feed → found.resources other = pending.resources other) ∧
      (pending.device_key ≠ 0 → found.device_key = pending.device_key) := by
  unfold resolve_feed at h
  split at h
  · rename_i h0
    obtain rfl := Option.some.inj h
    exact ⟨fun hne => absurd h0 hne, fun _ _ => rfl, fun _ => rfl⟩
  split at h
  · rename_i i hholders
    split at h
    · cases h
    rename_i identity hidentity
    split at h
    · cases h
    rename_i hkey
    obtain rfl := Option.some.inj h
    refine ⟨fun _ => ⟨i, hholders, ?_, rfl⟩, fun other hne => ?_, fun h0 => ?_⟩
    · rw [hidentity]
      dsimp only
      rw [Function.update_self]
    · exact Function.update_of_ne hne ..
    · by_contra hne
      exact hkey ⟨h0, fun he => hne he.symm⟩
  · cases h

/-- Every feed of a resolved list is resolved. -/
theorem resolve_all (feeds : List Feed) (h : feeds.foldlM (s.resolve_feed handles) {} = some found) :
    ∀ feed ∈ feeds, Resolved s handles found feed := by
  induction feeds using reverseRecOn generalizing found with
  | nil =>
    intro feed hmem
    cases hmem
  | append_singleton feeds last ih =>
    rw [foldlM_append] at h
    obtain ⟨before, hbefore, hlast⟩ := Option.bind_eq_some_iff.mp h
    have hstep : s.resolve_feed handles before last = some found := by
      simpa using hlast
    obtain ⟨hnew, hkept, hkey⟩ := resolve_feed_some hstep
    intro feed hmem
    by_cases hfeed : feed = last
    · rw [hfeed]
      exact hnew
    have hold : feed ∈ feeds := by simpa [hfeed] using hmem
    intro h0
    obtain ⟨i, hholders, hidentity, hi⟩ := ih hbefore feed hold h0
    refine ⟨i, hholders, ?_, ?_⟩
    · rw [hkept feed hfeed]
      exact hidentity
    · rw [hkey (hi ▸ (holders_single hholders).1)]
      exact hi

theorem resolve_some (h : s.resolve handles = some found) (feed : Feed) : Resolved s handles found feed :=
  resolve_all _ h feed (mem_finRange feed)

/-! ## Publishing -/

theorem pair_named_iff (h : feeds_named manager ids handles = true) : handles 0 ≠ 0 ∧ handles 0 ≠ handles 1 := by
  simp only [feeds_named, Bool.and_eq_true, pair_named, Bool.not_eq_true', Bool.or_eq_false_iff,
    beq_eq_false_iff_ne] at h
  exact ⟨h.1.1.1.2, h.1.2⟩

/-- Feeds that are named have handles of their own. -/
theorem feeds_named_distinct (h : feeds_named manager ids handles = true) {before : Feed} (hlt : before < feed)
    (h0 : handles feed ≠ 0) : handles feed ≠ handles before := by
  have hpair := pair_named_iff h
  by_cases hfeed : feed.val < 2
  · have hbefore : before.val < feed.val := hlt
    obtain rfl : feed = 1 := Fin.ext (by omega)
    obtain rfl : before = 0 := Fin.ext (by omega)
    exact hpair.2.symm
  simp only [feeds_named, Bool.and_eq_true, all_eq_true] at h
  have hoptional := h.2 feed (mem_finRange feed)
  simp only [hfeed, decide_false, Bool.false_or, optional_named, Bool.and_eq_true,
    beq_iff_eq, Bool.or_eq_true, all_eq_true] at hoptional
  have hid : ids feed ≠ 0 := by
    intro hid
    have := hoptional.1
    simp [hid, h0] at this
  have := (hoptional.2.resolve_left hid) before (mem_finRange before)
  simp only [hlt, decide_true, Bool.not_true, bne_iff_ne] at this
  exact (this.resolve_left (by decide)).2

theorem count_ticket_eq (s : SceneHandoff) (ticket : SceneCaptureTicket) :
    ∃ diagnostics, s.count_ticket ticket = { s with diagnostics } := by
  unfold count_ticket
  split
  · exact ⟨_, rfl⟩
  · exact ⟨s.diagnostics, rfl⟩

/-- A scene is over: its epoch is in the past, or the handoff has ended. -/
def Over (s : SceneHandoff) (epoch : Nat) : Prop := s.exhausted = true ∨ epoch < s.scene_epoch

theorem next_scene (s : SceneHandoff) : Over (s.advance .scene_epoch).1 s.scene_epoch := by
  rcases advance_cases s .scene_epoch with ⟨h, -⟩ | h <;> rw [h]
  · refine .inr ?_
    show s.counters .scene_epoch < (s.count .scene_epoch).counters .scene_epoch
    rw [count_self]
    exact Nat.lt_succ_self _
  · exact .inl rfl

theorem Over.later (h : Over s epoch) (he : Evolves s s') : Over s' epoch :=
  h.imp he.exhausted fun hlt => lt_of_lt_of_le hlt (he.counters _)

theorem begin_scene_over (h : epoch ≤ s.scene_epoch) : Over s.begin_scene.1 epoch := by
  have hnext := next_scene { s.clear with
    owner_bound := false, owner := {}, owned_ids := fun _ => 0 }
  exact Or.imp id (fun hlt => lt_of_le_of_lt h hlt) hnext

theorem stop_scene_over (h : epoch ≤ s.scene_epoch) : Over s.stop_scene epoch :=
  Or.imp id (fun hlt => lt_of_le_of_lt h hlt) (next_scene _)

theorem next_scene_active (h : s.active = false) : (s.advance .scene_epoch).1.active = false := by
  rcases advance_cases s .scene_epoch with ⟨he, -⟩ | he <;> rw [he]
  · exact h
  · rfl

theorem advance_owner (c : Counter) : (s.advance c).1.owner_bound = s.owner_bound ∧
    (s.advance c).1.owner = s.owner ∧ (s.advance c).1.owned_ids = s.owned_ids := by
  rcases advance_cases s c with ⟨h, -⟩ | h <;> rw [h]
  · exact ⟨rfl, rfl, rfl⟩
  · exact ⟨rfl, rfl, rfl⟩

/-- The state after a publication that is made. -/
def posted (s : SceneHandoff) (ticket : SceneCaptureTicket) (manager : SceneManagerIdentity)
    (ids handles : Feed → Nat) (pending : Pending) (diagnostics : Diagnostics) : SceneHandoff :=
  { s with
      owner_bound := true, owner := manager, owned_ids := ids
      publication :=
        { valid := true, scene_epoch := s.scene_epoch, sequence := ticket.sequence
          device_key := pending.device_key, manager, entry_ids := ids, handles
          resources := pending.resources }
      candidate_handles := handles, observed_handles := handles, diagnostics }

/-- The ends of a publication: a ticket that may not be published, the latest ticket refused,
its scene over for another owner, and the publication made. -/
inductive Publishes (s : SceneHandoff) (ticket : SceneCaptureTicket)
    (manager : SceneManagerIdentity) (ids handles : Feed → Nat) : SceneHandoff × Bool → Prop
  | stale {diagnostics} (h : s.names_latest ticket = false) :
      Publishes s ticket manager ids handles ({ s with diagnostics }, false)
  | refused {diagnostics} (h : s.names_latest ticket = true)
      (hno : ¬(feeds_named manager ids handles = true ∧ s.other_owner manager ids = true)) :
      Publishes s ticket manager ids handles ({ s with diagnostics }.refuse_latest, false)
  | replaced {t} (h : s.names_latest ticket = true) (ht : Keeps s t)
      (hnamed : feeds_named manager ids handles = true) (hother : s.other_owner manager ids = true)
      (hscene : Over t s.scene_epoch) (ha : t.active = false)
      (howner : t.owner_bound = s.owner_bound ∧ t.owner = s.owner ∧ t.owned_ids = s.owned_ids)
      (hp : t.publication = {}) (hc : t.candidate_handles = fun _ => 0) :
      Publishes s ticket manager ids handles (t, false)
  | published {pending diagnostics} (h : s.names_latest ticket = true)
      (hnamed : feeds_named manager ids handles = true) (hown : s.other_owner manager ids = false)
      (hresolve : s.resolve handles = some pending) :
      Publishes s ticket manager ids handles
        (s.posted ticket manager ids handles pending diagnostics, true)

theorem refused_calm (s : SceneHandoff) (diagnostics : Diagnostics) : Calm s { s with diagnostics }.refuse_latest :=
  ⟨⟨rfl, id, fun _ => le_rfl⟩, rfl, rfl, rfl, rfl, id, .inl, .inl rfl⟩

theorem publish_publishes (s : SceneHandoff) (ticket : SceneCaptureTicket)
    (manager : SceneManagerIdentity) (ids handles : Feed → Nat) :
    Publishes s ticket manager ids handles (s.publish ticket manager ids handles) := by
  obtain ⟨diagnostics, hcount⟩ := count_ticket_eq s ticket
  unfold publish
  dsimp only
  generalize hu : s.count_ticket ticket = u
  rw [hcount] at hu
  have hnames : u.names_latest ticket = s.names_latest ticket := by rw [← hu]; rfl
  have hother : u.other_owner manager ids = s.other_owner manager ids := by rw [← hu]; rfl
  have hresolves : u.resolve handles = s.resolve handles := by rw [← hu]; rfl
  split
  · rename_i hstale
    rw [← hu]
    exact Publishes.stale (hnames.symm.trans hstale)
  rename_i hlatest
  rw [hnames, Bool.not_eq_false] at hlatest
  split
  · rename_i hnamed
    rw [← hu]
    exact Publishes.refused hlatest fun hno => by simp [hno.1] at hnamed
  rename_i hnamed
  rw [Bool.not_eq_false] at hnamed
  split
  · rename_i hown
    generalize hv : { u with active := false, candidate_handles := fun _ => 0
                             observed_handles := fun _ => 0 } = v
    rw [← hu] at hv
    have hkeeps : Keeps v (v.advance .scene_epoch).1 := advance_keeps _
    have hover := next_scene v
    have hactive : (v.advance .scene_epoch).1.active = false := next_scene_active (by rw [← hv])
    have howner := advance_owner (s := v) .scene_epoch
    rw [← hv] at hkeeps hover hactive howner ⊢
    exact Publishes.replaced hlatest ⟨hkeeps.devices, hkeeps.exhausted, hkeeps.counters⟩ hnamed
      (hother.symm.trans hown) hover hactive howner rfl rfl
  rename_i hown
  rw [hother, Bool.not_eq_true] at hown
  split
  · rw [← hu]
    exact Publishes.refused hlatest fun hno => by simp [hno.2] at hown
  rename_i pending hresolve
  rw [hresolves] at hresolve
  rw [← hu]
  exact Publishes.published hlatest hnamed hown hresolve

/-! ## Standing publications -/

/-- What a standing publication says holds of the registry, the owner and the counters. -/
structure Stands (s : SceneHandoff) : Prop where
  active : s.active = true
  running : s.exhausted = false
  epoch : s.publication.scene_epoch = s.scene_epoch
  sequence : s.publication.sequence ≠ 0 ∧ s.publication.sequence ≤ s.capture_sequence
  distinct : ∀ feed other, s.publication.handles feed ≠ 0 →
    s.publication.handles feed = s.publication.handles other → feed = other
  device : s.publication.device_key ≠ 0
  resources : ∀ feed, s.publication.handles feed ≠ 0 → ∃ i,
    (s.devices i).key = s.publication.device_key ∧
      s.identity_at i (s.publication.handles feed) = some (s.publication.resources feed)
  observed : s.observed_handles = s.publication.handles
  owner : s.owner_bound = true ∧ s.owner = s.publication.manager ∧
    s.owned_ids = s.publication.entry_ids

/-- The registry is in order, and a valid publication stands. -/
structure Sound (s : SceneHandoff) : Prop where
  registry : Registry s
  publication : s.publication.valid = true → Stands s
  exhausted : s.exhausted = true → s.active = false

theorem sound_initial : Sound {} := ⟨registry_empty, fun h => (nomatch h), fun h => (nomatch h)⟩

/-- A step that keeps the publication and what the registry has for its handles. -/
theorem Stands.kept (h : Stands s) (hp : s'.publication = s.publication)
    (ha : s'.active = s.active) (he : s'.exhausted = s.exhausted)
    (hepoch : s'.scene_epoch = s.scene_epoch)
    (hsequence : s.capture_sequence ≤ s'.capture_sequence)
    (ho : s'.observed_handles = s.observed_handles)
    (howner : s'.owner_bound = s.owner_bound ∧ s'.owner = s.owner ∧ s'.owned_ids = s.owned_ids)
    (hresources : ∀ i feed, s.observed_handles feed ≠ 0 →
      (s'.devices i).key = (s.devices i).key ∧
        s'.identity_at i (s.observed_handles feed) = s.identity_at i (s.observed_handles feed)) :
    Stands s' := by
  refine ⟨ha.trans h.active, he.trans h.running, ?_, ?_, ?_, ?_, ?_, ?_, ?_⟩
  · rw [hp, hepoch]
    exact h.epoch
  · rw [hp]
    exact ⟨h.sequence.1, h.sequence.2.trans hsequence⟩
  · rw [hp]
    exact h.distinct
  · rw [hp]
    exact h.device
  · intro feed h0
    rw [hp] at h0 ⊢
    obtain ⟨i, hk, hidentity⟩ := h.resources feed h0
    rw [← h.observed] at h0 hidentity ⊢
    obtain ⟨hkey, hkept⟩ := hresources i feed h0
    exact ⟨i, hkey.trans hk, hkept.trans hidentity⟩
  · rw [hp, ho]
    exact h.observed
  · rw [howner.1, howner.2.1, howner.2.2, hp]
    exact h.owner

theorem Sound.calm (h : Sound s) (hc : Calm s s') : s'.publication.valid = true → Stands s' := by
  intro hv
  rcases hc.publication with hnone | ⟨hp, ho, he, ha⟩
  · rw [hnone] at hv
    cases hv
  rw [hp] at hv
  refine (h.publication hv).kept hp ha he hc.epoch (hc.counters _) ho
    ⟨hc.owner_bound, hc.owner, hc.owned_ids⟩ fun i feed _ => ?_
  unfold identity_at
  rw [hc.devices]
  exact ⟨rfl, rfl⟩

theorem Sound.ended (h : Sound s) (hc : Calm s s') (he : s'.exhausted = true) : s'.active = false := by
  rcases hc.ended he with he | ha
  · refine Bool.eq_false_iff.mpr fun ha => ?_
    have := hc.active ha
    rw [h.exhausted he] at this
    cases this
  · exact ha

/-- A changed device has what it had under every handle but that of its event. -/
theorem Change.spares {t : SceneHandoff}
    (h : Change t newest key named s') (h0 : named.getD 0 ≠ 0) (hne : handle ≠ named.getD 0)
    (i : Fin 4) : (s'.devices i).key = (t.devices i).key ∧ s'.identity_at i handle = t.identity_at i handle := by
  have hepoch {j : Fin 4} {d : Device} (hk : d.key = (t.devices j).key) (he : d.epoch = (t.devices j).epoch)
      (hl : d.resources.lookup handle = (t.devices j).resources.lookup handle) :
      ((t.set_device j d).devices i).key = (t.devices i).key ∧
        (t.set_device j d).identity_at i handle = t.identity_at i handle := by
    unfold identity_at
    rw [set_device_devices]
    split
    · rename_i hi
      rw [hi, hk, he, hl]
      exact ⟨rfl, rfl⟩
    · exact ⟨rfl, rfl⟩
  cases h with
  | refused => exact ⟨rfl, rfl⟩
  | cleared => exact absurd rfl h0
  | erased => exact hepoch rfl rfl (AList.lookup_erase_ne hne)
  | inserted => exact hepoch rfl rfl (AList.lookup_insert_ne hne)

/-- The devices apart, a registration call leaves what its event left. -/
theorem Change.frame {t : SceneHandoff} (h : Change t newest key named s') : ∃ devices, s' = { t with devices } := by
  cases h with
  | refused | cleared | erased | inserted => exact ⟨_, rfl⟩

theorem Registers.sound (h : Registers s key named s') (hs : Sound s) : Sound s' := by
  have hregistry := h.registry hs.registry
  obtain ⟨t, hcalm, hevent, hchange⟩ := h
  obtain ⟨devices, rfl⟩ := hchange.frame
  have hended : t.exhausted = true → t.active = false := hs.ended hcalm
  refine ⟨hregistry, fun hv => ?_, hended⟩
  have ht : Stands t := hs.calm hcalm hv
  have hspared : named.getD 0 ≠ 0 ∧ ∀ feed, t.observed_handles feed ≠ named.getD 0 := by
    rcases hevent.2 with ⟨hnone, -⟩ | ⟨-, h0, hne⟩
    · rw [hnone] at hv
      cases hv
    rcases hcalm.publication with hnone | ⟨-, ho, -⟩
    · rw [hnone] at hv
      cases hv
    rw [ho]
    exact ⟨h0, hne⟩
  exact ht.kept rfl rfl rfl rfl le_rfl rfl ⟨rfl, rfl, rfl⟩ fun i feed _ =>
    hchange.spares hspared.1 (hspared.2 feed) i

theorem names_latest_iff : s.names_latest ticket = true ↔
    s.active = true ∧ s.exhausted = false ∧ ticket.scene_epoch = s.scene_epoch ∧
      ticket.lifecycle_epoch = s.lifecycle_epoch ∧ ticket.sequence ≠ 0 ∧
      ticket.sequence = s.capture_sequence ∧
      (s.publication.valid = true → s.publication.sequence ≠ ticket.sequence) := by
  simp [names_latest, and_assoc, imp_iff_not_or]

theorem Sound.posted (h : Sound s) {pending : Pending} (hlatest : s.names_latest ticket = true)
    (hnamed : feeds_named manager ids handles = true)
    (hresolve : s.resolve handles = some pending) (diagnostics : Diagnostics) :
    Sound (s.posted ticket manager ids handles pending diagnostics) := by
  obtain ⟨hactive, hrunning, -, -, h0, hsequence, -⟩ := names_latest_iff.mp hlatest
  have hkeeps : Keeps s (s.posted ticket manager ids handles pending diagnostics) := ⟨rfl, id, fun _ => le_rfl⟩
  refine ⟨hkeeps.registry h.registry, fun _ => ?_, h.exhausted⟩
  refine ⟨hactive, hrunning, rfl, ⟨h0, hsequence.le⟩, ?_, ?_, ?_, rfl, rfl, rfl, rfl⟩
  · show ∀ feed other, handles feed ≠ 0 → handles feed = handles other → feed = other
    intro feed other hfeed he
    rcases lt_trichotomy feed other with hlt | heq | hlt
    · exact absurd he.symm (feeds_named_distinct hnamed hlt (he ▸ hfeed))
    · exact heq
    · exact absurd he (feeds_named_distinct hnamed hlt hfeed)
  · obtain ⟨i, hholders, -, hk⟩ := resolve_some hresolve 0 (pair_named_iff hnamed).1
    show pending.device_key ≠ 0
    rw [← hk]
    exact (holders_single hholders).1
  · intro feed hfeed
    obtain ⟨i, -, hidentity, hk⟩ := resolve_some hresolve feed hfeed
    exact ⟨i, hk, hidentity⟩

theorem Publishes.sound (h : Publishes s ticket manager ids handles result) (hs : Sound s) : Sound result.1 := by
  cases h with
  | stale =>
    have hc (d : Diagnostics) : Calm s { s with diagnostics := d } :=
      ⟨⟨rfl, id, fun _ => le_rfl⟩, rfl, rfl, rfl, rfl, id, .inl, .inr ⟨rfl, rfl, rfl, rfl⟩⟩
    exact ⟨(hc _).registry hs.registry, hs.calm (hc _), hs.exhausted⟩
  | refused =>
    have hc := refused_calm s
    exact ⟨(hc _).registry hs.registry, hs.calm (hc _), hs.ended (hc _)⟩
  | replaced _ hk _ _ _ ha _ hp =>
    refine ⟨hk.registry hs.registry, fun hv => ?_, fun _ => ha⟩
    rw [hp] at hv
    cases hv
  | published hlatest hnamed _ hresolve => exact hs.posted hlatest hnamed hresolve _

/-! ## Every call -/

theorem begin_scene_cleared : s.begin_scene.1.publication = {} := by
  unfold begin_scene
  dsimp only
  rcases advance_cases { s.clear with
    owner_bound := false, owner := {}, owned_ids := fun _ => 0 } .scene_epoch with ⟨h, -⟩ | h <;>
      rw [h] <;> rfl

theorem stop_scene_cleared : s.stop_scene.publication = {} := by
  unfold stop_scene
  rcases advance_cases { s.clear with active := false, owner_bound := false } .scene_epoch
    with ⟨h, -⟩ | h <;> rw [h] <;> rfl

theorem begin_scene_active (h : s.begin_scene.1.exhausted = true) : s.begin_scene.1.active = false := by
  unfold begin_scene at h ⊢
  dsimp only at h ⊢
  rcases advance_cases { s.clear with
    owner_bound := false, owner := {}, owned_ids := fun _ => 0 } .scene_epoch with ⟨hc, he⟩ | hc
  · rw [hc] at h
    exact absurd ((show s.exhausted = false from he).symm.trans h) (by decide)
  · rw [hc]

/-- A step that leaves no publication is sound. -/
theorem Sound.cleared (h : Sound s) (hk : Keeps s s') (hp : s'.publication = {})
    (he : s'.exhausted = true → s'.active = false) : Sound s' := by
  refine ⟨hk.registry h.registry, fun hv => ?_, he⟩
  rw [hp] at hv
  cases hv

theorem target_none_cases {op : Op} (h : op.target = none) :
    op = .begin_scene ∨ op = .stop_scene ∨ Calm s (step s op) ∨
      ∃ ticket manager ids handles, op = .publish ticket manager ids handles := by
  cases op with
  | begin_scene => exact .inl rfl
  | stop_scene => exact .inr (.inl rfl)
  | begin_capture => exact .inr (.inr (.inl begin_capture_calm))
  | publish ticket manager ids handles =>
    exact .inr (.inr (.inr ⟨ticket, manager, ids, handles, rfl⟩))
  | try_unregister_resource key handle locked =>
    cases locked with
    | false => exact .inr (.inr (.inl (calm_refl s)))
    | true => cases h
  | register_device | unregister_device | register_resource | unregister_resource => cases h

theorem step_sound (s : SceneHandoff) (op : Op) (h : Sound s) : Sound (step s op) := by
  cases htarget : op.target with
  | some target => exact (step_registers htarget).sound h
  | none =>
    rcases target_none_cases (s := s) htarget with rfl | rfl | hc | ⟨ticket, manager, ids, handles, rfl⟩
    · exact h.cleared begin_scene_keeps begin_scene_cleared begin_scene_active
    · exact h.cleared stop_scene_keeps stop_scene_cleared fun _ => next_scene_active rfl
    · exact ⟨hc.registry h.registry, h.calm hc, h.ended hc⟩
    · exact (publish_publishes s ticket manager ids handles).sound h

theorem Publishes.keeps (h : Publishes s ticket manager ids handles result) : Keeps s result.1 := by
  cases h with
  | stale => exact ⟨rfl, id, fun _ => le_rfl⟩
  | refused => exact (refused_calm s _).toKeeps
  | replaced _ hk => exact hk
  | published => exact ⟨rfl, id, fun _ => le_rfl⟩

theorem Publishes.active (h : Publishes s ticket manager ids handles result) (ha : result.1.active = true) :
    s.active = true := by
  cases h with
  | stale | refused | published => exact ha
  | replaced _ _ _ _ _ hnot => exact absurd (hnot.symm.trans ha) (by decide)

theorem step_evolves (s : SceneHandoff) (op : Op) : Evolves s (step s op) := by
  cases htarget : op.target with
  | some target => exact (step_registers htarget).evolves
  | none =>
    refine Keeps.evolves ?_
    rcases target_none_cases (s := s) htarget with rfl | rfl | hc | ⟨ticket, manager, ids, handles, rfl⟩
    · exact begin_scene_keeps
    · exact stop_scene_keeps
    · exact hc.toKeeps
    · exact (publish_publishes s ticket manager ids handles).keeps

/-- No publication is made. -/
def Unpublished (s : SceneHandoff) : Op → Prop
  | .publish ticket manager ids handles => (s.publish ticket manager ids handles).2 = false
  | _ => True

/-- A step revokes the publication, leaves it, or publishes the latest capture. -/
theorem step_publication (s : SceneHandoff) (op : Op) :
    (step s op).publication = {} ∨ (step s op).publication = s.publication ∨
      (step s op).publication.sequence = s.capture_sequence ∧ ¬Unpublished s op := by
  have hcalm {t : SceneHandoff} (hc : Calm s t) :
      t.publication = {} ∨ t.publication = s.publication := hc.publication.imp id And.left
  cases htarget : op.target with
  | some target =>
    obtain ⟨t, hc, -, hchange⟩ := step_registers (s := s) htarget
    obtain ⟨devices, hframe⟩ := hchange.frame
    rw [hframe]
    exact (hcalm hc).imp id .inl
  | none =>
    rcases target_none_cases (s := s) htarget with
      rfl | rfl | hc | ⟨ticket, manager, entry_ids, handles, rfl⟩
    · exact .inl begin_scene_cleared
    · exact .inl stop_scene_cleared
    · exact (hcalm hc).imp id .inl
    have hpublish := publish_publishes s ticket manager entry_ids handles
    unfold step Unpublished
    dsimp only
    generalize s.publish ticket manager entry_ids handles = result at hpublish ⊢
    cases hpublish with
    | stale => exact .inr (.inl rfl)
    | refused => exact .inl rfl
    | replaced _ _ _ _ _ _ _ hp => exact .inl hp
    | published hlatest =>
      obtain ⟨-, -, -, -, -, hsequence, -⟩ := names_latest_iff.mp hlatest
      exact .inr (.inr ⟨hsequence, fun h => nomatch h⟩)

theorem run_sound (ops : List Op) : Sound (runs.run step {} ops) := runs.invariant step_sound ops sound_initial

theorem run_evolves (s : SceneHandoff) (ops : List Op) : Evolves s (runs.run step s ops) := by
  induction ops generalizing s with
  | nil => exact evolves_refl s
  | cons op rest ih => exact (step_evolves s op).trans (ih _)

/-! ## Questions -/

/-- What a match says: the resource of a feed, as the publication names it, is under the handle. -/
theorem match_some (h : (s.match_resource key handle).matched = true) :
    s.active = true ∧ s.exhausted = false ∧ s.publication.valid = true ∧
      s.publication.scene_epoch = s.scene_epoch ∧ s.publication.device_key = key ∧
      ∃ i feed, s.device key = some i ∧ handle ≠ 0 ∧ s.publication.handles feed = handle ∧
        s.identity_at i handle = some (s.publication.resources feed) ∧
        s.match_resource key handle =
          { matched := true, feed := feed.val, scene_epoch := s.scene_epoch
            capture_sequence := s.publication.sequence, manager := s.publication.manager
            entry_id := s.publication.entry_ids feed, resource := s.publication.resources feed } := by
  unfold match_resource at h ⊢
  split at h
  · cases h
  rename_i hnot
  rw [if_neg hnot]
  simp only [Bool.or_eq_true, Bool.not_eq_true', bne_iff_ne, beq_iff_eq, not_or, not_not, Bool.not_eq_false] at hnot
  obtain ⟨⟨⟨⟨⟨ha, he⟩, hv⟩, hepoch⟩, hkey⟩, h0⟩ := hnot
  refine ⟨ha, by simpa using he, hv, hepoch, hkey, ?_⟩
  cases hd : s.device key with
  | none =>
    rw [hd] at h
    cases h
  | some i =>
    rw [hd] at h
    dsimp only at h ⊢
    cases hidentity : s.identity_at i handle with
    | none =>
      rw [hidentity] at h
      cases h
    | some identity =>
      rw [hidentity] at h
      dsimp only at h ⊢
      split at h
      · cases h
      rename_i feed hfeed
      have hfound := find?_some hfeed
      simp only [Bool.and_eq_true, bne_iff_ne, beq_iff_eq] at hfound
      rw [← hfound.2] at hidentity ⊢
      exact ⟨i, feed, rfl, h0, hfound.1.2, hidentity, rfl⟩

/-- A named handle matches, with what the publication says of its feed. -/
theorem Sound.match_named (h : Sound s) (hv : s.publication.valid = true) (h0 : s.publication.handles feed ≠ 0) :
    s.match_resource s.publication.device_key (s.publication.handles feed) =
      { matched := true, feed := feed.val, scene_epoch := s.scene_epoch
        capture_sequence := s.publication.sequence, manager := s.publication.manager
        entry_id := s.publication.entry_ids feed, resource := s.publication.resources feed } := by
  have hs := h.publication hv
  obtain ⟨i, hk, hidentity⟩ := hs.resources feed h0
  have hdevice := h.registry.device hk hs.device
  unfold match_resource
  rw [if_neg (by simp [hs.active, hs.running, hv, hs.epoch, h0]), hdevice]
  dsimp only
  rw [hidentity]
  dsimp only
  cases hfind : (finRange 4).find? fun other =>
      s.publication.handles other != 0 && s.publication.handles other == s.publication.handles feed &&
        s.publication.resources other == s.publication.resources feed with
  | none =>
    have := find_finRange (i := feed) hfind
    simp [h0] at this
  | some other =>
    have hfound := find?_some hfind
    simp only [Bool.and_eq_true, bne_iff_ne, beq_iff_eq] at hfound
    obtain rfl := hs.distinct other feed hfound.1.1 hfound.1.2
    rfl

/-- A value is current while a standing publication, no older than it, names it. -/
theorem Sound.is_current_iff (h : Sound s) (m : SceneCopyMatch) :
    s.is_current m = true ↔ m.matched = true ∧ s.publication.valid = true ∧
      m.scene_epoch = s.scene_epoch ∧ m.capture_sequence ≠ 0 ∧
      m.capture_sequence ≤ s.publication.sequence ∧ m.manager = s.publication.manager ∧
      ∃ feed : Feed, feed.val = m.feed ∧ s.publication.handles feed ≠ 0 ∧
        m.entry_id = s.publication.entry_ids feed ∧ m.resource = s.publication.resources feed := by
  unfold is_current
  split
  · rename_i hfeed
    dsimp only
    split
    · rename_i hnot
      simp only [Bool.or_eq_true, Bool.not_eq_true', beq_iff_eq] at hnot
      refine iff_of_false Bool.false_ne_true ?_
      rintro ⟨hm, hv, -, -, -, -, feed, hval, h0, -⟩
      obtain rfl : feed = ⟨m.feed, hfeed⟩ := Fin.ext hval
      rcases hnot with (hnot | hnot) | hnot
      · exact absurd hm (by simp [hnot])
      · exact absurd hv (by simp [hnot])
      · exact h0 hnot
    rename_i hnot
    simp only [Bool.or_eq_true, Bool.not_eq_true', beq_iff_eq, not_or, Bool.not_eq_false] at hnot
    obtain ⟨⟨hm, hv⟩, h0⟩ := hnot
    rw [h.match_named hv h0]
    simp only [Bool.true_and, Bool.and_eq_true, beq_iff_eq, bne_iff_ne, decide_eq_true_eq]
    constructor
    · rintro ⟨⟨⟨⟨⟨he, hman⟩, hid⟩, hr⟩, hc⟩, hle⟩
      exact ⟨hm, hv, he, hc, hle, hman, ⟨m.feed, hfeed⟩, rfl, h0, hid, hr⟩
    · rintro ⟨-, -, he, hc, hle, hman, feed, hval, -, hid, hr⟩
      obtain rfl : feed = ⟨m.feed, hfeed⟩ := Fin.ext hval
      exact ⟨⟨⟨⟨⟨he, hman⟩, hid⟩, hr⟩, hc⟩, hle⟩
  rename_i hfeed
  refine iff_of_false Bool.false_ne_true ?_
  rintro ⟨-, -, -, -, -, -, feed, hval, -⟩
  exact hfeed (hval ▸ feed.isLt)

/-- A generation that stands in both states stands for one registration. -/
def OneRegistration (s s' : SceneHandoff) : Prop :=
  ∀ i j handle other r q, Entry s i handle r → Entry s' j other q → r.generation = q.generation →
    i = j ∧ handle = other ∧ r = q ∧ (s'.devices j).key = (s.devices i).key

/-- A generation is never given to a second registration: a handle that comes back has another. -/
theorem generations_name_one_registration (ops later : List Op) :
    OneRegistration (runs.run step {} ops) (runs.run step {} (ops ++ later)) := by
  intro i j handle other r q hr hq hsame
  have hregistry := (run_sound ops).registry
  rw [runs.run_append] at hq ⊢
  rcases (run_evolves _ later).entries j other q hq with ⟨hold, hkey⟩ | hnew
  · obtain ⟨rfl, rfl⟩ := hregistry.unique i j handle other r q hr hold hsame
    exact ⟨rfl, rfl, Option.some.inj (hr.symm.trans hold), hkey⟩
  · have hcounted := hregistry.counted i handle r hr
    omega

end taxi_camera.scene.SceneHandoff
