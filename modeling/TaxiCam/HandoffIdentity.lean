-- Which matches are current: the history of a run says what the latest
-- publication is, and a match that was obtained is current exactly while
-- that publication names the same incarnation in the same scene.
import TaxiCam.HandoffPublication

namespace taxi_camera.scene.SceneHandoff

variable {s s' : SceneHandoff} {i : Fin 4}

/-! ## The latest publication of a history -/

/-- What a publication says of the feeds. -/
structure Naming where
  manager : SceneManagerIdentity
  entry_ids : Feed → Nat
  handles : Feed → Nat
  resources : Feed → Option SceneResourceIdentity

/-- The publication names the manager, the entry and the resource of the match for its feed. -/
def Naming.Names (p : Naming) (m : SceneCopyMatch) : Prop :=
  p.manager = m.manager ∧ ∃ feed : Feed, feed.val = m.feed ∧
    p.entry_ids feed = m.entry_id ∧ p.resources feed = some m.resource

def Naming.spares (p : Naming) (handle : Nat) : Bool :=
  handle != 0 && (List.finRange 4).all fun feed => p.handles feed != handle

/-- The resource behind a handle, when one device has it. -/
def incarnation (s : SceneHandoff) (handle : Nat) : Option SceneResourceIdentity :=
  if handle = 0 then none
  else
    match s.holders handle with
    | [i] => s.identity_at i handle
    | _ => none

/-- The latest publication after a call. Registrations on its handles or of a device take it back,
as do scene changes and a refusal of the latest ticket. -/
def announce (s : SceneHandoff) (latest : Option Naming) (op : Op) : Option Naming :=
  match op.target with
  | some (_, named) => latest.filter fun p => p.spares (named.getD 0)
  | none =>
    match op with
    | .begin_scene | .stop_scene => none
    | .publish ticket manager ids handles =>
      if (s.publish ticket manager ids handles).2 then
        some ⟨manager, ids, handles, fun feed => s.incarnation (handles feed)⟩
      else if s.names_latest ticket then none
      else latest
    | _ => latest

def chronicle (h : SceneHandoff × Option Naming) (op : Op) : SceneHandoff × Option Naming :=
  (step h.1 op, announce h.1 h.2 op)

/-- The latest publication of a run. -/
def latest (ops : List Op) : Option Naming := (runs.run chronicle ({}, none) ops).2

/-- What the publication of a state says. -/
def naming (s : SceneHandoff) : Option Naming :=
  if s.publication.valid then
    some ⟨s.publication.manager, s.publication.entry_ids, s.publication.handles, fun feed =>
      if s.publication.handles feed = 0 then none else some (s.publication.resources feed)⟩
  else none

theorem naming_cleared (h : s.publication = {}) : s.naming = none := by
  unfold naming
  rw [h]
  rfl

theorem naming_same (h : s'.publication = s.publication) : s'.naming = s.naming := by
  unfold naming
  rw [h]

/-- While a scene is active the history tells what the handoff has published. -/
def Tells (h : SceneHandoff × Option Naming) : Prop :=
  Sound h.1 ∧ (h.1.active = true → h.2 = h.1.naming)

variable {handles ids : Feed → Nat} {handle key : Nat} {ticket : SceneCaptureTicket}
variable {m : SceneCopyMatch} {manager : SceneManagerIdentity}

theorem Registers.tells {named : Option Nat} (h : Registers s key named s')
    (hs : Sound s) (hactive : s'.active = true) :
    s'.naming = s.naming.filter fun p => p.spares (named.getD 0) := by
  obtain ⟨t, hcalm, hevent, hchange⟩ := h
  obtain ⟨devices, rfl⟩ := hchange.frame
  have hspares (hv : s.publication.valid = true) :
      (∀ feed, s.publication.handles feed ≠ named.getD 0) ↔ ∀ feed, s.observed_handles feed ≠ named.getD 0 := by
    rw [(hs.publication hv).observed]
  rcases hevent.2 with ⟨hnone, hwhy⟩ | ⟨hp, h0, hne⟩
  · rw [naming_cleared (s := { t with devices }) hnone]
    cases hn : s.naming with
    | none => rfl
    | some p =>
      unfold naming at hn
      split at hn
      · rename_i hv
        obtain rfl := Option.some.inj hn
        rw [Option.filter_some, if_neg]
        simp only [Naming.spares, Bool.and_eq_true, bne_iff_ne, List.all_eq_true]
        rintro ⟨h0, hall⟩
        have hobserved := (hspares hv).mp fun feed => hall feed (List.mem_finRange feed)
        rcases hwhy with ha | hw | ⟨feed, hfeed⟩
        · exact absurd (hactive.symm.trans ha) (by decide)
        · exact h0 hw
        · exact hobserved feed hfeed
      · cases hn
  have hsame : naming { t with devices } = s.naming := naming_same hp
  rw [hsame]
  cases hn : s.naming with
  | none => rfl
  | some p =>
    unfold naming at hn
    split at hn
    · rename_i hv
      obtain rfl := Option.some.inj hn
      rw [Option.filter_some, if_pos]
      simp only [Naming.spares, Bool.and_eq_true, bne_iff_ne, List.all_eq_true]
      exact ⟨h0, fun feed _ => (hspares hv).mpr hne feed⟩
    · cases hn

theorem incarnation_resolved {pending : Pending} (h : s.resolve handles = some pending) (feed : Feed) :
    s.incarnation (handles feed) = if handles feed = 0 then none else some (pending.resources feed) := by
  unfold incarnation
  split
  · rfl
  rename_i h0
  obtain ⟨i, hholders, hidentity, -⟩ := resolve_some h feed h0
  rw [hholders]
  exact hidentity

theorem Publishes.tells {result : SceneHandoff × Bool} {p : Option Naming}
    (h : Publishes s ticket manager ids handles result) (hp : p = s.naming) :
    (if result.2 then some ⟨manager, ids, handles, fun feed => s.incarnation (handles feed)⟩
      else if s.names_latest ticket then none else p) = result.1.naming := by
  cases h with
  | stale h =>
    rw [if_neg Bool.false_ne_true, if_neg (by simp [h]), hp]
    rfl
  | refused h =>
    rw [if_neg Bool.false_ne_true, if_pos h, naming_cleared rfl]
  | replaced h _ _ _ _ _ _ hnone =>
    rw [if_neg Bool.false_ne_true, if_pos h, naming_cleared hnone]
  | published _ _ _ hresolve =>
    unfold naming posted
    refine congrArg some ?_
    simp only [incarnation_resolved hresolve]

theorem begin_capture_naming (h : s.begin_capture.1.active = true) : s.begin_capture.1.naming = s.naming := by
  rcases begin_capture_cases s with ⟨-, hc⟩ | ⟨-, -, hc⟩ | ⟨-, hc⟩ <;> rw [hc] at h ⊢
  · exact naming_same rfl
  · cases h

theorem chronicle_tells (h : SceneHandoff × Option Naming) (op : Op) (ht : Tells h) : Tells (chronicle h op) := by
  obtain ⟨s, p⟩ := h
  obtain ⟨hs, hp⟩ := ht
  refine ⟨step_sound s op hs, fun hactive => ?_⟩
  dsimp only [chronicle] at hactive hp ⊢
  unfold announce
  cases htarget : op.target with
  | some target =>
    have hr := step_registers (s := s) htarget
    rw [hr.tells hs hactive]
    obtain ⟨t, hcalm, -, hchange⟩ := hr
    obtain ⟨devices, hframe⟩ := hchange.frame
    rw [hframe] at hactive
    rw [hp (hcalm.active hactive)]
  | none =>
    cases op with
    | begin_scene => exact (naming_cleared begin_scene_cleared).symm
    | stop_scene => exact (naming_cleared stop_scene_cleared).symm
    | begin_capture =>
      have hnaming := begin_capture_naming (s := s) hactive
      exact (hp (begin_capture_calm.active hactive)).trans hnaming.symm
    | publish ticket manager ids handles =>
      have hpublish := publish_publishes s ticket manager ids handles
      exact hpublish.tells (hp (hpublish.active hactive))
    | try_unregister_resource key handle locked =>
      cases locked with
      | false => exact hp hactive
      | true => cases htarget
    | register_device | unregister_device | register_resource | unregister_resource => cases htarget

theorem chronicle_run (ops : List Op) (s : SceneHandoff) (p : Option Naming) :
    (runs.run chronicle (s, p) ops).1 = runs.run step s ops := by
  induction ops generalizing s p with
  | nil => rfl
  | cons op rest ih => exact ih _ _

theorem latest_naming {ops : List Op} (h : (runs.run step {} ops).active = true) :
    latest ops = (runs.run step {} ops).naming := by
  have ht : Tells (runs.run chronicle ({}, none) ops) :=
    runs.invariant chronicle_tells ops ⟨sound_initial, fun h => nomatch h⟩
  rw [← chronicle_run ops {} none] at h ⊢
  exact ht.2 h

/-! ## Matches that are obtained -/

/-- A match that a question about the resource answered; `candidates` are the handles that
`observe_copy` found offered. -/
def Obtained (s : SceneHandoff) (key handle : Nat) (m : SceneCopyMatch) : Prop :=
  m.matched = true ∧
    (m = s.match_resource key handle ∨
      (∃ candidates destination, m = (observe_copy candidates s key handle destination).source) ∨
      ∃ candidates source, m = (observe_copy candidates s key source handle).destination)

theorem Obtained.match (h : Obtained s key handle m) :
    m = s.match_resource key handle ∧ (s.match_resource key handle).matched = true := by
  obtain ⟨hm, h⟩ := h
  have hmatch : m = s.match_resource key handle := by
    rcases h with h | ⟨candidates, destination, h⟩ | ⟨candidates, source, h⟩
    · exact h
    all_goals
      unfold observe_copy at h
      dsimp only at h
      split at h
      · rw [h] at hm
        cases hm
      · exact h
  exact ⟨hmatch, hmatch ▸ hm⟩

/-- What stays of the state in which a match was obtained: its resource was under its handle, and
its publication stood. -/
structure Origin (s : SceneHandoff) (key handle : Nat) (m : SceneCopyMatch) : Prop where
  matched : m.matched = true
  key_ne : key ≠ 0
  handle_ne : handle ≠ 0
  epoch : m.scene_epoch = s.scene_epoch
  sequence : m.capture_sequence ≠ 0 ∧ m.capture_sequence = s.publication.sequence ∧
    m.capture_sequence ≤ s.capture_sequence
  owner : s.owner_bound = true ∧ s.owner = m.manager ∧ s.owned_ids = s.publication.entry_ids
  resource : ∃ i r, Entry s i handle r ∧ (s.devices i).key = key ∧
    r.generation = m.resource.generation

theorem Obtained.origin (h : Obtained s key handle m) (hs : Sound s) : Origin s key handle m := by
  obtain ⟨rfl, hm⟩ := h.match
  obtain ⟨-, -, hv, -, hkey, i, feed, hdevice, h0, hfeed, hidentity, heq⟩ := match_some hm
  have hstands := hs.publication hv
  obtain ⟨r, hr, hresource⟩ := identity_some hidentity
  rw [heq]
  refine ⟨rfl, (device_some hdevice).1, h0, rfl, ⟨hstands.sequence.1, rfl, hstands.sequence.2⟩,
    ⟨hstands.owner.1, hstands.owner.2.1, hstands.owner.2.2⟩, i, r, hr, (device_some hdevice).2, ?_⟩
  rw [hresource]

/-! ## What ends a match -/

/-- No publication can name the match again: its scene is over, or its resource is gone. -/
def Ended (m : SceneCopyMatch) (s : SceneHandoff) : Prop :=
  Over s m.scene_epoch ∨ m.resource.generation ≤ s.counters .resource_counter ∧
    ∀ i handle r, Entry s i handle r → r.generation ≠ m.resource.generation

theorem Ended.later (h : Ended m s) (he : Evolves s s') : Ended m s' := by
  rcases h with (hx | hepoch) | ⟨hle, hgone⟩
  · exact .inl (.inl (he.exhausted hx))
  · exact .inl (.inr (lt_of_lt_of_le hepoch (he.counters _)))
  refine .inr ⟨hle.trans (he.counters _), fun i handle r hr => ?_⟩
  rcases he.entries i handle r hr with ⟨hold, -⟩ | hnew
  · exact hgone i handle r hold
  · exact fun heq => absurd hnew (by omega)

theorem Ended.not_current (h : Ended m s) (hs : Sound s) : s.is_current m = false := by
  refine Bool.eq_false_iff.mpr fun hcurrent => ?_
  obtain ⟨-, hv, hepoch, -, -, -, feed, -, h0, -, hr⟩ := (hs.is_current_iff m).mp hcurrent
  have hstands := hs.publication hv
  rcases h with (hx | hover) | ⟨-, hgone⟩
  · exact absurd (hstands.running.symm.trans hx) (by decide)
  · omega
  obtain ⟨i, -, hidentity⟩ := hstands.resources feed h0
  obtain ⟨r, hentry, heq⟩ := identity_some hidentity
  refine hgone i _ r hentry ?_
  rw [hr, heq]

/-- The calls that end a match of the resource under `handle` of device `key`, published for the
entries `ids`: a registration or an unregistration of the two, another scene or none, and the
latest ticket published for another owner. -/
def Ends (s : SceneHandoff) (key handle : Nat) (ids : Feed → Nat) (m : SceneCopyMatch) : Op → Prop
  | .begin_scene | .stop_scene => True
  | .publish ticket manager entry_ids handles =>
    s.names_latest ticket = true ∧ feeds_named manager entry_ids handles = true ∧
      (manager ≠ m.manager ∨ entry_ids ≠ ids)
  | op => ∃ named, op.target = some (key, named) ∧ ∀ x ∈ named, handle = x

/-- The scene of the match is over, or it still has its owner. -/
def Owned (ids : Feed → Nat) (m : SceneCopyMatch) (s : SceneHandoff) : Prop :=
  Over s m.scene_epoch ∨ s.owner_bound = true ∧ s.owner = m.manager ∧ s.owned_ids = ids

/-- What a step does to the owner of a scene that is not over. -/
theorem step_owned (op : Op)
    (hepoch : m.scene_epoch ≤ s.scene_epoch) (h : Owned ids m s) : Owned ids m (step s op) := by
  rcases h with hover | ⟨hbound, howner, hids⟩
  · exact .inl (hover.later (step_evolves s op))
  cases htarget : op.target with
  | some target =>
    obtain ⟨t, hcalm, -, hchange⟩ := step_registers (s := s) htarget
    obtain ⟨devices, hframe⟩ := hchange.frame
    rw [hframe]
    exact .inr ⟨hcalm.owner_bound.trans hbound, hcalm.owner.trans howner, hcalm.owned_ids.trans hids⟩
  | none =>
    rcases target_none_cases (s := s) htarget with
      rfl | rfl | hc | ⟨ticket, manager, entry_ids, handles, rfl⟩
    · exact .inl (begin_scene_over hepoch)
    · exact .inl (stop_scene_over hepoch)
    · exact .inr ⟨hc.owner_bound.trans hbound, hc.owner.trans howner, hc.owned_ids.trans hids⟩
    have hpublish := publish_publishes s ticket manager entry_ids handles
    show Owned ids m (s.publish ticket manager entry_ids handles).1
    generalize s.publish ticket manager entry_ids handles = result at hpublish ⊢
    cases hpublish with
    | stale | refused => exact .inr ⟨hbound, howner, hids⟩
    | replaced _ _ _ _ hscene =>
      exact .inl (Or.imp id (fun hlt => lt_of_le_of_lt hepoch hlt) hscene)
    | published _ _ hown =>
      refine .inr ⟨rfl, ?_⟩
      simp only [other_owner, hbound, Bool.true_and, Bool.or_eq_false_iff, bne_eq_false_iff_eq] at hown
      exact ⟨hown.1.symm.trans howner, hown.2.symm.trans hids⟩

theorem run_owned (ops : List Op) (hepoch : m.scene_epoch ≤ s.scene_epoch) (h : Owned ids m s) :
    Owned ids m (runs.run step s ops) := by
  induction ops generalizing s with
  | nil => exact h
  | cons op rest ih =>
    exact ih (hepoch.trans ((step_evolves s op).counters _)) (step_owned op hepoch h)

/-- A publication that is found later is as new as an earlier capture. -/
theorem run_sequence {sequence : Nat} (ops : List Op) (hle : sequence ≤ s.capture_sequence)
    (h : s.publication.valid = true → sequence ≤ s.publication.sequence)
    (hv : (runs.run step s ops).publication.valid = true) :
    sequence ≤ (runs.run step s ops).publication.sequence := by
  induction ops generalizing s with
  | nil => exact h hv
  | cons op rest ih =>
    refine ih (hle.trans ((step_evolves s op).counters _)) (fun hvalid => ?_) hv
    rcases step_publication s op with hnone | hsame | ⟨hnew, -⟩
    · rw [hnone] at hvalid
      cases hvalid
    · rw [hsame] at hvalid ⊢
      exact h hvalid
    rw [hnew]
    exact hle

/-- The call that ends a match ends it. -/
theorem Ends.ended {origin : SceneHandoff} {op : Op}
    (hs : Sound s) (hfrom : Sound origin) (horigin : Origin origin key handle m)
    (hlater : Evolves origin s) (howned : Owned origin.publication.entry_ids m s)
    (h : Ends s key handle origin.publication.entry_ids m op) : Ended m (step s op) := by
  have hepoch : m.scene_epoch ≤ s.scene_epoch := horigin.epoch ▸ hlater.counters _
  have hregistered {named : Option Nat} (htarget : op.target = some (key, named))
      (hnamed : ∀ x ∈ named, handle = x) : Ended m (step s op) := by
    have hr := step_registers (s := s) htarget
    have hnext := step_evolves s op
    obtain ⟨i, r, hr0, hk0, hg0⟩ := horigin.resource
    have hle : m.resource.generation ≤ origin.counters .resource_counter :=
      hg0 ▸ hfrom.registry.counted i handle r hr0
    by_cases hx : (step s op).exhausted = true
    · exact .inl (.inl hx)
    refine .inr ⟨hle.trans ((hlater.trans hnext).counters _), fun j other q hq hg => ?_⟩
    -- An entry of that generation is the old one, at its device and handle.
    rcases hnext.entries j other q hq with ⟨hold, -⟩ | hnew
    · rcases hlater.entries j other q hold with ⟨hold0, hkey⟩ | hnew
      · obtain ⟨rfl, rfl⟩ := hfrom.registry.unique i j handle other r q hr0 hold0 (hg0.trans hg.symm)
        rcases hr.gone hs.registry horigin.key_ne horigin.handle_ne hnamed (hkey.trans hk0) hq with hx' | hnew
        · exact hx hx'
        have := hlater.counters .resource_counter
        omega
      · omega
    have := hlater.counters .resource_counter
    omega
  cases op with
  | begin_scene => exact .inl (begin_scene_over hepoch)
  | stop_scene => exact .inl (stop_scene_over hepoch)
  | begin_capture =>
    obtain ⟨named, htarget, -⟩ := h
    cases htarget
  | publish ticket manager entry_ids handles =>
    obtain ⟨hlatest, hfeeds, hother⟩ := h
    rcases howned with hover | ⟨hbound, howner, hids⟩
    · exact .inl (hover.later (step_evolves s _))
    have hown : s.other_owner manager entry_ids = true := by
      simp only [other_owner, hbound, Bool.true_and, Bool.or_eq_true, bne_iff_ne]
      rw [howner, hids]
      exact hother.imp Ne.symm Ne.symm
    have hpublish := publish_publishes s ticket manager entry_ids handles
    show Ended m (s.publish ticket manager entry_ids handles).1
    generalize s.publish ticket manager entry_ids handles = result at hpublish ⊢
    cases hpublish with
    | stale hnot => exact absurd (hnot.symm.trans hlatest) (by decide)
    | refused _ hno => exact absurd ⟨hfeeds, hown⟩ hno
    | replaced _ _ _ _ hscene =>
      exact .inl (Or.imp id (fun hlt => lt_of_le_of_lt hepoch hlt) hscene)
    | published _ _ hnot => exact absurd (hnot.symm.trans hown) (by decide)
  | register_device | unregister_device | register_resource | unregister_resource
  | try_unregister_resource =>
    obtain ⟨named, htarget, hnamed⟩ := h
    exact hregistered htarget hnamed

/-! ## The law -/

theorem naming_names {p : Naming} (h : s.naming = some p) :
    p.Names m ↔ s.publication.manager = m.manager ∧ ∃ feed : Feed, feed.val = m.feed ∧
      s.publication.handles feed ≠ 0 ∧ s.publication.entry_ids feed = m.entry_id ∧
        s.publication.resources feed = m.resource := by
  unfold naming at h
  split at h
  · obtain rfl := Option.some.inj h
    refine and_congr_right fun _ => exists_congr fun feed => and_congr_right fun _ => ?_
    by_cases h0 : s.publication.handles feed = 0
    · simp [h0]
    · simp [h0]
  · cases h

theorem current_iff_named {origin : SceneHandoff} (horigin : Origin origin key handle m) (hs : Sound s)
    (hsequence : s.publication.valid = true → m.capture_sequence ≤ s.publication.sequence) :
    s.is_current m = true ↔ s.active = true ∧ s.scene_epoch = m.scene_epoch ∧ ∃ p, s.naming = some p ∧ p.Names m := by
  rw [hs.is_current_iff]
  constructor
  · rintro ⟨-, hv, hepoch, -, -, hmanager, feed, hval, h0, hid, hr⟩
    have hnaming : ∃ p, s.naming = some p := by
      unfold naming
      rw [if_pos hv]
      exact ⟨_, rfl⟩
    obtain ⟨p, hp⟩ := hnaming
    exact ⟨(hs.publication hv).active, hepoch.symm, p, hp, (naming_names hp).mpr
      ⟨hmanager.symm, feed, hval, h0, hid.symm, hr.symm⟩⟩
  · rintro ⟨-, hepoch, p, hp, hnames⟩
    obtain ⟨hmanager, feed, hval, h0, hid, hr⟩ := (naming_names hp).mp hnames
    have hv : s.publication.valid = true := by
      by_contra hnot
      unfold naming at hp
      rw [if_neg hnot] at hp
      cases hp
    exact ⟨horigin.matched, hv, hepoch.symm, horigin.sequence.1, hsequence hv, hmanager.symm,
      feed, hval, h0, hid.symm, hr.symm⟩

/-- A publication of the same handles names what the one before it named. -/
theorem refreshed_is_current (hs : Sound s) (hm : s.is_current m = true)
    (hpublished : (s.publish ticket manager ids handles).2 = true)
    (hsame : handles = s.publication.handles) :
    (s.publish ticket manager ids handles).1.is_current m = true := by
  obtain ⟨hmatched, hv, hepoch, h0, hle, hmanager, feed, hval, hne, hid, hr⟩ := (hs.is_current_iff m).mp hm
  have hstands := hs.publication hv
  have hsound := step_sound s (.publish ticket manager ids handles) hs
  have hpublish := publish_publishes s ticket manager ids handles
  change Sound (s.publish ticket manager ids handles).1 at hsound
  generalize s.publish ticket manager ids handles = result at hpublish hsound hpublished ⊢
  cases hpublish with
  | stale | refused | replaced => cases hpublished
  | @published pending diagnostics hlatest _ hown hresolve =>
    obtain ⟨-, -, -, -, -, hsequence, -⟩ := names_latest_iff.mp hlatest
    simp only [other_owner, hstands.owner.1, Bool.true_and, Bool.or_eq_false_iff, bne_eq_false_iff_eq] at hown
    refine (hsound.is_current_iff m).mpr ⟨hmatched, rfl, hepoch, h0, ?_, ?_, feed, hval, ?_, ?_, ?_⟩
    · show m.capture_sequence ≤ ticket.sequence
      rw [hsequence]
      exact hle.trans hstands.sequence.2
    · show m.manager = manager
      rw [hmanager, ← hstands.owner.2.1, hown.1]
    · rw [hsame]
      exact hne
    · show m.entry_id = ids feed
      rw [hid, ← hown.2, hstands.owner.2.2]
    · obtain ⟨i, hk, hidentity⟩ := hstands.resources feed hne
      obtain ⟨j, hholders, hresolved, -⟩ := resolve_some hresolve feed (hsame ▸ hne)
      rw [hsame] at hholders hresolved
      obtain ⟨r, hentry, -⟩ := identity_some hidentity
      obtain rfl := (holders_single hholders).2 i r (hk ▸ hstands.device) hentry
      rw [hr]
      exact Option.some.inj (hidentity.symm.trans hresolved)

/-- A match is current exactly while its scene is active and the latest publication names its
incarnation. What ends its resource, its device, its scene or its owner ends it for good, and
publishing the same handles again keeps it. -/
theorem matches_are_current_while_published (ops later : List Op) (key handle : Nat)
    (m : SceneCopyMatch) (hm : Obtained (runs.run step {} ops) key handle m) :
    let origin := runs.run step {} ops
    let s := runs.run step {} (ops ++ later)
    (s.is_current m = true ↔ s.active = true ∧ s.scene_epoch = m.scene_epoch ∧
      ∃ p, latest (ops ++ later) = some p ∧ p.Names m) ∧
    (∀ op, Ends s key handle origin.publication.entry_ids m op → ∀ rest,
      (runs.run step {} (ops ++ later ++ op :: rest)).is_current m = false) ∧
    ∀ ticket manager ids handles, s.is_current m = true →
      (s.publish ticket manager ids handles).2 = true → handles = s.publication.handles →
        (s.publish ticket manager ids handles).1.is_current m = true := by
  intro origin s
  have hfrom : Sound origin := run_sound ops
  have hs : Sound s := run_sound _
  have horigin := hm.origin hfrom
  have hrun : s = runs.run step origin later := runs.run_append ops later
  have hlater : Evolves origin s := hrun ▸ run_evolves origin later
  refine ⟨?_, fun op hends rest => ?_, fun _ _ _ _ => refreshed_is_current hs⟩
  · have hcurrent := current_iff_named horigin hs (by
      rw [hrun]
      exact run_sequence later horigin.sequence.2.2 fun _ => horigin.sequence.2.1.le)
    rw [hcurrent]
    refine and_congr_right fun hactive => ?_
    rw [latest_naming hactive]
  · have howned : Owned origin.publication.entry_ids m s := by
      rw [hrun]
      exact run_owned later horigin.epoch.le (Or.inr horigin.owner)
    have hended := hends.ended hs hfrom horigin hlater howned
    rw [runs.run_append, runs.run_cons]
    refine (hended.later (run_evolves _ rest)).not_current ?_
    exact runs.invariant step_sound rest (step_sound s op hs)

/-- Two textures at the addresses 100 and 101, published by a manager. -/
def publish_pair (ticket : SceneCaptureTicket) : Op :=
  .publish ticket ⟨9, 1⟩ (fun feed => [10, 11].getD feed.val 0)
    (fun feed => [100, 101].getD feed.val 0)

def first_pair : List Op :=
  [.register_device 5, .register_resource 5 100 1 true, .register_resource 5 101 2 true,
    .begin_scene, .begin_capture, publish_pair ⟨1, 4, 1⟩]

/-- A texture is destroyed and another one gets its address: the match of the first is over, also
once the address is published again. -/
theorem reused_address_is_not_current :
    (runs.run step {} (first_pair ++ [.begin_capture] ++ .unregister_resource 5 100 ::
      [.register_resource 5 100 1 true, .begin_capture, publish_pair ⟨1, 6, 3⟩])).is_current
        { matched := true, feed := 0, scene_epoch := 1, capture_sequence := 1, manager := ⟨9, 1⟩
          entry_id := 10, resource := ⟨1, 1, 1⟩ } = false := by
  have hlaw := matches_are_current_while_published first_pair [.begin_capture] 5 100
    { matched := true, feed := 0, scene_epoch := 1, capture_sequence := 1, manager := ⟨9, 1⟩
      entry_id := 10, resource := ⟨1, 1, 1⟩ } ⟨rfl, Or.inl (by decide +kernel)⟩
  exact hlaw.2.1 (.unregister_resource 5 100) ⟨some 100, rfl, fun _ h => Option.some.inj h⟩ _

end taxi_camera.scene.SceneHandoff
