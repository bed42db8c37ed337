-- What every call of the handoff keeps: device keys and registrations are
-- unique, registrations only disappear or are new, and a standing publication
-- names what the registry has.
import TaxiCam.SceneHandoff

namespace taxi_camera.scene.SceneHandoff

open List

variable {s s' : SceneHandoff} {i j : Fin 4}

/-! ## The parts of a call -/

theorem advance_cases (s : SceneHandoff) (c : Counter) :
    s.advance c = (s.count c, true) ∧ s.exhausted = false ∨ s.advance c = (s.exhaust, false) := by
  unfold advance
  split
  · exact .inr rfl
  rename_i h
  simp only [Bool.or_eq_true, not_or, Bool.not_eq_true] at h
  exact .inl ⟨rfl, h.1⟩

theorem find_finRange {p : Fin 4 → Bool} (h : (finRange 4).find? p = none) : p i = false := by
  have := find?_eq_none.mp h i (mem_finRange i)
  simpa using this

@[simp] theorem set_device_devices (d : Device) :
    (s.set_device i d).devices j = if j = i then d else s.devices j := by
  exact Function.update_apply ..

variable {c : Counter} {key other : Nat} {t : SceneHandoff}

theorem device_some (h : s.device key = some i) : key ≠ 0 ∧ (s.devices i).key = key := by
  unfold device at h
  split at h
  · cases h
  rename_i hk
  have := find?_some h
  exact ⟨hk, by simpa using this⟩

theorem device_none (hk : key ≠ 0) (h : s.device key = none) : (s.devices i).key ≠ key := by
  unfold device at h
  rw [if_neg hk] at h
  have := find_finRange (i := i) h
  simpa using this

/-! ## The registry -/

/-- A registration: the device in a slot has a resource under a handle. -/
def Entry (s : SceneHandoff) (i : Fin 4) (handle : Nat) (r : Resource) : Prop :=
  (s.devices i).resources.lookup handle = some r

structure Registry (s : SceneHandoff) : Prop where
  keys : ∀ i j, (s.devices i).key ≠ 0 → (s.devices i).key = (s.devices j).key → i = j
  counted : ∀ i handle r, Entry s i handle r → r.generation ≤ s.counters .resource_counter
  unique : ∀ i j handle other r q, Entry s i handle r → Entry s j other q →
    r.generation = q.generation → i = j ∧ handle = other

theorem registry_empty : Registry {} where
  keys _ _ h := absurd rfl h
  counted _ _ _ h := nomatch (AList.lookup_empty _).symm.trans h
  unique _ _ _ _ _ _ h := nomatch (AList.lookup_empty _).symm.trans h

theorem Registry.device (h : Registry s) (hk : (s.devices i).key = key) (h0 : key ≠ 0) : s.device key = some i := by
  cases hd : s.device key with
  | none => exact absurd hk (device_none h0 hd)
  | some j =>
    have hj := (device_some hd).2
    rw [h.keys j i (by rw [hj]; exact h0) (hj.trans hk.symm)]

/-- A later state: counters have only grown, and registrations are old ones on the same device,
or newer than all old ones. -/
structure Evolves (s s' : SceneHandoff) : Prop where
  exhausted : s.exhausted = true → s'.exhausted = true
  counters : ∀ c, s.counters c ≤ s'.counters c
  entries : ∀ i handle r, Entry s' i handle r →
    (Entry s i handle r ∧ (s'.devices i).key = (s.devices i).key) ∨
      s.counters .resource_counter < r.generation

theorem evolves_refl (s : SceneHandoff) : Evolves s s := ⟨id, fun _ => le_rfl, fun _ _ _ h => .inl ⟨h, rfl⟩⟩

theorem Evolves.trans (h : Evolves s t) (ht : Evolves t s') : Evolves s s' := by
  refine ⟨fun he => ht.exhausted (h.exhausted he), fun c => (h.counters c).trans (ht.counters c),
    fun i handle r hr => ?_⟩
  rcases ht.entries i handle r hr with ⟨hold, hk⟩ | hnew
  · rcases h.entries i handle r hold with ⟨hr, hk'⟩ | hnew
    · exact .inl ⟨hr, hk.trans hk'⟩
    · exact .inr hnew
  · exact .inr (lt_of_le_of_lt (h.counters _) hnew)

/-- A step that leaves the devices alone. -/
structure Keeps (s s' : SceneHandoff) : Prop where
  devices : s'.devices = s.devices
  exhausted : s.exhausted = true → s'.exhausted = true
  counters : ∀ c, s.counters c ≤ s'.counters c

theorem keeps_refl (s : SceneHandoff) : Keeps s s := ⟨rfl, id, fun _ => le_rfl⟩

theorem Keeps.trans (h : Keeps s t) (ht : Keeps t s') : Keeps s s' :=
  ⟨ht.devices.trans h.devices, fun he => ht.exhausted (h.exhausted he), fun c => (h.counters c).trans (ht.counters c)⟩

theorem Keeps.evolves (h : Keeps s s') : Evolves s s' := by
  refine ⟨h.exhausted, h.counters, fun i handle r hr => .inl ?_⟩
  unfold Entry at hr ⊢
  rw [h.devices] at hr ⊢
  exact ⟨hr, rfl⟩

theorem Keeps.registry (h : Keeps s s') (hr : Registry s) : Registry s' := by
  refine ⟨?_, ?_, ?_⟩
  · rw [h.devices]
    exact hr.keys
  · intro i handle r he
    unfold Entry at he
    rw [h.devices] at he
    exact (hr.counted i handle r he).trans (h.counters _)
  · intro i j handle other r q hi hj
    unfold Entry at hi hj
    rw [h.devices] at hi hj
    exact hr.unique i j handle other r q hi hj

theorem count_keeps (c : Counter) : Keeps s (s.count c) := by
  refine ⟨rfl, id, fun x => ?_⟩
  show s.counters x ≤ Function.update s.counters c (s.counters c + 1) x
  rw [Function.update_apply]
  split
  · rename_i hx
    rw [hx]
    exact Nat.le_succ _
  · exact le_rfl

@[simp] theorem count_self (c : Counter) : (s.count c).counters c = s.counters c + 1 := Function.update_self ..

theorem count_other {d : Counter} (h : d ≠ c) : (s.count c).counters d = s.counters d := Function.update_of_ne h ..

theorem exhaust_keeps : Keeps s s.exhaust := ⟨rfl, fun _ => rfl, fun _ => le_rfl⟩

theorem advance_keeps (c : Counter) : Keeps s (s.advance c).1 := by
  rcases advance_cases s c with ⟨h, -⟩ | h <;> rw [h]
  · exact count_keeps c
  · exact exhaust_keeps

/-! ## Changes of a device -/

/-- A device that is cleared, under a key that no other device has. -/
theorem Registry.clear_device (h : Registry s) {d : Device} (hd : d.resources = ∅)
    (hk : d.key ≠ 0 → ∀ j, j ≠ i → (s.devices j).key ≠ d.key) : Registry (s.set_device i d) := by
  have hentry : ∀ j handle r, Entry (s.set_device i d) j handle r → j ≠ i ∧ Entry s j handle r := by
    intro j handle r he
    unfold Entry at he ⊢
    rw [set_device_devices] at he
    split at he
    · rw [hd] at he
      exact nomatch (AList.lookup_empty _).symm.trans he
    rename_i hj
    exact ⟨hj, he⟩
  refine ⟨fun j k h0 he => ?_, fun j handle r he => h.counted j handle r (hentry j handle r he).2,
    fun j k handle other r q hj hk' => ?_⟩
  · rw [set_device_devices] at h0 he
    rw [set_device_devices] at he
    by_cases hj : j = i <;> by_cases hk' : k = i
    · exact hj.trans hk'.symm
    · rw [if_pos hj] at h0 he
      rw [if_neg hk'] at he
      exact absurd he.symm (hk h0 k hk')
    · rw [if_neg hj] at h0 he
      rw [if_pos hk'] at he
      exact absurd he (hk (he ▸ h0) j hj)
    · rw [if_neg hj] at h0 he
      rw [if_neg hk'] at he
      exact h.keys j k h0 he
  · exact h.unique j k handle other r q (hentry j handle r hj).2 (hentry k other q hk').2

theorem clear_device_evolves {d : Device} (hd : d.resources = ∅) : Evolves s (s.set_device i d) := by
  refine ⟨id, fun _ => le_rfl, fun j handle r he => .inl ?_⟩
  unfold Entry at he ⊢
  rw [set_device_devices] at he ⊢
  split at he
  · rw [hd] at he
    exact nomatch (AList.lookup_empty _).symm.trans he
  rename_i hj
  rw [if_neg hj]
  exact ⟨he, rfl⟩

theorem erase_entry {handle : Nat} {r : Resource} : Entry (s.erase_resource i handle) j other r ↔
      Entry s j other r ∧ ¬(j = i ∧ other = handle) := by
  unfold Entry erase_resource
  rw [set_device_devices]
  by_cases hj : j = i
  · subst hj
    rw [if_pos rfl]
    by_cases ho : other = handle
    · subst ho
      simp
    rw [AList.lookup_erase_ne ho]
    simp [ho]
  simp [hj]

theorem erase_key (handle : Nat) : ((s.erase_resource i handle).devices j).key = (s.devices j).key := by
  unfold erase_resource
  rw [set_device_devices]
  split
  · rename_i hj
    rw [hj]
  · rfl

theorem Registry.erase (h : Registry s) (handle : Nat) : Registry (s.erase_resource i handle) := by
  refine ⟨fun j k => ?_, fun j other r he => h.counted j other r (erase_entry.mp he).1,
    fun j k x y r q hx hy => h.unique j k x y r q (erase_entry.mp hx).1 (erase_entry.mp hy).1⟩
  rw [erase_key, erase_key]
  exact h.keys j k

theorem erase_evolves (handle : Nat) : Evolves s (s.erase_resource i handle) :=
  ⟨id, fun _ => le_rfl, fun _ _ _ he => .inl ⟨(erase_entry.mp he).1, erase_key handle⟩⟩

theorem insert_entry {handle : Nat} {r q : Resource} :
    Entry (s.insert_resource i handle q) j other r ↔
      (j = i ∧ other = handle ∧ r = q) ∨ Entry s j other r ∧ ¬(j = i ∧ other = handle) := by
  unfold Entry insert_resource
  rw [set_device_devices]
  by_cases hj : j = i
  · subst hj
    rw [if_pos rfl]
    by_cases ho : other = handle
    · subst ho
      rw [AList.lookup_insert]
      simp [eq_comm]
    rw [AList.lookup_insert_ne ho]
    simp [ho]
  simp [hj]

theorem insert_key (handle : Nat) (q : Resource) :
    ((s.insert_resource i handle q).devices j).key = (s.devices j).key := by
  unfold insert_resource
  rw [set_device_devices]
  split
  · rename_i hj
    rw [hj]
  · rfl

/-- A registration under a generation that no other one has. -/
theorem Registry.insert (h : Registry s) {handle : Nat} {q : Resource}
    (hq : q.generation ≤ s.counters .resource_counter)
    (hnew : ∀ j other r, Entry s j other r → r.generation ≠ q.generation) :
    Registry (s.insert_resource i handle q) := by
  refine ⟨fun j k => ?_, fun j other r he => ?_, fun j k x y r p hx hy hg => ?_⟩
  · rw [insert_key, insert_key]
    exact h.keys j k
  · rcases insert_entry.mp he with ⟨-, -, rfl⟩ | ⟨he, -⟩
    · exact hq
    · exact h.counted j other r he
  · rcases insert_entry.mp hx with ⟨hj, hxh, hr⟩ | ⟨hold, -⟩ <;>
      rcases insert_entry.mp hy with ⟨hk, hyh, hp⟩ | ⟨hold', -⟩
    · exact ⟨hj.trans hk.symm, hxh.trans hyh.symm⟩
    · exact absurd (hr ▸ hg.symm) (hnew k y p hold')
    · exact absurd (hp ▸ hg) (hnew j x r hold)
    · exact h.unique j k x y r p hold hold' hg

/-! ## Calls that leave the devices alone -/

/-- A step that leaves the owner, the scene and the devices alone, and the publication too
unless it revokes it. -/
structure Calm (s s' : SceneHandoff) : Prop extends Keeps s s' where
  owner_bound : s'.owner_bound = s.owner_bound
  owner : s'.owner = s.owner
  owned_ids : s'.owned_ids = s.owned_ids
  epoch : s'.scene_epoch = s.scene_epoch
  active : s'.active = true → s.active = true
  ended : s'.exhausted = true → s.exhausted = true ∨ s'.active = false
  publication : s'.publication = {} ∨
    s'.publication = s.publication ∧ s'.observed_handles = s.observed_handles ∧
      s'.exhausted = s.exhausted ∧ s'.active = s.active

theorem calm_refl (s : SceneHandoff) : Calm s s :=
  ⟨keeps_refl s, rfl, rfl, rfl, rfl, id, .inl, .inr ⟨rfl, rfl, rfl, rfl⟩⟩

theorem Calm.trans (h : Calm s t) (ht : Calm t s') : Calm s s' := by
  refine ⟨h.toKeeps.trans ht.toKeeps, ht.owner_bound.trans h.owner_bound,
    ht.owner.trans h.owner, ht.owned_ids.trans h.owned_ids, ht.epoch.trans h.epoch,
    fun ha => h.active (ht.active ha), fun he => ?_, ?_⟩
  · rcases ht.ended he with he | ha
    · rcases h.ended he with he | ha
      · exact .inl he
      refine .inr (Bool.eq_false_iff.mpr fun ha' => ?_)
      rw [ht.active ha'] at ha
      cases ha
    · exact .inr ha
  rcases ht.publication with hnone | ⟨hp, ho, he, ha⟩
  · exact .inl hnone
  rcases h.publication with hnone | ⟨hp', ho', he', ha'⟩
  · exact .inl (hp.trans hnone)
  · exact .inr ⟨hp.trans hp', ho.trans ho', he.trans he', ha.trans ha'⟩

theorem count_calm (hc : c ≠ .scene_epoch) : Calm s (s.count c) :=
  ⟨count_keeps c, rfl, rfl, rfl, count_other hc.symm, id, .inl, .inr ⟨rfl, rfl, rfl, rfl⟩⟩

theorem exhaust_calm : Calm s s.exhaust :=
  ⟨exhaust_keeps, rfl, rfl, rfl, rfl, fun ha => (nomatch ha), fun _ => .inr rfl, .inl rfl⟩

theorem advance_calm (hc : c ≠ .scene_epoch) : Calm s (s.advance c).1 := by
  rcases advance_cases s c with ⟨h, -⟩ | h <;> rw [h]
  · exact count_calm hc
  · exact exhaust_calm

theorem touch_calm (handle : Nat) : Calm s (s.touch handle) := by
  unfold touch
  split
  · exact ⟨⟨rfl, id, fun _ => le_rfl⟩, rfl, rfl, rfl, rfl, id, .inl, .inl rfl⟩
  · exact ⟨⟨rfl, id, fun _ => le_rfl⟩, rfl, rfl, rfl, rfl, id, .inl, .inr ⟨rfl, rfl, rfl, rfl⟩⟩

theorem event_calm (handle : Nat) : Calm s (s.lifecycle_event handle).1 :=
  (touch_calm handle).trans (advance_calm (by decide))

theorem begin_capture_cases (s : SceneHandoff) :
    s.active = false ∧ s.begin_capture = (s, {}) ∨
      s.active = true ∧ s.exhausted = false ∧ s.begin_capture =
        (s.count .capture_sequence, ⟨s.scene_epoch, s.lifecycle_epoch, s.capture_sequence + 1⟩) ∨
      s.active = true ∧ s.begin_capture = (s.exhaust, {}) := by
  unfold begin_capture
  split
  · rename_i h
    exact .inl ⟨h, rfl⟩
  rename_i h
  rw [Bool.not_eq_false] at h
  rcases advance_cases s .capture_sequence with ⟨hc, hx⟩ | hc
  · refine .inr (.inl ⟨h, hx, ?_⟩)
    simp only [hc]
    exact Prod.ext rfl (congrArg (SceneCaptureTicket.mk _ _) (count_self _))
  refine .inr (.inr ⟨h, ?_⟩)
  simp only [hc]
  rfl

theorem begin_capture_calm : Calm s s.begin_capture.1 := by
  rcases begin_capture_cases s with ⟨-, h⟩ | ⟨-, -, h⟩ | ⟨-, h⟩ <;> rw [h]
  · exact calm_refl s
  · exact count_calm (by decide)
  · exact exhaust_calm

/-- A counter that did not run out is larger. -/
theorem advance_counted (h : (s.advance c).2 = true) : (s.advance c).1 = s.count c ∧ s.exhausted = false := by
  rcases advance_cases s c with ⟨he, hx⟩ | he
  · exact ⟨by rw [he], hx⟩
  rw [he] at h
  cases h

theorem advance_exhausted (h : (s.advance c).2 = false) :
    (s.advance c).1.exhausted = true ∧ (s.advance c).1.active = false := by
  rcases advance_cases s c with ⟨he, -⟩ | he
  · rw [he] at h
    cases h
  rw [he]
  exact ⟨rfl, rfl⟩

/-! ## Registration calls -/

/-- What a registration call is about: a device key, and a handle or the whole device. -/
def Op.target : Op → Option (Nat × Option Nat)
  | .register_device key | .unregister_device key => some (key, none)
  | .register_resource key handle _ _ | .unregister_resource key handle => some (key, some handle)
  | .try_unregister_resource key handle locked => if locked then some (key, some handle) else none
  | _ => none

/-- The device has none of the resources that a call is about. -/
def Absent (s : SceneHandoff) (key : Nat) (named : Option Nat) : Prop :=
  ∀ i handle r, s.device key = some i → handle ≠ 0 → (∀ x ∈ named, handle = x) →
    ¬Entry s i handle r

/-- What a registration call does after its event, from `t`; before the event the newest
generation was `newest`. -/
inductive Change (t : SceneHandoff) (newest key : Nat) : Option Nat → SceneHandoff → Prop
  | refused {named} (h : t.exhausted = true ∨ Absent t key named) : Change t newest key named t
  | cleared {i d} (hd : d.resources = ∅) (hk : d.key ≠ 0 → d.key = key)
      (hi : t.device key = some i ∨ t.device key = none) :
      Change t newest key none (t.set_device i d)
  | erased {i handle} (hi : t.device key = some i) :
      Change t newest key (some handle) (t.erase_resource i handle)
  | inserted {i handle r} (hi : t.device key = some i) (hnew : newest < r.generation)
      (hr : r.generation ≤ t.counters .resource_counter) :
      Change t newest key (some handle) (t.insert_resource i handle r)

/-- An event is counted. It revokes the publication, at the end of the handoff or for its handle,
or spares it. -/
def Event (s : SceneHandoff) (handle : Nat) (t : SceneHandoff) : Prop :=
  (t.exhausted = true ∨ s.lifecycle_epoch < t.lifecycle_epoch) ∧
    (t.publication = {} ∧
        (t.active = false ∨ handle = 0 ∨ ∃ feed, s.observed_handles feed = handle) ∨
      t.publication = s.publication ∧ handle ≠ 0 ∧ ∀ feed, s.observed_handles feed ≠ handle)

/-- The event of a registration call, and what it does to the devices. -/
def Registers (s : SceneHandoff) (key : Nat) (named : Option Nat) (s' : SceneHandoff) : Prop :=
  ∃ t, Calm s t ∧ Event s (named.getD 0) t ∧ Change t (s.counters .resource_counter) key named s'

theorem Event.advance {handle : Nat} (h : Event s handle t) (c : Counter) : Event s handle (t.advance c).1 := by
  have hk := advance_keeps (s := t) c
  refine ⟨h.1.imp hk.exhausted fun hlt => lt_of_lt_of_le hlt (hk.counters _), ?_⟩
  rcases advance_cases t c with ⟨hc, -⟩ | hc <;> rw [hc]
  · exact h.2
  · exact .inl ⟨rfl, .inl rfl⟩

theorem lifecycle_event_event (s : SceneHandoff) (handle : Nat) : Event s handle (s.lifecycle_event handle).1 := by
  have hcounters : (s.touch handle).counters = s.counters := by
    unfold touch
    split <;> rfl
  unfold lifecycle_event
  rcases advance_cases (s.touch handle) .lifecycle_epoch with ⟨hc, -⟩ | hc <;> rw [hc]
  swap
  · exact ⟨.inl rfl, .inl ⟨rfl, .inl rfl⟩⟩
  refine ⟨.inr ?_, ?_⟩
  · show s.counters .lifecycle_epoch < ((s.touch handle).count .lifecycle_epoch).counters _
    rw [count_self, hcounters]
    exact Nat.lt_succ_self _
  unfold touch
  split
  · rename_i h
    refine .inl ⟨rfl, .inr ?_⟩
    by_cases h0 : handle = 0
    · exact .inl h0
    obtain ⟨feed, hfeed⟩ := Option.isSome_iff_exists.mp (h.resolve_left h0)
    unfold observed_feed at hfeed
    rw [if_neg h0] at hfeed
    exact .inr ⟨feed, by simpa using find?_some hfeed⟩
  rename_i h
  simp only [not_or, Bool.not_eq_true, Option.isSome_eq_false_iff, Option.isNone_iff_eq_none] at h
  refine .inr ⟨rfl, h.1, fun feed he => ?_⟩
  have hfind := h.2
  unfold observed_feed at hfind
  rw [if_neg h.1] at hfind
  have := find_finRange (i := feed) hfind
  simp [he] at this

theorem device_of_devices (h : t.devices = s.devices) (key : Nat) : t.device key = s.device key := by
  unfold device
  rw [h]

theorem absent_of_device_none {named : Option Nat} (h : s.device key = none) :
    Absent s key named := by
  intro i handle r hi
  rw [h] at hi
  cases hi

theorem register_device_registers (s : SceneHandoff) (key : Nat) :
    Registers s key none (s.register_device key).1 := by
  unfold register_device
  have hcalm := event_calm (s := s) 0
  have hevent := lifecycle_event_event s 0
  by_cases h : (s.lifecycle_event 0).2 = false ∨ key = 0
  · rw [if_pos h]
    refine ⟨_, hcalm, hevent, Change.refused ?_⟩
    rcases h with h | h
    · exact .inl (advance_exhausted h).1
    refine .inr (absent_of_device_none ?_)
    unfold device
    rw [if_pos h]
  rw [if_neg h]
  cases hd : ((s.lifecycle_event 0).1.device key).or (s.lifecycle_event 0).1.free_device with
  | none =>
    rw [Option.or_eq_none_iff] at hd
    exact ⟨_, hcalm, hevent, Change.refused (.inr (absent_of_device_none hd.1))⟩
  | some i =>
    dsimp only
    have hcount := advance_calm (s := (s.lifecycle_event 0).1) (c := .device_counter) (by decide)
    have hdevices := device_of_devices hcount.devices key
    split
    · rename_i hc
      exact ⟨_, hcalm.trans hcount, hevent.advance _, Change.refused (.inl (advance_exhausted hc).1)⟩
    refine ⟨_, hcalm.trans hcount, hevent.advance _, Change.cleared rfl (fun _ => rfl) ?_⟩
    rw [hdevices]
    cases hk : (s.lifecycle_event 0).1.device key with
    | none => exact .inr rfl
    | some k =>
      rw [hk] at hd
      exact .inl hd

theorem unregister_device_registers (s : SceneHandoff) (key : Nat) :
    Registers s key none (s.unregister_device key) := by
  refine ⟨_, event_calm 0, lifecycle_event_event s 0, ?_⟩
  unfold unregister_device
  dsimp only [Option.getD_none]
  cases hd : (s.lifecycle_event 0).1.device key with
  | none => exact Change.refused (.inr (absent_of_device_none hd))
  | some i => exact Change.cleared rfl (fun h => absurd rfl h) (.inl hd)

theorem register_resource_registers (s : SceneHandoff) (key handle id : Nat) (allocated : Bool) :
    Registers s key (some handle) (s.register_resource key handle id allocated).1 := by
  unfold register_resource
  dsimp only
  have hcalm := event_calm (s := s) handle
  have hevent := lifecycle_event_event s handle
  split
  · rename_i he
    exact ⟨_, hcalm, hevent, Change.refused (.inl (advance_exhausted he).1)⟩
  cases hd : (s.lifecycle_event handle).1.device key with
  | none => exact ⟨_, hcalm, hevent, Change.refused (.inr (absent_of_device_none hd))⟩
  | some i =>
    dsimp only
    split
    · rename_i h0
      refine ⟨_, hcalm, hevent, Change.refused (.inr ?_)⟩
      exact fun _ other _ _ hother hx => absurd ((hx handle rfl).trans h0) hother
    split
    · exact ⟨_, hcalm, hevent, Change.erased hd⟩
    split
    · rename_i hfull
      refine ⟨_, hcalm, hevent, Change.refused (.inr ?_)⟩
      intro j other r hj _ hx hr
      obtain rfl : i = j := Option.some.inj (hd.symm.trans hj)
      obtain rfl : other = handle := hx handle rfl
      rw [hr] at hfull
      exact absurd hfull.1 (by simp)
    have hcount := advance_calm (s := (s.lifecycle_event handle).1) (c := .resource_counter) (by decide)
    have hdevice := (device_of_devices hcount.devices key).trans hd
    split
    · rename_i hc
      exact ⟨_, hcalm.trans hcount, hevent.advance _, Change.refused (.inl (advance_exhausted hc).1)⟩
    rename_i hc
    split
    · exact ⟨_, hcalm.trans hcount, hevent.advance _, Change.erased hdevice⟩
    refine ⟨_, hcalm.trans hcount, hevent.advance _, Change.inserted hdevice ?_ le_rfl⟩
    rw [(advance_counted (by simpa using hc)).1, count_self]
    exact Nat.lt_succ_of_le (hcalm.counters _)

theorem unregister_resource_registers (s : SceneHandoff) (key handle : Nat) :
    Registers s key (some handle) (s.unregister_resource key handle) := by
  refine ⟨_, event_calm handle, lifecycle_event_event s handle, ?_⟩
  unfold unregister_resource
  dsimp only [Option.getD_some]
  cases hd : (s.lifecycle_event handle).1.device key with
  | none => exact Change.refused (.inr (absent_of_device_none hd))
  | some i => exact Change.erased hd

theorem step_registers {op : Op} {named : Option Nat}
    (h : op.target = some (key, named)) : Registers s key named (step s op) := by
  cases op with
  | register_device k =>
    cases h
    exact register_device_registers s key
  | unregister_device k =>
    cases h
    exact unregister_device_registers s key
  | register_resource k x id allocated =>
    cases h
    exact register_resource_registers s key x id allocated
  | unregister_resource k x =>
    cases h
    exact unregister_resource_registers s key x
  | try_unregister_resource k x locked =>
    cases locked with
    | false => cases h
    | true =>
      cases h
      exact unregister_resource_registers s key x
  | begin_scene | stop_scene | begin_capture | publish => cases h

/-! ## What a registration call keeps -/

theorem Registers.evolves {named : Option Nat} (h : Registers s key named s') : Evolves s s' := by
  obtain ⟨t, hcalm, -, hchange⟩ := h
  have ht := hcalm.evolves
  cases hchange with
  | refused => exact ht
  | cleared hd => exact ht.trans (clear_device_evolves hd)
  | erased => exact ht.trans (erase_evolves _)
  | inserted hi hnew =>
    refine ⟨ht.exhausted, ht.counters, fun j other q hq => ?_⟩
    rcases insert_entry.mp hq with ⟨-, -, rfl⟩ | ⟨hold, -⟩
    · exact .inr hnew
    rw [insert_key]
    exact ht.entries j other q hold

theorem Registers.registry {named : Option Nat} (h : Registers s key named s') (hs : Registry s) : Registry s' := by
  obtain ⟨t, hcalm, -, hchange⟩ := h
  have ht := hcalm.registry hs
  cases hchange with
  | refused => exact ht
  | cleared hd hk hi =>
    refine ht.clear_device hd fun h0 j hne hj => hne ?_
    have hdevice := ht.device (hj.trans (hk h0)) (hk h0 ▸ h0)
    rcases hi with hi | hi
    · exact Option.some.inj (hdevice.symm.trans hi)
    rw [hi] at hdevice
    cases hdevice
  | erased => exact ht.erase _
  | inserted hi hnew hr =>
    refine ht.insert hr fun j other q hq => ?_
    unfold Entry at hq
    rw [hcalm.devices] at hq
    exact Nat.ne_of_lt (lt_of_le_of_lt (hs.counted j other q hq) hnew)

/-- The resources that a registration call is about are gone after it, or are new. -/
theorem Registers.gone {named : Option Nat} (h : Registers s key named s')
    (hs : Registry s) (h0 : key ≠ 0) {handle : Nat} {r : Resource} (hhandle : handle ≠ 0)
    (hnamed : ∀ x ∈ named, handle = x) (hk : (s.devices i).key = key)
    (hr : Entry s' i handle r) :
    s'.exhausted = true ∨ s.counters .resource_counter < r.generation := by
  obtain ⟨t, hcalm, -, hchange⟩ := h
  have hdevice : t.device key = some i := by
    rw [device_of_devices hcalm.devices]
    exact hs.device hk h0
  cases hchange with
  | refused h =>
    rcases h with h | h
    · exact .inl h
    · exact absurd hr (h i handle r hdevice hhandle hnamed)
  | cleared hd hkd hi =>
    rcases hi with hi | hi
    · obtain rfl := Option.some.inj (hdevice.symm.trans hi)
      unfold Entry at hr
      rw [set_device_devices, if_pos rfl, hd] at hr
      exact nomatch (AList.lookup_empty _).symm.trans hr
    rw [hi] at hdevice
    cases hdevice
  | erased hi =>
    obtain rfl := Option.some.inj (hdevice.symm.trans hi)
    exact absurd ⟨rfl, hnamed _ rfl⟩ (erase_entry.mp hr).2
  | inserted hi hnew =>
    obtain rfl := Option.some.inj (hdevice.symm.trans hi)
    rcases insert_entry.mp hr with ⟨-, -, rfl⟩ | ⟨-, hne⟩
    · exact .inr hnew
    · exact absurd ⟨rfl, hnamed _ rfl⟩ hne

/-! ## The other calls -/

theorem begin_scene_keeps : Keeps s s.begin_scene.1 := by
  have h := advance_keeps (s := { s.clear with
    owner_bound := false, owner := {}, owned_ids := fun _ => 0 }) .scene_epoch
  exact ⟨h.devices, h.exhausted, h.counters⟩

theorem stop_scene_keeps : Keeps s s.stop_scene := by
  have h := advance_keeps (s := { s.clear with active := false, owner_bound := false }) .scene_epoch
  exact ⟨h.devices, h.exhausted, h.counters⟩

end taxi_camera.scene.SceneHandoff
