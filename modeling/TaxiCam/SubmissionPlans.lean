-- The plan of the copies that go with one submission: where the planner of the
-- bridge puts them, and what the capture manager records of them and hands to
-- the wrapper. `plan_display_submission` of src/bridge/d3d12_bridge.cpp,
-- `before_submission` and `augment_submission` of
-- src/graphics/scene_capture_manager.cpp. What the registry holds of a side is
-- a record of its own.
import TaxiCam.PoolRuns
import TaxiCam.QueueSubmit
import TaxiCam.SubmissionSites

namespace taxi_camera.standalone

open PfdSubmissionProof ResourceStates

/-! ## Where a copy goes -/

inductive ShadowMode
  | off | direct | queue | restoring
deriving DecidableEq

/-- What the registry holds of one side, and of its shadow, while a batch is planned. -/
structure Side where
  patch_ready : Bool := false
  target_ready : Bool := false
  key : Key := {}
  uncovered : Bool := false
  settled : Option ResourceStates := none
  mode : ShadowMode := .off
  shadow_key : Key := {}
  shadow_settled : Option ResourceStates := none
  confirmed : Bool := false
  restore_pending : Bool := false
  buffer : Bool := false
  queue_known : Bool := false
  same_queue : Bool := false
  clean : Bool := false
  /-- The lists of the batch that stamped the side themselves. -/
  stamped : Nat → Bool := fun _ => false

/-- The registry while a batch is planned. -/
structure Planner where
  sides : Fin 3 → Side := fun _ => {}
  stale : Bool := false
  patches_ready : Bool := true
  snapshot : Option (Key × Option ResourceStates) := none

def site (list : Nat) (before : Bool) : Nat := list * 2 + if before then 0 else 1

def Overlay.site (o : Overlay) : Option Nat := if o.is_site then some (standalone.site o.list o.before) else none

/-- The overlay of a texture in the batch, or beside it where the batch leaves the texture alone. -/
def overlay_or_carried (batch : List Recording) (key : Key) (carry : Option ResourceStates) : Overlay :=
  let overlay := batch_overlay batch key
  if overlay.is_site then overlay
  else match carry with
    | some state => carried_overlay batch key state
    | none => overlay

namespace Planner

variable (r : Planner) (batch : List Recording) (side : Fin 3)

/-- `positions` and `selected`. -/
def position : Option Nat :=
  let s := r.sides side
  if !s.patch_ready || !s.target_ready || !r.patches_ready then none
  else (overlay_or_carried batch s.key (if s.uncovered && !r.stale then s.settled else none)).site

/-- A shadow goes back on the side whose camera stopped. -/
def restoring : Option Nat :=
  let s := r.sides side
  if s.mode != .restoring || !s.confirmed || s.restore_pending || !s.buffer || (s.queue_known && !s.same_queue) then none
  else
    let entry := batch_entry batch s.shadow_key
    let placed :=
      if entry.is_site && entry.insertable then some (site entry.list true)
      else if !entry.is_site && !r.stale then
        match s.shadow_settled with
        | some state =>
          let quiet := carried_overlay batch s.shadow_key state
          if quiet.is_site then some (site quiet.list false) else none
        | none => none
      else none
    match placed with
    | some position => some position
    | none => (batch_overlay batch s.shadow_key).site

/-- A list of the batch stamped the side itself, in front of the position. -/
def stamped_before (position : Nat) : Bool :=
  (List.range batch.length).any fun i => decide (i * 2 < position) && (r.sides side).stamped i

/-- A shadow goes back in front of the writes that the next copy covers. -/
def covering : Option Nat :=
  let s := r.sides side
  if s.mode != .queue || s.clean then none
  else
    let entry := batch_entry batch s.shadow_key
    let copied := r.position batch side
    if !entry.is_site || copied.any (fun position => decide (site entry.list true ≥ position)) then none
    else
      let left := batch_after batch s.shadow_key
      if s.confirmed && s.buffer && s.same_queue && entry.insertable && entry.clean &&
          (copied.isSome || left.known && left.state == RENDER_TARGET) &&
          !r.stamped_before batch side (copied.getD (batch.length * 2)) then
        some (site entry.list true)
      else none

def restore : Option Nat :=
  match r.covering batch side with
  | some position => some position
  | none => r.restoring batch side

def snapshot_site : Option Nat :=
  match r.snapshot with
  | none => none
  | some (key, settled) => (overlay_or_carried batch key (if r.stale then none else settled)).site

/-- An entry of `order`: rank 0 is a restore, 1 a camera copy, 2 the snapshot. -/
structure PlanEntry where
  position : Nat
  rank : Nat
  side : Fin 3
deriving DecidableEq

def before (a b : PlanEntry) : Bool :=
  if a.position ≠ b.position then decide (a.position < b.position) else decide (a.rank < b.rank)

def listed : List PlanEntry :=
  (List.finRange 3).filterMap (fun side => (r.restore batch side).map fun position => ⟨position, 0, side⟩) ++
    (List.finRange 3).filterMap (fun side => (r.position batch side).map fun position => ⟨position, 1, side⟩) ++
    (r.snapshot_site batch).toList.map fun position => ⟨position, 2, Fin.rev (Fin.last 2)⟩

/-- `std::stable_sort`. -/
def order : List PlanEntry := (r.listed batch).mergeSort fun a b => !before b a

end Planner

/-- `DisplaySubmissionPlan::Item`: `save_after` names an earlier item of the plan. -/
structure PlanItem where
  after_list : Nat
  before : Bool
  copy : pfd_submission.Copy
  save_after : Option Nat

namespace Planner

variable (r : Planner) (batch : List Recording)

/-- The items of the plan: the entries whose target and buffer are there, with what is copied. -/
def items (usable : PlanEntry → Bool) (content : PlanEntry → pfd_submission.Copy × Option Nat) : List PlanItem :=
  (((r.order batch).filter usable).take engine_hook.queue_submit.kMaximumInsertions).map fun entry =>
    ⟨entry.position / 2, entry.position % 2 = 0, (content entry).1, (content entry).2⟩

end Planner

end taxi_camera.standalone

namespace taxi_camera.SceneCaptureManager

open engine_hook.queue_submit pfd_submission standalone

/-! ## What is recorded -/

/-- The copy that is recorded: without its save where the restore that it relies on was not. -/
def saved_copy (i : Nat) (recorded : List Bool) (planned : PlanItem) : pfd_submission.Copy :=
  match planned.save_after with
  | some j =>
    if planned.copy.save != 0 && (decide (j ≥ i) || !recorded.getD j false) then
      { planned.copy with save := 0, completed := none, dropped := none, drop_sources := none, completed_value := 0 }
    else planned.copy
  | none => planned.copy

/-- The loop over the items of the plan, from number `i` on: the insertions of the ones that the pool
recorded. `native_list` is the command list of a packet, `closed` whether each Close succeeds. -/
def record_items (natives : Natives) (native_list : Nat → Nat) (count : Nat) (closed : Nat → Bool) :
    Pool → List Bool → Nat → List PlanItem → Pool × List Insertion
  | pool, _, _, [] => (pool, [])
  | pool, recorded, i, planned :: rest =>
    if planned.after_list ≥ count then record_items natives native_list count closed pool (recorded ++ [false]) (i + 1) rest
    else
      let answer := pool.record natives (saved_copy i recorded planned) (closed i)
      let later := record_items natives native_list count closed answer.1 (recorded ++ [answer.2.list]) (i + 1) rest
      if answer.2.list then
        (later.1, ⟨planned.after_list, native_list answer.2.slot, planned.before⟩ :: later.2)
      else later

/-- The array that the wrapper passes, filled from the front. -/
def augment_submission (current : Bool) (display_insertions : List Insertion) : Vector Insertion 7 × Nat :=
  if !current || decide (display_insertions.length > kMaximumInsertions) then (Vector.ofFn fun _ => {}, 0)
  else (Vector.ofFn fun i => display_insertions.getD i {}, display_insertions.length)

/-- The command lists that were registered. `register_list` refuses a null pointer. -/
structure Registered where
  lists : List Nat
  named : 0 ∉ lists

/-- A list of the batch that the manager does not know. -/
def unknown_lists (registered : Registered) (native_lists : List Nat) : Bool :=
  native_lists.any fun native => !registered.lists.contains native

/-- What the wrapper is offered for a batch: the planner's items, as the pool recorded them. `recording` is
what the registry holds of a list, `planned` whether the planner came as far as its order, `display_current`
whether the session and the plan are current when the items are recorded, `current` when they are handed over. -/
def offer (natives : Natives) (native_list : Nat → Nat) (closed : Nat → Bool) (pool : Pool) (registered : Registered)
    (r : Planner) (recording : Nat → standalone.Recording) (usable : Planner.PlanEntry → Bool)
    (content : Planner.PlanEntry → pfd_submission.Copy × Option Nat) (planned display_current current : Bool)
    (native_lists : List Nat) : Vector Insertion 7 × Nat :=
  let items := if planned then r.items (native_lists.map recording) usable content else []
  let record_display := display_current && !unknown_lists registered native_lists
  let recorded := if record_display then (record_items natives native_list native_lists.length closed pool [] 0 items).2 else []
  augment_submission current recorded

end taxi_camera.SceneCaptureManager

namespace taxi_camera.standalone

open PfdSubmissionProof

/-! ## The places of a plan -/

section
variable {batch : List Recording} {key : Key} {o : Overlay} {list p : Nat} {b : Bool}

theorem site_lt (h : list < batch.length) : site list b < 2 * batch.length := by
  unfold site
  split <;> omega

theorem overlay_list_lt (h : (batch_overlay batch key).is_site = true) : (batch_overlay batch key).list < batch.length := by
  unfold Overlay.is_site at h
  rw [Bool.and_eq_true] at h
  obtain ⟨r, hr, -⟩ := placed_overlay batch key h.1
  exact (List.getElem?_eq_some_iff.mp hr).1

theorem carried_list_lt {state : ResourceStates} (h : (carried_overlay batch key state).is_site = true) :
    (carried_overlay batch key state).list < batch.length := by
  unfold carried_overlay at h ⊢
  split at h
  · simp [Overlay.is_site] at h
  rename_i hallowed
  rw [if_neg hallowed]
  split at h
  · simp [Overlay.is_site] at h
  rename_i hquiet
  rw [if_neg hquiet]
  cases hlast : batch.getLast? with
  | none =>
    rw [hlast] at h
    simp [Overlay.is_site] at h
  | some last =>
    have hpos : 0 < batch.length := by
      cases batch with
      | nil => cases hlast
      | cons r rest => simp
    dsimp only
    omega

theorem entry_list_lt (h : (batch_entry batch key).is_site = true) : (batch_entry batch key).list < batch.length := by
  unfold batch_entry at h ⊢
  split at h
  · simp [Entry.is_site] at h
  rename_i hallowed
  rw [if_neg hallowed]
  obtain ⟨before, r, after, hsplit, hlist, -⟩ := first_entry_spec h
  rw [hlist]
  have hlength := congrArg List.length hsplit
  simp only [List.length_append, List.length_cons] at hlength
  omega

theorem overlay_or_carried_lt {carry : Option ResourceStates} (h : (overlay_or_carried batch key carry).is_site = true) :
    (overlay_or_carried batch key carry).list < batch.length := by
  unfold overlay_or_carried at h ⊢
  dsimp only at h ⊢
  split at h
  · rename_i hsite
    rw [if_pos hsite]
    exact overlay_list_lt hsite
  rename_i hnone
  rw [if_neg hnone]
  cases carry with
  | some state => exact carried_list_lt h
  | none => exact absurd h hnone

theorem overlay_site (h : o.site = some p) : o.is_site = true ∧ p = site o.list o.before := by
  unfold Overlay.site at h
  split at h
  · rename_i hsite
    exact ⟨hsite, (Option.some.inj h).symm⟩
  · cases h

end

namespace Planner

variable {r : Planner} {batch : List Recording} {side : Fin 3} {p : Nat}

theorem position_lt (h : r.position batch side = some p) : p < 2 * batch.length := by
  unfold position at h
  dsimp only at h
  split at h
  · cases h
  obtain ⟨hsite, rfl⟩ := overlay_site h
  exact site_lt (overlay_or_carried_lt hsite)

theorem snapshot_lt (h : r.snapshot_site batch = some p) : p < 2 * batch.length := by
  unfold snapshot_site at h
  split at h
  · cases h
  obtain ⟨hsite, rfl⟩ := overlay_site h
  exact site_lt (overlay_or_carried_lt hsite)

theorem covering_lt (h : r.covering batch side = some p) : p < 2 * batch.length := by
  unfold covering at h
  dsimp only at h
  split at h
  · cases h
  split at h
  · cases h
  rename_i hentry
  split at h
  · obtain rfl := Option.some.inj h
    simp only [Bool.or_eq_true, Bool.not_eq_true', not_or, Bool.not_eq_false] at hentry
    exact site_lt (entry_list_lt hentry.1)
  · cases h

theorem restoring_lt (h : r.restoring batch side = some p) : p < 2 * batch.length := by
  unfold restoring at h
  dsimp only at h
  split at h
  · cases h
  split at h
  · rename_i position hplaced
    obtain rfl := Option.some.inj h
    split at hplaced
    · rename_i hentry
      obtain rfl := Option.some.inj hplaced
      rw [Bool.and_eq_true] at hentry
      exact site_lt (entry_list_lt hentry.1)
    split at hplaced
    · split at hplaced
      · split at hplaced
        · rename_i hquiet
          obtain rfl := Option.some.inj hplaced
          exact site_lt (carried_list_lt hquiet)
        · cases hplaced
      · cases hplaced
    · cases hplaced
  obtain ⟨hsite, rfl⟩ := overlay_site h
  exact site_lt (overlay_list_lt hsite)

theorem restore_lt (h : r.restore batch side = some p) : p < 2 * batch.length := by
  unfold restore at h
  split at h
  · rename_i position hcovering
    obtain rfl := Option.some.inj h
    exact covering_lt hcovering
  · exact restoring_lt h

variable {entry : PlanEntry}

theorem listed_lt (h : entry ∈ r.listed batch) : entry.position < 2 * batch.length := by
  simp only [listed, List.mem_append, List.mem_filterMap, List.mem_map, Option.mem_toList, Option.map_eq_some_iff] at h
  rcases h with (⟨side, -, p, hp, rfl⟩ | ⟨side, -, p, hp, rfl⟩) | ⟨p, hp, rfl⟩
  · exact restore_lt hp
  · exact position_lt hp
  · exact snapshot_lt hp

theorem before_iff {a b : PlanEntry} :
    before a b = true ↔ a.position < b.position ∨ a.position = b.position ∧ a.rank < b.rank := by
  unfold before
  by_cases h : a.position = b.position <;> simp [h]

/-- The order is by the positions. -/
theorem order_sorted : (r.order batch).Pairwise fun a b => a.position ≤ b.position := by
  have htotal (a b : PlanEntry) : (!before b a || !before a b) = true := by
    rw [← Bool.not_and, Bool.not_eq_true', Bool.eq_false_iff, Ne, Bool.and_eq_true, before_iff, before_iff]
    omega
  have htrans (a b c : PlanEntry) (hab : (!before b a) = true) (hbc : (!before c b) = true) : (!before c a) = true := by
    rw [Bool.not_eq_true', Bool.eq_false_iff, Ne, before_iff] at *
    omega
  apply (List.pairwise_mergeSort htrans htotal _).imp
  intro a b hab
  rw [Bool.not_eq_true', Bool.eq_false_iff, Ne, before_iff] at hab
  omega

theorem order_lt (h : entry ∈ r.order batch) : entry.position < 2 * batch.length :=
  listed_lt (List.mem_mergeSort.mp h)

end Planner

def PlanItem.position (x : PlanItem) : Nat := 2 * x.after_list + if x.before then 0 else 1

/-- The items of a plan name lists of the batch, and come in the order of the sites. -/
structure Sited (count : Nat) (items : List PlanItem) : Prop where
  named : ∀ x ∈ items, x.after_list < count
  ordered : items.Pairwise fun x y => x.position ≤ y.position
  few : items.length ≤ engine_hook.queue_submit.kMaximumInsertions

theorem Planner.items_sited (r : Planner) (batch : List Recording) (usable : PlanEntry → Bool)
    (content : PlanEntry → pfd_submission.Copy × Option Nat) : Sited batch.length (r.items batch usable content) where
  named := by
    intro x hx
    obtain ⟨entry, hentry, rfl⟩ := List.mem_map.mp hx
    have hlt := order_lt (List.mem_of_mem_filter (List.mem_of_mem_take hentry))
    dsimp only
    omega
  ordered := by
    apply List.pairwise_map.mpr
    apply ((order_sorted.filter usable).sublist (List.take_sublist _ _)).imp
    intro a b hab
    have hsite (p : Nat) : 2 * (p / 2) + (if (decide (p % 2 = 0)) = true then 0 else 1) = p := by
      split <;> rename_i hp <;> simp only [decide_eq_true_eq] at hp <;> omega
    unfold PlanItem.position
    rw [hsite, hsite]
    exact hab
  few := by
    unfold items
    rw [List.length_map]
    exact List.length_take_le _ _

end taxi_camera.standalone

namespace taxi_camera.SceneCaptureManager

open engine_hook.queue_submit pfd_submission standalone

/-! ## What is offered -/

/-- The command lists of the pool: the runtime made them, each is an object of its own, and the
application has none of them. -/
structure FreshLists (native_list : Nat → Nat) (native_lists : List Nat) : Prop where
  created : ∀ slot, native_list slot ≠ 0
  apart : ∀ slot, native_list slot ∉ native_lists
  one_object : ∀ slot other, native_list slot = native_list other → slot = other

section
variable {natives : Natives} {native_list : Nat → Nat} {native_lists : List Nat} {count : Nat} {closed : Nat → Bool}

/-- A packet takes one copy: it is not ready any more. -/
theorem recorded_slot {pool : Pool} {copy : pfd_submission.Copy} {b : Bool}
    (h : (pool.record natives copy b).2.list = true) : ∃ slot : Fin 16, (pool.record natives copy b).2.slot = slot ∧
      (pool.packets slot).state = .ready ∧ ((pool.record natives copy b).1.packets slot).state ≠ .ready := by
  unfold Pool.record at h ⊢
  split at h
  · cases h
  rename_i hvalid
  rw [if_neg hvalid]
  split at h
  · cases h
  rename_i i hi
  split at h
  · cases h
  rename_i hclosed
  rw [if_neg hclosed]
  have hready : (pool.packets i).state = .ready := by simpa using List.find?_some hi
  refine ⟨i, rfl, hready, ?_⟩
  simp [Pool.take, Pool.note, Pool.set_packet]

/-- What is recorded goes where items of the plan go, and in their order. -/
theorem recorded_places (items : List PlanItem) (pool : Pool) (recorded : List Bool) (i : Nat) :
    ((record_items natives native_list count closed pool recorded i items).2.map fun x => (x.after_list, x.before)).Sublist
      (items.map fun x => (x.after_list, x.before)) := by
  induction items generalizing pool recorded i with
  | nil => exact List.Sublist.refl _
  | cons planned rest ih =>
    unfold record_items
    rw [List.map_cons]
    split
    · exact (ih _ _ _).cons _
    dsimp only
    split
    · exact (ih _ _ _).cons_cons _
    · exact (ih _ _ _).cons _

/-- Each insertion is the list of a packet of its own, which was ready. -/
theorem recorded_slots (items : List PlanItem) (pool : Pool) (recorded : List Bool) (i : Nat) :
    ∃ slots : List (Fin 16), slots.Nodup ∧ (∀ slot ∈ slots, (pool.packets slot).state = .ready) ∧
      (record_items natives native_list count closed pool recorded i items).2.map Insertion.list =
        slots.map fun slot : Fin 16 => native_list slot := by
  induction items generalizing pool recorded i with
  | nil => exact ⟨[], List.nodup_nil, nofun, rfl⟩
  | cons planned rest ih =>
    unfold record_items
    split
    · exact ih _ _ _
    -- the packets of the later items were ready before this one too
    obtain ⟨slots, hnodup, hready, hslots⟩ := ih (pool.record natives (saved_copy i recorded planned) (closed i)).1
      (recorded ++ [(pool.record natives (saved_copy i recorded planned) (closed i)).2.list]) (i + 1)
    have hstill : ∀ slot ∈ slots, (pool.packets slot).state = .ready := by
      intro slot hslot
      by_contra hne
      have hafter := hready slot hslot
      rw [record_others hne] at hafter
      exact hne hafter
    dsimp only
    split
    · rename_i hlist
      obtain ⟨slot, hslot, hbefore, hafter⟩ := recorded_slot hlist
      refine ⟨slot :: slots, List.nodup_cons.mpr ⟨fun hmem => hafter (hready slot hmem), hnodup⟩, ?_, ?_⟩
      · rintro other hother
        rcases List.mem_cons.mp hother with rfl | hother
        · exact hbefore
        · exact hstill other hother
      · rw [List.map_cons, List.map_cons, hslots, hslot]
    · exact ⟨slots, hnodup, hstill, hslots⟩

variable {items : List PlanItem}

/-- What the pool records of a plan whose items are sited is valid. -/
theorem recorded_valid (hfresh : FreshLists native_list native_lists) (hnamed : 0 ∉ native_lists) (hsited : Sited count items) (pool : Pool) :
    Valid count native_lists (record_items natives native_list count closed pool [] 0 items).2 := by
  have hplaces := @recorded_places natives native_list count closed items pool [] 0
  obtain ⟨slots, hnodup, -, hslots⟩ := @recorded_slots natives native_list count closed items pool [] 0
  generalize (record_items natives native_list count closed pool [] 0 items).2 = plan at hplaces hslots
  have hprivate : ∀ x ∈ plan, ∃ slot, x.list = native_list slot := by
    intro x hx
    have hmem : x.list ∈ slots.map fun slot : Fin 16 => native_list slot := hslots ▸ List.mem_map_of_mem hx
    obtain ⟨slot, -, hslot⟩ := List.mem_map.mp hmem
    exact ⟨slot, hslot.symm⟩
  refine ⟨fun x hx => ?_, ?_, fun x hx list hlist => ?_, ?_⟩
  · obtain ⟨slot, hslot⟩ := hprivate x hx
    obtain ⟨item, hitem, hsame⟩ := List.mem_map.mp (hplaces.subset (List.mem_map_of_mem hx))
    rw [hslot, ← (Prod.mk.inj hsame).1]
    exact ⟨hfresh.created slot, hsited.named item hitem⟩
  · have hitems : (items.map fun x => (x.after_list, x.before)).Pairwise fun x y =>
        2 * x.1 + (if x.2 then 0 else 1) ≤ 2 * y.1 + if y.2 then 0 else 1 := List.pairwise_map.mpr hsited.ordered
    have hplan := hitems.sublist hplaces
    rwa [List.pairwise_map] at hplan
  · obtain ⟨slot, hslot⟩ := hprivate x hx
    rw [hslot]
    refine ⟨?_, ?_⟩
    · rintro rfl
      exact hnamed hlist
    · rintro rfl
      exact hfresh.apart slot hlist
  · rw [hslots]
    apply hnodup.map
    intro slot other hsame
    exact Fin.ext (hfresh.one_object _ _ hsame)

theorem recorded_few (h : items.length ≤ kMaximumInsertions) (pool : Pool) :
    (record_items natives native_list count closed pool [] 0 items).2.length ≤ kMaximumInsertions := by
  have hplaces := (@recorded_places natives native_list count closed items pool [] 0).length_le
  rw [List.length_map, List.length_map] at hplaces
  exact Nat.le_trans hplaces h

end

variable {plan : List Insertion} {native_lists : List Nat}

/-- The array holds a plan from its front on. -/
theorem take_augment (h : plan.length ≤ kMaximumInsertions) :
    (Vector.ofFn fun i : Fin 7 => plan.getD i {}).toList.take plan.length = plan := by
  have hlength : plan.length ≤ 7 := h
  apply List.ext_getElem
  · simpa using hlength
  · intro i _ hi
    simp [hi]

theorem augment_valid {count : Nat}
    (hvalid : Valid count native_lists plan) (hfew : plan.length ≤ kMaximumInsertions) (current : Bool) :
    valid_insertions (augment_submission current plan).1 (augment_submission current plan).2 count native_lists = true := by
  apply (valid_insertions_iff _ _).mpr
  unfold augment_submission
  split
  · exact ⟨Nat.zero_le _, nofun, List.Pairwise.nil, nofun, List.nodup_nil⟩
  refine ⟨hfew, ?_⟩
  rw [take_augment hfew]
  exact hvalid

/-- Every plan that the planner makes and the manager records passes the wrapper's check. -/
theorem offer_valid {natives : Natives} {native_list : Nat → Nat} {closed : Nat → Bool} {pool : Pool}
    {registered : Registered} {r : Planner} {recording : Nat → standalone.Recording}
    {usable : Planner.PlanEntry → Bool} {content : Planner.PlanEntry → pfd_submission.Copy × Option Nat}
    {planned display_current current : Bool} (hfresh : FreshLists native_list native_lists) :
    let offered := offer natives native_list closed pool registered r recording usable content planned display_current
      current native_lists
    valid_insertions offered.1 offered.2 native_lists.length native_lists = true := by
  have hsited : Sited native_lists.length (if planned then r.items (native_lists.map recording) usable content else []) := by
    split
    · have hitems := r.items_sited (native_lists.map recording) usable content
      rwa [List.length_map] at hitems
    · exact ⟨nofun, List.Pairwise.nil, Nat.zero_le _⟩
  apply augment_valid
  · split
    · rename_i hdisplay
      rw [Bool.and_eq_true, Bool.not_eq_true'] at hdisplay
      -- the manager knows every list of the batch, so that none is null
      have hnamed : 0 ∉ native_lists := by
        intro hmem
        have hknown := List.any_eq_false.mp hdisplay.2 0 hmem
        rw [Bool.not_eq_true, Bool.not_eq_false', List.contains_iff_mem] at hknown
        exact registered.named hknown
      exact recorded_valid hfresh hnamed hsited pool
    · exact ⟨nofun, List.Pairwise.nil, nofun, List.nodup_nil⟩
  · split
    · exact recorded_few hsited.few pool
    · exact Nat.zero_le _

/-! ## The submission -/

/-- The original function is called once for a batch: with the application's lists in their order and each
inserted list once at its place where a valid plan is taken, with the application's own arguments otherwise.
The plans of the planner and the manager are valid. -/
theorem augmented_submission_is_exact :
    (∀ (a : Answers) (batch : Batch), ∃ sent, (a.submit batch).filterMap Event.forwards = [sent] ∧
      Sent (a.offered batch) batch sent) ∧
    ∀ (natives : Natives) (native_list : Nat → Nat) (closed : Nat → Bool) (pool : Pool) (registered : Registered)
      (r : Planner) (recording : Nat → standalone.Recording) (usable : Planner.PlanEntry → Bool)
      (content : Planner.PlanEntry → pfd_submission.Copy × Option Nat) (planned display_current current : Bool)
      (native_lists : List Nat), FreshLists native_list native_lists →
      let offered := offer natives native_list closed pool registered r recording usable content planned display_current
        current native_lists
      valid_insertions offered.1 offered.2 native_lists.length native_lists = true :=
  ⟨fun _ _ => Answers.submit_sent, fun _ _ _ _ _ _ _ _ _ _ _ _ _ hfresh => offer_valid hfresh⟩

theorem one_list (l : List Nat) (h : some [11] = some l) : l.length = 1 := by
  rw [← Option.some.inj h]
  rfl

theorem two_lists : 0 ∉ [11, 12] := by decide

/-- Two lists of the application, behind the first of which a display leaves RENDER_TARGET: its copy is
offered behind that list. -/
theorem a_copy_is_offered_behind_the_exit :
    let natives : Natives := ⟨fun _ _ => true, fun native =>
      if native = 3 then ⟨.buffer, 4096, 1, 1, 1, 0, 1, 0, false, false, false⟩
      else ⟨.texture2d, 16, 16, 1, 1, 28, 1, 0, true, false, false⟩, fun _ => .default⟩
    let copy : pfd_submission.Copy :=
      { target := 2, source := 3, footprint := ⟨0, ⟨28, 16, 16, 1, 256⟩⟩, state := .PIXEL_SHADER_RESOURCE, width := 16, height := 16 }
    let pool : Pool := { device := 1, packets := fun _ => { list := true, state := .ready } }
    let display : Key := ⟨1, 1⟩
    let r : Planner := { sides := fun side => if side.val = 0 then { patch_ready := true, target_ready := true, key := display } else {} }
    let recording (native : Nat) := recorded 1
      (if native = 11 then [.observe_legacy display .RENDER_TARGET .PIXEL_SHADER_RESOURCE 0 0] else [])
    let offered := offer natives (fun slot => 100 + slot) (fun _ => true) pool ⟨[11, 12], two_lists⟩ r recording
      (fun _ => true) (fun _ => (copy, none)) true true true [11, 12]
    (offered.1[0]? = some ⟨0, 100, false⟩ ∧ offered.2 = 1) ∧ valid_insertions offered.1 offered.2 2 [11, 12] = true := by
  intro natives copy pool display r recording offered
  have hlisted : r.listed ([11, 12].map recording) = [⟨1, 1, 0⟩] := by decide
  have horder : r.order ([11, 12].map recording) = [⟨1, 1, 0⟩] := by
    unfold Planner.order
    rw [hlisted, List.mergeSort_singleton]
  have hitems : r.items ([11, 12].map recording) (fun _ => true) (fun _ => (copy, none)) = [⟨0, false, copy, none⟩] := by
    unfold Planner.items
    rw [horder]
    rfl
  have hrecorded : offered = augment_submission true (record_items natives (fun slot => 100 + slot) 2 (fun _ => true)
      pool [] 0 [⟨0, false, copy, none⟩]).2 := by
    unfold offered offer
    rw [hitems]
    rfl
  have hfirst : offered.1[0]? = some ⟨0, 100, false⟩ ∧ offered.2 = 1 := by
    rw [hrecorded]
    decide
  refine ⟨hfirst, augmented_submission_is_exact.2 _ _ _ _ _ _ _ _ _ _ _ _ _ ⟨?_, ?_, ?_⟩⟩
  · intro slot
    omega
  · intro slot
    simp only [List.mem_cons, List.not_mem_nil, or_false]
    omega
  · intro slot other hsame
    omega

/-- A callback that submits a batch of its own drops the plan, which had passed the check. -/
theorem a_nested_submission_drops_a_valid_plan :
    let plan : Vector Insertion 7 := Vector.ofFn fun i => if i.val = 0 then ⟨0, 100, true⟩ else {}
    let a : Answers := { receipt := 1, augment := some (plan, 1), nested_result := true }
    let batch : Batch := ⟨1, some [11], one_list⟩
    valid_insertions plan 1 1 [11] = true ∧ .augmentation_result 1 1 ∈ a.submit batch ∧
      .refused .reentrant_submission ∈ a.submit batch ∧
      (a.submit batch).filterMap Event.forwards = [(1, some [11])] ∧
      ¬ ∃ output, (a.submit batch).filterMap Event.forwards = [(output.length, some output)] ∧ output.count 100 = 1 := by
  intro plan a batch
  have hsent : (a.submit batch).filterMap Event.forwards = [(1, some [11])] := by decide
  refine ⟨by decide, by decide, by decide, hsent, ?_⟩
  rintro ⟨output, houtput, honce⟩
  rw [hsent] at houtput
  simp only [List.cons.injEq, Prod.mk.injEq, Option.some.injEq, and_true] at houtput
  rw [← houtput.2] at honce
  exact absurd honce (by decide)

end taxi_camera.SceneCaptureManager
