-- The leases of the completed snapshots over the runs of the runtime. A snapshot
-- that a private recording reads is not given back before the recording is
-- discarded or its ordered submission stands.
import TaxiCam.SnapshotAccounts

namespace taxi_camera.scene_runtime

open scene SceneCaptureManager PacketPool histories runs List

namespace World

/-! ## Recordings -/

section
variable {o : Output} {tokens : List Nat}

theorem prepare_reads (ends : Preparing) :
    (o.prepare tokens ends).1.reads = o.reads ∨ (o.prepare tokens ends).1.reads = tokens := by
  unfold Output.prepare
  split
  · exact .inl rfl
  cases ends with
  | refused | lost => exact .inl rfl
  | torn | closed => exact .inr rfl

/-- An output that read nothing reads nothing after a recording without snapshots. -/
theorem prepare_none (ho : o.reads = []) (ends : Preparing) : (o.prepare [] ends).1.reads = [] := by
  rcases @prepare_reads o [] ends with h | h
  · exact h.trans ho
  · exact h

variable {ends : Preparing}

theorem prepare_closed (h : (o.prepare tokens ends).2 = true) : (o.prepare tokens ends).1.reads = tokens := by
  unfold Output.prepare at h ⊢
  split
  · rename_i hno
    rw [if_pos hno] at h
    cases h
  rename_i hno
  rw [if_neg hno] at h
  cases ends with
  | refused | lost | torn => cases h
  | closed => rfl

/-- A refusal before the list is reset, or with the reset, reads nothing new. -/
theorem prepare_untorn (h : (o.prepare tokens ends).2 = false)
    (hends : ends ≠ .torn) : (o.prepare tokens ends).1.reads = o.reads := by
  unfold Output.prepare at h ⊢
  split
  · rfl
  rename_i hno
  rw [if_neg hno] at h
  cases ends with
  | refused | lost => rfl
  | torn => exact absurd rfl hends
  | closed => cases h

theorem submit_reads (signalled : Bool) : (o.submit signalled).1.reads = o.reads := by
  unfold Output.submit
  split <;> rfl

theorem discard_prepared_reads (ends : Discarding) :
    (o.discard_prepared ends).1.reads = o.reads ∨ (o.discard_prepared ends).1.reads = [] := by
  unfold Output.discard_prepared
  split
  · exact .inl rfl
  cases ends with
  | refused | failed => exact .inl rfl
  | discarded => exact .inr rfl

theorem discard_prepared_done {ends : Discarding} (h : (o.discard_prepared ends).2 = true) :
    (o.discard_prepared ends).1.reads = [] := by
  unfold Output.discard_prepared at h ⊢
  split
  · rename_i hno
    rw [if_pos hno] at h
    cases h
  rename_i hno
  rw [if_neg hno] at h
  cases ends with
  | refused | failed => cases h
  | discarded => rfl

theorem discard_prepared_none (ho : o.reads = []) (ends : Discarding) : (o.discard_prepared ends).1.reads = [] := by
  rcases discard_prepared_reads (o := o) ends with h | h
  · exact h.trans ho
  · exact h

end

/-- The device has the slots of another, and no open recording. -/
def Rests (item item' : Device) : Prop := item'.pending = item.pending ∧ reads item' = []

theorem reads_nil {item : Device} : reads item = [] ↔ item.output.reads = [] ∧
    item.door_output.reads = [] ∧ item.waiting_output.reads = [] ∧ item.calibration_output.reads = [] := by
  simp [reads]

section
variable {item : Device}

theorem calibrate_rests (h : reads item = []) (a : Attempt) : Rests item (item.calibrate a).1 := by
  obtain ⟨houtput, hdoor, hwaiting, hcalibration⟩ := reads_nil.mp h
  have hprepared := prepare_none hcalibration a.preparing
  unfold Device.calibrate
  dsimp only
  split
  · exact ⟨rfl, h⟩
  split
  · exact ⟨rfl, reads_nil.mpr ⟨houtput, hdoor, hwaiting, hprepared⟩⟩
  split
  · have hdiscarded := discard_prepared_none hprepared a.discarding
    split <;> exact ⟨rfl, reads_nil.mpr ⟨houtput, hdoor, hwaiting, hdiscarded⟩⟩
  split
  · exact ⟨rfl, reads_nil.mpr ⟨houtput, hdoor, hwaiting, (submit_reads a.signalled).trans hprepared⟩⟩
  · exact ⟨rfl, reads_nil.mpr ⟨houtput, hdoor, hwaiting, rfl⟩⟩

theorem prepare_waiting_rests (h : reads item = []) (color : Color) (a : Attempt) :
    Rests item (item.prepare_waiting color a) := by
  obtain ⟨houtput, hdoor, hwaiting, hcalibration⟩ := reads_nil.mp h
  have hprepared : (if a.accepted then item.waiting_output.prepare [] a.preparing
      else (item.waiting_output, false)).1.reads = [] := by
    split
    · exact prepare_none hwaiting a.preparing
    · exact hwaiting
  unfold Device.prepare_waiting
  dsimp only
  generalize (if a.accepted then item.waiting_output.prepare [] a.preparing
    else (item.waiting_output, false)) = prepared at hprepared ⊢
  split
  · exact ⟨rfl, h⟩
  · split <;> exact ⟨rfl, reads_nil.mpr ⟨houtput, hdoor, hprepared, hcalibration⟩⟩

theorem submit_waiting_rests (h : reads item = []) (a : Attempt) : Rests item (item.submit_waiting a).1 := by
  obtain ⟨houtput, hdoor, hwaiting, hcalibration⟩ := reads_nil.mp h
  unfold Device.submit_waiting
  dsimp only
  split
  · exact ⟨rfl, h⟩
  split
  · split
    · exact ⟨rfl, h⟩
    · exact ⟨rfl, reads_nil.mpr ⟨houtput, hdoor, discard_prepared_none hwaiting a.discarding, hcalibration⟩⟩
  split
  · exact ⟨rfl, reads_nil.mpr ⟨houtput, hdoor, (submit_reads a.signalled).trans hwaiting, hcalibration⟩⟩
  · exact ⟨rfl, reads_nil.mpr ⟨houtput, hdoor, rfl, hcalibration⟩⟩

theorem service_waiting_rests (h : reads item = []) (catalog : Catalog) (a : Attempt) :
    Rests item (item.service_waiting catalog a).1 := by
  unfold Device.service_waiting
  dsimp only
  split
  · have hprepared := prepare_waiting_rests h (waiting_text_color catalog item) a
    have hsubmitted := submit_waiting_rests hprepared.2 a
    exact ⟨hsubmitted.1.trans hprepared.1, hsubmitted.2⟩
  · exact ⟨rfl, h⟩

theorem service_pages_rests (w : World) (h : reads item = []) (t : Turn) : Rests item (w.service_pages item t).1 := by
  unfold service_pages
  dsimp only
  generalize hseen : (if (item.status.output && !w.current_output item) = true then
    { item with status := { item.status with output := false } } else item) = seen
  have hrests : Rests item seen := by
    subst hseen
    split <;> exact ⟨rfl, h⟩
  split
  · exact hrests
  have hcalibrated := calibrate_rests hrests.2 t.calibration
  split
  · rename_i calibrated heq
    rw [heq] at hcalibrated
    exact ⟨hcalibrated.1.trans hrests.1, hcalibrated.2⟩
  rename_i calibrated heq
  rw [heq] at hcalibrated
  have hwaiting := service_waiting_rests hcalibrated.2 t.catalog t.waiting
  exact ⟨hwaiting.1.trans (hcalibrated.1.trans hrests.1), hwaiting.2⟩

end

/-! ## The stages of a turn -/

section
variable {busy : Option Nat} {w : World} {incoming : List Frame} {key : Nat} {item item' : Device}

theorem not_busy (hbusy : busy = none ∨ busy = some key) (other : Nat) (hother : other ≠ key)
    (_ : (none : Option Nat) ≠ some other) : busy ≠ some other := by
  rcases hbusy with rfl | rfl
  · simp
  · simpa using hother.symm

theorem Good.put_rests (h : Good busy w incoming) (hitem : w.devices key = some item)
    (hbusy : busy = none ∨ busy = some key) (hrests : Rests item item') :
    Good none (w.put key item') incoming := by
  refine h.put hitem (not_busy hbusy) hrests.1 (fun token htoken => ?_) fun _ _ => hrests.2
  rw [hrests.2] at htoken
  exact absurd htoken not_mem_nil

theorem calm_put (hrests : reads item = []) : (w.put key item).Calm key := by
  intro other hother
  rw [put_self] at hother
  cases hother
  exact hrests

theorem Good.weaken (h : Good none w incoming) (busy : Option Nat) : Good busy w incoming :=
  { h with calm := fun key item hitem _ => h.calm key item hitem (by simp) }

/-- A device that fails keeps what its recordings read. -/
theorem Good.fail (h : Good busy w incoming) (hitem : w.devices key = some item)
    (hbusy : busy = none ∨ busy = some key) (hpending : item'.pending = item.pending)
    (hreads : reads item' = reads item) : Good none (w.put key item'.fail) incoming := by
  refine h.put hitem (not_busy hbusy) hpending (fun token htoken => ?_) fun _ hno => ?_
  · exact (h.lent key item hitem).read token (hreads ▸ htoken)
  · cases hno

theorem Good.publish (h : Good busy w incoming) (p : Publishing) (key : Nat) :
    Good busy (w.publish_queue_patches p key) incoming := by
  unfold publish_queue_patches
  split
  · exact h
  rename_i item hitem
  have hput : Good busy (w.put key { item with queue_snapshot := w.published_patches p item }) incoming :=
    h.put_same hitem rfl rfl id
  dsimp only
  split
  · exact hput.tell rfl
  · exact hput

/-- A publication leaves what the recordings read, and that a device failed. -/
theorem publish_item (p : Publishing) (key : Nat) (hitem : w.devices key = some item) :
    (w.publish_queue_patches p key).devices key =
      some { item with queue_snapshot := w.published_patches p item } := by
  unfold publish_queue_patches
  rw [hitem]
  dsimp only
  split <;> exact put_self ..

/-! ### Stale frames -/

theorem Good.drop_stale (h : Good busy w incoming) (hcalm : w.Calm key) (natives : Natives) (feed : Feed) :
    Good busy (w.drop_stale natives key feed) incoming ∧ (w.drop_stale natives key feed).Calm key := by
  unfold World.drop_stale
  split
  · exact ⟨h, hcalm⟩
  split
  · exact ⟨h, hcalm⟩
  split
  · exact ⟨h, hcalm⟩
  · exact h.clear_slot hcalm natives feed

theorem Good.look (h : Good busy w incoming) (hcalm : w.Calm key) (natives : Natives)
    (looks : Feed → List Outside) (seen : Feed → SceneHandoff) :
    Good busy (feeds.foldl (look natives key looks) (w, seen)).1 incoming ∧
      (feeds.foldl (look natives key looks) (w, seen)).1.Calm key := by
  refine invariant (fun (t : World × (Feed → SceneHandoff)) feed
    (ht : Good busy t.1 incoming ∧ t.1.Calm key) => ?_) feeds ⟨h, hcalm⟩
  have hmeanwhile := ht.1.meanwhile (looks feed)
  refine hmeanwhile.1.drop_stale ?_ natives feed
  intro item hitem
  rw [hmeanwhile.2] at hitem
  exact ht.2 item hitem

/-! ### The door page -/

/-- What is ordered is told of, and its snapshots are read no more. -/
theorem Good.order (h : Good busy w incoming) (hitem : w.devices key = some item)
    (hbusy : busy = none ∨ busy = some key) (hrests : Rests item item') (tokens : List Nat)
    (fence value : Nat) :
    Good none ((w.put key item').tell (.ordered tokens fence value)) incoming ∧
      .ordered tokens fence value ∈ ((w.put key item').tell (.ordered tokens fence value)).told :=
  ⟨(h.put_rests hitem hbusy hrests).tell rfl, mem_append_right _ (mem_singleton_self _)⟩

theorem Good.submit_door (h : Good (some key) w incoming) (hitem : w.devices key = some item)
    (houtput : item.output.reads = []) (hwaiting : item.waiting_output.reads = [])
    (hcalibration : item.calibration_output.reads = [])
    (hreads : item.door_output.reads = (item.pending DoorFeed).toList.map Frame.token)
    (natives : Natives) (a : Attempt) (now : Nat) :
    Good (some key) (w.submit_door natives key item a now).1 incoming ∧
      ((w.submit_door natives key item a now).2 = true →
        Good none (w.submit_door natives key item a now).1 incoming) := by
  have hdoor : ∀ o : Output, o.reads = [] → Rests item { item with door_output := o } := fun o ho =>
    ⟨rfl, reads_nil.mpr ⟨houtput, ho, hwaiting, hcalibration⟩⟩
  have hkeep : ∀ o : Output, o.reads = item.door_output.reads →
      Good (some key) (w.put key { item with door_output := o }) incoming := by
    intro o ho
    refine h.put hitem (fun _ _ hbusy => hbusy) rfl (fun token htoken => ?_) fun hno => absurd rfl hno
    refine (h.lent key item hitem).read token ?_
    simpa [reads, ho] using htoken
  unfold World.submit_door
  dsimp only
  split
  · split
    · refine ⟨?_, fun hyes => h.put_rests hitem (.inr rfl) (hdoor _ (discard_prepared_done hyes))⟩
      rcases discard_prepared_reads (o := item.door_output) a.discarding with hsame | hnone
      · exact hkeep _ hsame
      · exact (h.put_rests hitem (.inr rfl) (hdoor _ hnone)).weaken _
    · exact ⟨h, nofun⟩
  split
  · exact ⟨hkeep _ (submit_reads _), nofun⟩
  have hordered := h.order hitem (.inr rfl) (hdoor (item.door_output.submit a.signalled).1.established rfl)
    (item.door_output.submit a.signalled).1.reads a.submission.fence a.submission.value
  split
  · exact ⟨hordered.1.weaken _, fun _ => hordered.1⟩
  rename_i frame hslot
  have hdone := hordered.1.consume_slot (put_self ..) hslot (hdoor _ rfl).2 natives
    ⟨_, by rw [submit_reads, hreads, hslot]; exact mem_singleton_self _, hordered.2⟩
    (set_slot
      { item with
        door_output := (item.door_output.submit a.signalled).1.established
        door_committed := frame.published, door_ready := true, door_ms := now } DoorFeed none)
    rfl (hdoor _ rfl).2
  exact ⟨hdone.weaken _, fun _ => hdone⟩

theorem Good.compose_door (h : Good none w incoming) (hcalm : w.Calm key) (natives : Natives)
    (a : Attempt) (now : Nat) (huntorn : a.preparing ≠ .torn) :
    Good (some key) (w.compose_door natives key a now).1 incoming ∧
      ((w.compose_door natives key a now).2 = true → Good none (w.compose_door natives key a now).1 incoming) := by
  unfold World.compose_door
  split
  · exact ⟨h.weaken _, fun _ => h⟩
  rename_i item hitem
  have hrest := hcalm item hitem
  obtain ⟨houtput, hdoor, hwaiting, hcalibration⟩ := reads_nil.mp hrest
  dsimp only
  split
  · exact ⟨h.weaken _, fun _ => h⟩
  generalize hprepared : (if ((item.pending DoorFeed).isSome && !a.accepted) = true then
    (item.door_output, false) else item.door_output.prepare
      ((item.pending DoorFeed).toList.map Frame.token) a.preparing) = prepared
  split
  · rename_i hno
    rw [Bool.not_eq_true'] at hno
    have hreads : prepared.1.reads = [] := by
      subst hprepared
      split at hno
      · rename_i hrefused
        rw [if_pos hrefused]
        exact hdoor
      rename_i hasked
      rw [if_neg hasked]
      exact (prepare_untorn hno huntorn).trans hdoor
    have hoff : Good none (w.put key { item with
        door_output := prepared.1, door_available := false, door_ready := false }) incoming :=
      h.put_rests hitem (.inl rfl) ⟨rfl, reads_nil.mpr ⟨houtput, hreads, hwaiting, hcalibration⟩⟩
    have hcleared := (hoff.clear_slot
      (calm_put (reads_nil.mpr ⟨houtput, hreads, hwaiting, hcalibration⟩)) natives DoorFeed).1
    exact ⟨hcleared.weaken _, fun _ => hcleared⟩
  rename_i hyes
  rw [Bool.not_eq_true', Bool.not_eq_false] at hyes
  have hreads : prepared.1.reads = (item.pending DoorFeed).toList.map Frame.token := by
    subst hprepared
    split at hyes
    · cases hyes
    rename_i hasked
    rw [if_neg hasked]
    exact prepare_closed hyes
  have hput : Good (some key) (w.put key { item with door_output := prepared.1 }) incoming := by
    refine h.put hitem (fun _ _ _ => by simp) rfl (fun token htoken => ?_) fun hno => absurd rfl hno
    have htokens : token ∈ (item.pending DoorFeed).toList.map Frame.token := by
      simpa [reads, houtput, hwaiting, hcalibration, hreads] using htoken
    obtain ⟨frame, hframe, rfl⟩ := mem_map.mp htokens
    exact ⟨DoorFeed, frame, Option.mem_toList.mp hframe, rfl⟩
  have hmeanwhile := hput.meanwhile a.during
  have hself : ((w.put key { item with door_output := prepared.1 }).meanwhile
      a.during).devices key = some { item with door_output := prepared.1 } := by
    rw [hmeanwhile.2, put_self]
  exact hmeanwhile.1.submit_door hself houtput hwaiting hcalibration hreads natives a now

theorem Good.service_door (h : Good none w incoming) (hcalm : w.Calm key) (natives : Natives)
    (a : Attempt) (now : Nat) (huntorn : a.preparing ≠ .torn) :
    Good (some key) (w.service_door natives key a now).1 incoming ∧
      ((w.service_door natives key a now).2 = true → Good none (w.service_door natives key a now).1 incoming) := by
  unfold World.service_door
  split
  · exact ⟨h.weaken _, fun _ => h⟩
  split
  · have hcleared := (h.clear_slot hcalm natives DoorFeed).1
    exact ⟨hcleared.weaken _, fun _ => hcleared⟩
  split
  · exact ⟨h.weaken _, fun _ => h⟩
  have hdropped := h.drop_stale hcalm natives DoorFeed
  exact hdropped.1.compose_door hdropped.2 natives a now huntorn

/-! ### The taxi composition -/

/-- A device whose recordings read the same is asked the same. -/
theorem is_read_put (hitem : w.devices key = some item) (hreads : reads item' = reads item)
    (token : Nat) : (w.put key item').is_read token = w.is_read token := by
  have hdevice : ∀ other, ((w.put key item').devices other).any
      (fun holder => (reads holder).contains token) =
        (w.devices other).any fun holder => (reads holder).contains token := by
    intro other
    by_cases hother : other = key
    · rw [hother, put_self, hitem, Option.any_some, Option.any_some, hreads]
    · rw [put_other _ _ hother]
  exact congrArg w.keys.any (funext hdevice)

theorem consume_put (natives : Natives) (fence value : Nat) (hreads : reads item' = reads item)
    (last : Device) (tokens : List Nat) (hitem : w.devices key = some item) :
    (tokens.foldl (World.finish_consumption natives fence value) (w.put key item')).put key last =
      (tokens.foldl (World.finish_consumption natives fence value) w).put key last := by
  induction tokens generalizing w with
  | nil => exact put_put ..
  | cons token rest ih =>
    have hone : finish_consumption natives fence value (w.put key item') token =
        (finish_consumption natives fence value w token).put key item' := by
      unfold finish_consumption
      rw [is_read_put hitem hreads]
      rfl
    rw [foldl_cons, hone]
    exact ih hitem

/-- The frames that a submission read go back, and their slots are free. -/
theorem Good.consume (natives : Natives) (fence value : Nat) (last : Device) (hlast : reads last = [])
    (frames : List Frame) (h : Good none w incoming) (hitem : w.devices key = some item)
    (hreads : reads item = []) (honce : frames.Nodup)
    (hordered : ∀ frame ∈ frames, ∃ tokens, frame.token ∈ tokens ∧ .ordered tokens fence value ∈ w.told)
    (hslots : ∀ frame ∈ frames, ∃ feed, item.pending feed = some frame)
    (hpending : ∀ feed, last.pending feed = (item.pending feed).filter (· ∉ frames)) :
    Good none (((frames.map Frame.token).foldl
      (World.finish_consumption natives fence value) w).put key last) incoming := by
  induction frames generalizing w item with
  | nil =>
    refine h.put_rests hitem (.inl rfl) ⟨funext fun feed => ?_, hlast⟩
    rw [hpending]
    cases item.pending feed <;> simp
  | cons frame rest ih =>
    obtain ⟨hout, hrest⟩ := nodup_cons.mp honce
    obtain ⟨feed, hslot⟩ := hslots frame mem_cons_self
    have hlent := h.lent key item hitem
    -- A frame waits in one slot.
    have hone : ∀ other, item.pending other = some frame → other = feed := by
      intro other hother
      refine Fin.ext ?_
      rw [← (hlent.held other frame hother).2.2.1, (hlent.held feed frame hslot).2.2.1]
    have hfreed := h.consume_slot hitem hslot hreads natives (hordered frame mem_cons_self)
      (set_slot item feed none) rfl hreads
    have hagain := consume_put (w := finish_consumption natives fence value w frame.token)
      natives fence value (show reads (set_slot item feed none) = reads item from rfl) last
      (rest.map Frame.token) hitem
    rw [map_cons, foldl_cons, ← hagain]
    refine ih hfreed (put_self ..) hreads hrest ?_ ?_ ?_
    · intro other hother
      obtain ⟨tokens, htokens, htold⟩ := hordered other (mem_cons_of_mem _ hother)
      exact ⟨tokens, htokens, mem_append_left _ htold⟩
    · intro other hother
      obtain ⟨place, hplace⟩ := hslots other (mem_cons_of_mem _ hother)
      refine ⟨place, ?_⟩
      have hne : place ≠ feed := by
        rintro rfl
        rw [hslot] at hplace
        cases hplace
        exact hout hother
      exact (Function.update_of_ne hne _ _).trans hplace
    · intro place
      rw [hpending]
      change _ = (Function.update item.pending feed none place).filter (· ∉ rest)
      by_cases hplace : place = feed
      · rw [hplace, Function.update_self, hslot]
        simp
      rw [Function.update_of_ne hplace]
      cases hother : item.pending place with
      | none => rfl
      | some other =>
        have hne : other ≠ frame := by
          rintro rfl
          exact hplace (hone place hother)
        simp [Option.filter, hne]

/-- The frames of a composition are those of the slots that its layout composes. -/
theorem chosen_slots {frames : List Frame} (h : chosen item = some frames) :
    frames.map some = (composed_feeds item).map item.pending := by
  unfold chosen at h
  split at h
  · rename_i first second hfirst hsecond
    unfold composed_feeds
    split at h
    · rename_i hlayout
      cases h
      rw [if_pos hlayout]
      simp [hfirst, hsecond]
    rename_i hlayout
    rw [if_neg hlayout]
    split at h
    · rename_i third hthird
      cases h
      simp [hfirst, hsecond, hthird]
    · cases h
  · cases h

theorem Good.submit_output (h : Good (some key) w incoming) (hitem : w.devices key = some item)
    (hdoor : item.door_output.reads = []) (hwaiting : item.waiting_output.reads = [])
    (hcalibration : item.calibration_output.reads = []) {composition : Composed}
    (hframes : composition.frames.map some = (composed_feeds item).map item.pending)
    (hreads : item.output.reads = composition.frames.map Frame.token)
    (natives : Natives) (a : Attempt) (p : Publishing) (now : Nat) :
    Good none (w.submit_output natives key item composition a p now) incoming := by
  have hrests : ∀ o : Output, o.reads = [] → Rests item { item with output := o } := fun o ho =>
    ⟨rfl, reads_nil.mpr ⟨ho, hdoor, hwaiting, hcalibration⟩⟩
  have hlent := h.lent key item hitem
  have hmem : ∀ feed frame, item.pending feed = some frame →
      (frame ∈ composition.frames ↔ feed ∈ composed_feeds item) := by
    intro feed frame hslot
    have hsome : frame ∈ composition.frames ↔ some frame ∈ composition.frames.map some := by simp
    rw [hsome, hframes, mem_map]
    constructor
    · rintro ⟨other, hother, hplace⟩
      have hsame : feed = other := by
        refine Fin.ext ?_
        rw [← (hlent.held feed frame hslot).2.2.1, (hlent.held other frame hplace).2.2.1]
      rw [hsame]
      exact hother
    · intro hfeed
      exact ⟨feed, hfeed, hslot⟩
  have hslots : ∀ frame ∈ composition.frames, ∃ feed, item.pending feed = some frame := by
    intro frame hframe
    have hsome : some frame ∈ composition.frames.map some := mem_map_of_mem hframe
    rw [hframes] at hsome
    obtain ⟨feed, -, hplace⟩ := mem_map.mp hsome
    exact ⟨feed, hplace⟩
  have honce : composition.frames.Nodup := by
    have hfeeds : (composed_feeds item).Nodup := by
      unfold composed_feeds
      split <;> simp
    refine List.Nodup.of_map some ?_
    rw [hframes]
    refine hfeeds.map_on fun feed hfeed other hother hsame => ?_
    have hsome : item.pending feed ∈ composition.frames.map some := by
      rw [hframes]
      exact mem_map_of_mem hfeed
    obtain ⟨frame, -, hframe⟩ := mem_map.mp hsome
    refine Fin.ext ?_
    rw [← (hlent.held feed frame hframe.symm).2.2.1, (hlent.held other frame (hsame ▸ hframe.symm)).2.2.1]
  -- A device that fails keeps at most what its recording read.
  have hfail : ∀ (t : World) (o : Output), Good (some key) t incoming →
      t.devices key = some item → o.reads = item.output.reads ∨ o.reads = [] →
      Good none (t.put key (Device.fail { item with output := o })) incoming := by
    intro t o ht hdevice ho
    refine ht.put hdevice (not_busy (.inr rfl)) rfl (fun token htoken => ?_) nofun
    refine (ht.lent key item hdevice).read token ?_
    rcases ho with hsame | hnone
    · simpa [reads, Device.fail, hsame] using htoken
    · simp [reads, Device.fail, hnone, hdoor, hwaiting, hcalibration] at htoken
  unfold World.submit_output
  dsimp only
  split
  · split
    · rename_i hdone
      simp only [Bool.and_eq_true] at hdone
      exact h.put_rests hitem (.inr rfl) (hrests _ (discard_prepared_done hdone.2))
    have hfailed := hfail w _ h hitem (discard_prepared_reads a.discarding)
    split
    · rename_i hdone
      exact (hfailed.discard (calm_put (hrests _ (discard_prepared_done hdone)).2) natives).1
    · exact hfailed
  have htold : Good (some key) (w.tell (.composed key composition)) incoming := h.tell rfl
  split
  · exact hfail _ _ htold hitem (.inl (submit_reads a.signalled))
  have hrest := hrests (item.output.submit a.signalled).1.established rfl
  have hordered := htold.order hitem (.inr rfl) hrest
    (item.output.submit a.signalled).1.reads a.submission.fence a.submission.value
  have hconsumed := hordered.1.consume natives a.submission.fence a.submission.value
    (commit { item with output := (item.output.submit a.signalled).1 } composition.frames now)
    hrest.2 composition.frames (put_self ..) hrest.2 honce ?_ hslots ?_
  · exact (hconsumed.meanwhile a.after).1.publish p key
  · intro frame hframe
    refine ⟨_, ?_, hordered.2⟩
    rw [submit_reads, hreads]
    exact mem_map_of_mem hframe
  · intro feed
    change (if feed ∈ composed_feeds item then none else item.pending feed) = _
    cases hslot : item.pending feed with
    | none => simp
    | some frame =>
      have hiff := hmem feed frame hslot
      by_cases hfeed : feed ∈ composed_feeds item
      · simp [Option.filter, hfeed, hiff.mpr hfeed]
      · simp [Option.filter, hfeed, mt hiff.mp hfeed]

theorem Good.compose (h : Good none w incoming) (hcalm : w.Calm key) (natives : Natives)
    (seen : Feed → SceneHandoff) (a : Attempt) (p : Publishing) (now : Nat) :
    Good none (w.compose natives key seen a p now) incoming := by
  unfold World.compose
  split
  · exact h
  rename_i item hitem
  have hrest := hcalm item hitem
  obtain ⟨houtput, hdoor, hwaiting, hcalibration⟩ := reads_nil.mp hrest
  split
  · exact h
  rename_i frames hchosen
  have hframes := chosen_slots hchosen
  have hread : ∀ token ∈ frames.map Frame.token,
      ∃ feed frame, item.pending feed = some frame ∧ frame.token = token := by
    intro token htoken
    obtain ⟨frame, hframe, rfl⟩ := mem_map.mp htoken
    have hsome : some frame ∈ frames.map some := mem_map_of_mem hframe
    rw [hframes] at hsome
    obtain ⟨feed, -, hslot⟩ := mem_map.mp hsome
    exact ⟨feed, frame, hslot, rfl⟩
  split
  · exact (h.discard hcalm natives).1
  split
  · exact h.fail hitem (.inl rfl) rfl rfl
  dsimp only
  split
  · refine h.put hitem (not_busy (.inl rfl)) rfl (fun token htoken => ?_) nofun
    rcases @prepare_reads item.output (frames.map Frame.token) a.preparing with
      hsame | hnew
    · simp [reads, Device.fail, hsame, houtput, hdoor, hwaiting, hcalibration] at htoken
    refine hread token ?_
    simpa [reads, Device.fail, hnew, hdoor, hwaiting, hcalibration] using htoken
  rename_i hyes
  rw [Bool.not_eq_true', Bool.not_eq_false] at hyes
  have hreads := prepare_closed hyes
  set prepared := (item.output.prepare (frames.map Frame.token) a.preparing).1
  have hput : Good (some key) (w.put key { item with output := prepared }) incoming := by
    refine h.put hitem (fun _ _ _ => by simp) rfl (fun token htoken => hread token ?_) fun hno => absurd rfl hno
    simpa [reads, hreads, hdoor, hwaiting, hcalibration] using htoken
  have hmeanwhile := hput.meanwhile a.during
  have hself : ((w.put key { item with output := prepared }).meanwhile
      a.during).devices key = some { item with output := prepared } := by
    rw [hmeanwhile.2, put_self]
  exact hmeanwhile.1.submit_output hself hdoor hwaiting hcalibration hframes hreads natives a p now

end

end World

end taxi_camera.scene_runtime
