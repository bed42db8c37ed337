-- The picture over the runs of the runtime: the service chooses what is current
-- and composes it, and every other call takes a picture away or leaves it, as
-- long as no layout drops a feed that stands in it.
import TaxiCam.CompositionRuns

namespace taxi_camera.scene_runtime

open scene SceneCaptureManager PacketPool histories runs List

namespace World

/-! ## The service -/

section
variable {w : World} {key : Nat} {item item' : Device}

/-- What the slots that were looked at have is current in the handoff that the look found. -/
def Looked (key : Nat) (done : Feed → Prop) (found : World × (Feed → SceneHandoff)) : Prop :=
  ∀ item, found.1.devices key = some item → item.status.failed = false ∧
    ∀ feed frame, done feed → item.pending feed = some frame →
      (found.2 feed).is_current frame.published = true

variable {done : Feed → Prop} {found : World × (Feed → SceneHandoff)}

theorem looked_one (h : Looked key done found) (natives : Natives) (looks : Feed → List Outside) (feed : Feed)
    (hnew : ¬done feed) :
    Looked key (fun other => done other ∨ other = feed) (look natives key looks found feed) := by
  intro item hitem
  -- The slot is as it was, or it is free.
  have hbefore : ∃ before, found.1.devices key = some before ∧ item.status = before.status ∧
      (∀ other frame, item.pending other = some frame → before.pending other = some frame) ∧
        ∀ frame, item.pending feed = some frame →
          (found.1.meanwhile (looks feed)).handoff.is_current frame.published = true := by
    have hdevices := (meanwhile_same (w := found.1) (looks feed)).1
    change ((found.1.meanwhile (looks feed)).drop_stale natives key feed).devices key = _ at hitem
    unfold drop_stale at hitem
    split at hitem
    · rename_i hnone
      rw [hitem] at hnone
      cases hnone
    rename_i before hdevice
    have hfound := hdevice
    rw [hdevices] at hfound
    split at hitem
    · rename_i hslot
      rw [hdevice] at hitem
      cases hitem
      exact ⟨_, hfound, rfl, fun _ _ h => h, fun frame hframe => by rw [hslot] at hframe; cases hframe⟩
    rename_i frame hslot
    split at hitem
    · rename_i hcurrent
      rw [hdevice] at hitem
      cases hitem
      refine ⟨_, hfound, rfl, fun _ _ h => h, fun other hother => ?_⟩
      rw [hslot] at hother
      cases hother
      exact hcurrent
    rw [clear_slot_item natives hdevice feed] at hitem
    cases hitem
    refine ⟨_, hfound, rfl, ((Follows.refl before).set_slot feed).pending, fun other hother => ?_⟩
    change Function.update before.pending feed none feed = some other at hother
    rw [Function.update_self] at hother
    cases hother
  obtain ⟨before, hfound, hstatus, hpending, hfeed⟩ := hbefore
  obtain ⟨hlive, hdone⟩ := h before hfound
  refine ⟨hstatus ▸ hlive, fun other frame hother hslot => ?_⟩
  change (Function.update found.2 feed (found.1.meanwhile (looks feed)).handoff other).is_current _ = _
  rcases hother with hother | rfl
  · have hne : other ≠ feed := fun heq => hnew (heq ▸ hother)
    rw [Function.update_of_ne hne]
    exact hdone other frame hother (hpending other frame hslot)
  rw [Function.update_self]
  exact hfeed frame hslot

theorem looked_all (natives : Natives) (looks : Feed → List Outside) (places : List Feed) (h : Looked key done found)
    (hnew : ∀ feed ∈ places, ¬done feed) (honce : places.Nodup) :
    Looked key (fun feed => done feed ∨ feed ∈ places) (places.foldl (look natives key looks) found) := by
  induction places generalizing found done with
  | nil => simpa [Looked] using h
  | cons feed rest ih =>
    obtain ⟨hout, hrest⟩ := nodup_cons.mp honce
    have hone := looked_one h natives looks feed (hnew feed mem_cons_self)
    have hall := ih hone (fun other hother => ?_) hrest
    · intro item hitem
      obtain ⟨hlive, hdone⟩ := hall item hitem
      refine ⟨hlive, fun other frame hother hslot => hdone other frame ?_ hslot⟩
      simpa [or_assoc] using hother
    · rintro (hdone | rfl)
      · exact hnew other (mem_cons_of_mem _ hother) hdone
      · exact hout hother

theorem Onward.look (natives : Natives) (looks : Feed → List Outside) (seen : Feed → SceneHandoff) :
    Onward key w (feeds.foldl (World.look natives key looks) (w, seen)).1 :=
  @invariant _ _ (World.look natives key looks) (w, seen) (fun t => Onward key w t.1)
    (fun _ feed h => (h.trans (.meanwhile (looks feed))).trans (Stays.drop_stale natives feed).onward) feeds
    (.refl key w)

theorem Moving.compose (h : Moving none w) {seen : Feed → SceneHandoff}
    (hseen : Looked key (fun _ => True) (w, seen)) (natives : Natives) (a : Attempt) (p : Publishing)
    (now : Nat) : Moving none (w.compose natives key seen a p now) := by
  unfold World.compose
  split
  · exact h
  rename_i item hitem
  obtain ⟨hlive, hcurrent⟩ := hseen item hitem
  have hpage : ∀ o, Follows item { item with output := o } := fun _ => .of_eq rfl rfl rfl rfl rfl rfl
  split
  · exact h
  rename_i frames hchosen
  split
  · exact h.onward (.discard natives)
  rename_i hscene
  rw [Bool.not_eq_true', Bool.not_eq_false] at hscene
  split
  · exact h.onward (.put hitem (Follows.refl item).fail)
  dsimp only
  split
  · exact h.onward (.put hitem (hpage _).fail)
  set prepared := (item.output.prepare (frames.map Frame.token) a.preparing).1
  have hput : Moving none (w.put key { item with output := prepared }) := h.onward (.put hitem (hpage prepared))
  have hself : ((w.put key { item with output := prepared }).meanwhile
      a.during).devices key = some { item with output := prepared } := by
    rw [(meanwhile_same a.during).1, put_self]
  have hframes := chosen_slots hchosen
  exact (hput.meanwhile a.during).submit_output hself hlive rfl hframes hscene
    (fun feed frame hslot => hcurrent feed frame trivial hslot) natives a p now

theorem Moving.service_output (h : Moving none w) (key : Nat) (t : Turn) : Moving none (w.service_output key t) := by
  unfold World.service_output
  split
  · exact h
  rename_i item hitem
  split
  · exact h
  rename_i hready
  simp only [Bool.or_eq_true, not_or, Bool.not_eq_true] at hready
  have hfirst : Looked key (fun _ => False) (w, fun _ => ({} : SceneHandoff)) := by
    intro other hother
    rw [hitem] at hother
    cases hother
    exact ⟨hready.1.1.2, fun _ _ hno => hno.elim⟩
  have hlooked := looked_all t.natives t.looks feeds hfirst (fun _ _ hno => hno) (nodup_finRange 4)
  refine (h.onward (.look t.natives t.looks _)).compose ?_ t.natives t.output t.concluding t.now
  intro other hother
  obtain ⟨hlive, hcurrent⟩ := hlooked other hother
  exact ⟨hlive, fun feed frame _ hslot =>
    hcurrent feed frame (.inr (mem_finRange feed)) hslot⟩

theorem Moving.service_images (h : Moving none w) (key : Nat) (t : Turn) : Moving none (w.service_images key t) := by
  unfold World.service_images
  split
  · exact h
  rename_i item hitem
  dsimp only
  have hdoor : Onward key w (if item.status.initialized then
      w.service_door t.natives key t.door t.now else (w, true)).1 := by
    split
    · exact (Stays.service_door t.natives t.door t.now).onward
    · exact .refl key w
  generalize (if item.status.initialized then
    w.service_door t.natives key t.door t.now else (w, true)) = door at hdoor ⊢
  split
  · split
    · exact h.onward hdoor
    rename_i held hheld
    exact h.onward (hdoor.trans (.put hheld (Follows.refl held).fail))
  · exact (((h.onward hdoor).meanwhile t.door.after).publish (.inl rfl) t.republishing).service_output key t

theorem Moving.service_device (h : Moving none w) (key : Nat) (t : Turn) : Moving none (w.service_device key t) := by
  have hstart := h.meanwhile t.starts
  unfold World.service_device
  dsimp only
  split
  · exact hstart
  rename_i item hitem
  have hblank : Follows item { item with queue_snapshot := {} } :=
    ⟨fun _ _ h => h, rfl, id, fun _ _ _ _ => rfl, fun _ h => ⟨h, rfl, fun _ h => h⟩, nofun⟩
  split
  · exact hstart.onward (.put hitem hblank)
  have hpages := hblank.trans (service_pages_still (w.meanwhile t.starts) t).follows
  split
  · rename_i shown heq
    rw [heq] at hpages
    exact hstart.onward (.put hitem hpages)
  rename_i shown heq
  rw [heq] at hpages
  exact ((hstart.onward (.put hitem hpages)).publish (.inl rfl) t.publishing).service_images key t

theorem Moving.service (h : Moving none w) (s : Service) : Moving none (w.service s) := by
  exact invariant (fun (t : World) key (ht : Moving none t) => ht.service_device key (s.turns key))
    w.keys ((h.poll s.polling).arrivals s _)

/-! ## The other calls -/

theorem Moving.init_device (h : Moving none w) (key native timeline : Nat) (room : Bool) :
    Moving none (w.init_device key native timeline room) := by
  unfold World.init_device
  split
  · exact h
  rename_i hnew
  simp only [not_or, Bool.not_eq_true, Option.isSome_eq_false_iff, Option.isNone_iff_eq_none] at hnew
  dsimp only
  split
  · exact h.of_same rfl rfl
  have hnothing : ∀ c, .composed key c ∉ w.told := by
    intro c hc
    have hsome := h.present key c hc
    rw [hnew.2.2.1] at hsome
    cases hsome
  refine h.turn (.inl rfl) (append_nil _).symm (by rw [append_nil]; exact h.forward)
    (fun _ he => absurd he not_mem_nil) (fun _ hother => put_other _ _ hother)
    (put_self w key {}) ?_ (.inl ⟨rfl, nofun⟩)
  rw [append_nil]
  exact ⟨nofun, fun c hc => absurd hc (hnothing c),
    nofun, fun _ c hc => absurd hc (hnothing c),
    nofun⟩

theorem Moving.destroy_device (h : Moving none w) (natives : Natives) (key : Nat) :
    Moving none (w.destroy_device natives key) := by
  have hdiscarded := h.onward (Onward.discard natives : Onward key w _)
  unfold World.destroy_device
  dsimp only
  split
  · exact hdiscarded.of_same rfl rfl
  rename_i item hitem
  have hover : Follows item
      { item with
        status := { item.status with failed := true, session_active := false, output := false }
        queue_snapshot := {} } :=
    ⟨fun _ _ h => h, rfl, nofun, nofun,
      nofun, nofun⟩
  exact (hdiscarded.onward (.put hitem hover)).of_same rfl rfl

theorem Moving.prepare (h : Moving none w) (key : Nat) (p : Preparation) : Moving none (w.prepare key p) := by
  unfold World.prepare
  split
  · exact h
  rename_i item hitem
  have hpage : ∀ (item : Device) (o : Output) (waiting door : Bool), Follows item
      { item with output := o, waiting_available := waiting, door_available := door } :=
    fun _ _ _ _ => .of_eq rfl rfl rfl rfl rfl rfl
  split
  · exact h
  split
  · exact h.onward (.put hitem ((Follows.refl item).fail.trans (hpage _ _ _ _)))
  split
  · exact h
  have hoffers := hpage item item.output p.waiting p.door
  split
  · exact h.onward (.put hitem hoffers.fail)
  refine h.onward (.put hitem (hoffers.trans ?_))
  exact ⟨fun _ _ h => h, rfl, id, fun _ _ _ _ => rfl, fun _ h => ⟨h, rfl, fun _ h => h⟩, fun _ h => h⟩

theorem Moving.set_patch_profile (h : Moving none w) (key profile : Nat) (catalog : Catalog)
    (waiting door : Discarding) :
    Moving none (w.set_patch_profile key profile catalog waiting door) := by
  unfold World.set_patch_profile
  split
  · rename_i layout item _ hitem
    split
    · exact h
    dsimp only
    generalize reprofile item.waiting_output item.waiting_available item.waiting_ready waiting = waiting
    generalize reprofile item.door_output item.door_available item.door_ready door = door
    have hfollows : ∀ changed : Bool, Follows item
        { item with
          waiting_output := waiting.1, waiting_available := waiting.2.1, waiting_ready := waiting.2.2
          door_output := door.1, door_available := door.2.1, door_ready := door.2.2
          status := { item.status with output := item.status.output && !changed }
          queue_snapshot := {}, queue_config := {}
          patch_profile := profile, patch_layout := some layout.layout } := by
      intro changed
      refine ⟨fun _ _ h => h, rfl, id, fun _ _ _ _ => rfl, fun _ hout => ?_, nofun⟩
      exact ⟨(Bool.and_eq_true_iff.mp hout).1, rfl, fun _ h => h⟩
    split
    · rename_i hchanged
      refine h.change hitem (show _ = w.told ++ [.changed key] from rfl) ?_
        (fun _ hother => put_other _ _ hother) (put_self ..) (hfollows _) ?_ rfl
      · intro e he
        exact .inr (mem_singleton.mp he)
      · rw [hchanged]
        exact Bool.and_false _
    · exact h.onward (.put hitem (hfollows _))
  · exact h

theorem Moving.configure_queue_patches (h : Moving none w) (key : Nat) (config : QueuePatchConfig)
    (catalog : Catalog) : Moving none (w.configure_queue_patches key config catalog) := by
  unfold World.configure_queue_patches
  split
  · exact h
  rename_i item hitem
  split
  · exact h
  split
  · refine h.onward (.put hitem ?_)
    exact ⟨fun _ _ h => h, rfl, id, fun _ _ _ _ => rfl, fun _ h => ⟨h, rfl, fun _ h => h⟩, nofun⟩
  · exact h

/-- Where a device shows a picture with the third feed, the layout composes that. -/
def Keeps (w : World) (key : Nat) (layout : Composition) : Prop :=
  ∀ item, w.devices key = some item → item.status.failed = false → item.status.output = true →
    (item.committed 2).matched = true → layout.split_bottom ≠ 0

theorem Moving.set_composition (h : Moving none w) {layout : Composition}
    (hkeeps : w.Keeps key layout) (accepted : Bool) :
    Moving none (w.set_composition key layout accepted) := by
  unfold World.set_composition
  split
  · exact h
  rename_i item hitem
  have hlayout : ∀ available ready : Bool, Follows item
      { item with
        composition := layout, door_available := available, door_ready := ready } :=
    fun _ _ => ⟨fun _ _ h => h, rfl, id, fun _ _ _ _ => rfl,
      fun hlive hout => ⟨hout, rfl, fun hthird _ => hkeeps item hitem hlive hout hthird⟩,
      fun _ h => h⟩
  dsimp only
  split
  · exact h.onward (.put hitem (hlayout false false))
  · exact h.onward (.put hitem (hlayout item.door_available item.door_ready))

theorem Moving.set_door (h : Moving none w) (key : Nat) (enabled live : Bool) :
    Moving none (w.set_door key enabled live) := by
  unfold World.set_door
  split
  · exact h
  rename_i item hitem
  split <;> exact h.onward (.put hitem (.of_eq rfl rfl rfl rfl rfl rfl))

/-- What a reset drops leaves no picture. -/
theorem drop_pictures_follows (item : Device) : Follows item (drop_pictures item) :=
  ⟨fun _ _ h => h, rfl, id, fun _ _ _ _ => rfl, nofun, nofun⟩

theorem Moving.reset_feed (h : Moving none w) (natives : Natives) (key : Nat) :
    Moving none (w.reset_feed natives key) := by
  unfold World.reset_feed
  split
  · exact h
  rename_i item hitem
  split
  · exact h
  have hdiscard : Onward key w (w.discard natives key) := .discard natives
  dsimp only
  split
  · rename_i hnone
    obtain ⟨left, hleft, -⟩ := hdiscard.follows item hitem
    change (w.discard natives key).devices key = none at hnone
    rw [hleft] at hnone
    cases hnone
  rename_i left hleft
  refine (h.onward hdiscard).change hleft (show _ = _ ++ [.changed key] from rfl) ?_
    (fun _ hother => put_other _ _ hother) (put_self ..) (drop_pictures_follows left) rfl rfl
  intro e he
  exact .inr (mem_singleton.mp he)

/-- The slots that were cleared are free. -/
theorem cleared (natives : Natives) (places : List Feed) (hitem : w.devices key = some item) :
    ∃ left, (places.foldl (World.clear_slot natives key) w).devices key = some left ∧
      left.status = item.status ∧ left.queue_snapshot = item.queue_snapshot ∧
        ∀ feed, feed ∈ places ∨ item.pending feed = none → left.pending feed = none := by
  induction places generalizing w item with
  | nil => exact ⟨item, hitem, rfl, rfl, fun feed hfree => hfree.resolve_left not_mem_nil⟩
  | cons feed rest ih =>
    obtain ⟨left, hleft, hstatus, hsnapshot, hfree⟩ := ih (clear_slot_item natives hitem feed)
    refine ⟨left, hleft, hstatus, hsnapshot, fun other hother => hfree other ?_⟩
    by_cases hsame : other = feed
    · exact .inr (by rw [hsame]; exact Function.update_self ..)
    rcases hother with hin | hnone
    · exact .inl ((mem_cons.mp hin).resolve_left hsame)
    · exact .inr ((Function.update_of_ne hsame _ _).trans hnone)

theorem Moving.reset_session (h : Moving none w) (natives : Natives) (key : Nat) :
    Moving none (w.reset_session natives key).1 := by
  unfold World.reset_session
  split
  · exact h
  rename_i item hitem
  dsimp only
  have hchanged : ∀ e ∈ [Event.changed key], silent e = true ∨ e = .changed key := fun e he =>
    .inr (mem_singleton.mp he)
  split
  · refine h.change hitem (show _ = w.told ++ [.changed key] from rfl) hchanged
      (fun _ hother => put_other _ _ hother) (put_self ..)
      ((drop_pictures_follows item).trans ?_) rfl rfl
    exact ⟨fun _ _ h => h, rfl, id, fun _ _ _ _ => rfl, fun _ h => ⟨h, rfl, fun _ h => h⟩, fun _ h => h⟩
  set shown : Device :=
    { drop_pictures item with
      queue_config := {}
      status :=
        { (drop_pictures item).status with
          session_active := false, session_generation := reset_generation w.pool key } }
  set after := (tell { w with pool := w.pool.reset_session key } (.changed key)).put key shown
  split
  · rename_i hfailed
    refine h.change hitem (show after.told = w.told ++ [.changed key] from rfl) hchanged
      (fun _ hother => put_other _ _ hother) (put_self ..) ⟨fun _ _ h => h, rfl, ?_, ?_, ?_, ?_⟩
      rfl rfl
    · exact id
    · intro hlive
      cases hfailed.symm.trans hlive
    · exact nofun
    · exact nofun
  have hdiscard : Onward key after (after.discard natives key) := .discard natives
  obtain ⟨es, htold, hes⟩ := hdiscard.told
  obtain ⟨left, hleft, hfollows⟩ := hdiscard.follows shown (put_self ..)
  obtain ⟨same, hsame, hstatus, hsnapshot, hfree⟩ := cleared natives feeds
    (show after.devices key = some shown from put_self ..)
  cases hsame.symm.trans hleft
  have hempty : ∀ feed, left.pending feed = none := fun feed =>
    hfree feed (.inl (mem_finRange feed))
  have hnone : ∀ feed frame, left.pending feed ≠ some frame := by
    intro feed frame hslot
    rw [hempty] at hslot
    cases hslot
  have hout : left.status.output = false := by
    rw [hstatus]
    rfl
  refine h.change hitem (show (after.discard natives key).told = w.told ++ (.changed key :: es) from ?_)
    ?_ (fun other hother => (hdiscard.others other hother).trans (put_other _ _ hother)) hleft
    ⟨fun feed frame hslot => absurd hslot (hnone feed frame), hfollows.newest, hfollows.live,
      fun _ feed frame hslot => absurd hslot (hnone feed frame), ?_, ?_⟩ hout ?_
  · rw [htold]
    simp [after, tell, put]
  · intro e he
    rcases mem_cons.mp he with rfl | hin
    · exact .inr rfl
    · exact .inl (hes e hin)
  · intro _ hno
    rw [hout] at hno
    cases hno
  · intro hlive hno
    cases hfollows.posted hlive hno
  · rw [hsnapshot]
    rfl

theorem Moving.resume_session (h : Moving none w) (key generation : Nat) :
    Moving none (w.resume_session key generation).1 := by
  unfold World.resume_session
  split
  · exact h
  rename_i item hitem
  split
  · exact h
  split
  · exact h
  have hon : Onward key w (w.put key { item with status := { item.status with session_active := true } }) :=
    .put hitem ⟨fun _ _ h => h, rfl, id, fun _ _ _ _ => rfl, fun _ h => ⟨h, rfl, fun _ h => h⟩, fun _ h => h⟩
  exact (h.onward hon).of_same rfl rfl

end

/-! ## Runs -/

/-- No layout without the third feed is set while the picture that stands composes it. -/
def Steady (w : World) : Op → Prop
  | .set_composition key layout _ => w.Keeps key layout
  | _ => True

variable {told : List Event} {w : World}

theorem Moving.step (h : Moving none w) (op : Op) (hop : w.Steady op) : Moving none (World.step w op) := by
  cases op with
  | outside work => exact h.meanwhile work
  | init_device key native timeline room => exact h.init_device key native timeline room
  | destroy_device natives key => exact h.destroy_device natives key
  | refuse_queue key =>
    change Moving none (w.refuse_queue key)
    unfold refuse_queue
    split
    · exact h
    rename_i item hitem
    exact h.onward (.put hitem (Follows.refl item).fail)
  | prepare key p => exact h.prepare key p
  | set_patch_profile key profile catalog waiting door =>
    exact h.set_patch_profile key profile catalog waiting door
  | configure_queue_patches key config catalog => exact h.configure_queue_patches key config catalog
  | set_composition key layout accepted => exact h.set_composition hop accepted
  | set_door key enabled live => exact h.set_door key enabled live
  | set_waiting_stale_ms ms => exact h.of_same rfl rfl
  | reset_feed natives key => exact h.reset_feed natives key
  | reset_session natives key => exact h.reset_session natives key
  | resume_session key generation => exact h.resume_session key generation
  | service s => exact h.service s

theorem moving_initial : Moving none {} where
  forward := explained_nil
  fit key item hitem := by cases hitem
  posted key item hitem := by cases hitem
  present key c hc := absurd hc not_mem_nil

/-- What is told goes forward, and the patches that are given for a device show its picture where a
publication showed it, with no composition, profile change or reset since. -/
structure InOrder (w : World) : Prop where
  forward : Explained Forward w.told
  given : ∀ key generation snapshot, w.snapshot_queue_patches key generation = some snapshot →
    shows_camera snapshot = true →
      Since (ends key) (fun _ e => ∃ handoff, e = .shown key handoff) w.told

theorem Moving.in_order (h : Moving none w) : w.InOrder := by
  refine ⟨h.forward, fun key generation snapshot hsnapshot hshown => ?_⟩
  unfold snapshot_queue_patches at hsnapshot
  split at hsnapshot
  · cases hsnapshot
  rename_i item hitem
  split at hsnapshot
  · cases hsnapshot
  rename_i hready
  cases hsnapshot
  simp only [Bool.or_eq_true, not_or, Bool.not_eq_true] at hready
  exact h.posted key item hitem (by simp) hready.1.1.1.1.2 hshown

/-- The composition that stands, after what was told. -/
def last_composed (key : Nat) (told : List Event) : Option Composed :=
  match told.reverse.find? (ends key) with
  | some (.composed _ c) => some c
  | _ => none

theorem Stands.last {key : Nat} {kind : Composed → Prop}
    (h : Stands key kind told) : ∃ c, last_composed key told = some c ∧ kind c := by
  obtain ⟨before, x, after, rfl, ⟨c, rfl, hc⟩, hafter⟩ := h
  refine ⟨c, ?_, hc⟩
  have hlater : after.reverse.find? (ends key) = none :=
    List.find?_eq_none.mpr fun e he => by simpa using hafter e (mem_reverse.mp he)
  have hfind : (before ++ .composed key c :: after).reverse.find? (ends key) = some (.composed key c) := by
    rw [reverse_append, reverse_cons, append_assoc, List.find?_append, hlater]
    simp [composed_ends]
  unfold last_composed
  rw [hfind]

/-- The event is a publication that shows a composition with a frame that is over. -/
def shown_stale (past : List Event) : Event → Bool
  | .shown key handoff =>
    (last_composed key past).any fun c =>
      c.frames.any fun frame => !handoff.is_current frame.published
  | _ => false

theorem not_stale {past : List Event} {e : Event} (h : Forward past e) : shown_stale past e = false := by
  cases e with
  | shown key handoff =>
    obtain ⟨c, hlast, hcurrent⟩ := Stands.last h
    simp only [shown_stale, hlast, Option.any_some, any_eq_false, Bool.not_eq_true', Bool.not_eq_false]
    exact hcurrent
  | _ => rfl

theorem none_stale (h : Explained Forward told) :
    told.zipIdx.any (fun turn => shown_stale (told.take turn.2) turn.1) = false := by
  refine any_eq_false.mpr fun turn hturn => ?_
  obtain ⟨hi, hget⟩ := List.getElem?_eq_some_iff.mp (mem_zipIdx_iff_getElem?.mp hturn)
  have hsplit : told = told.take turn.2 ++ turn.1 :: told.drop (turn.2 + 1) := by
    rw [← hget, ← drop_eq_getElem_cons hi, take_append_drop]
  rw [Bool.not_eq_true]
  exact not_stale (h _ _ _ hsplit)

/-- Three textures, published by a manager. -/
def publish_three (ticket : SceneCaptureTicket) : Outside :=
  .handoff (.publish ticket ⟨9, 1⟩ (fun feed => [10, 11, 12].getD feed.val 0)
    (fun feed => [100, 101, 102].getD feed.val 0))

def three_scene : List Outside :=
  [.handoff (.register_device 1), .handoff (.register_resource 1 100 1 true),
    .handoff (.register_resource 1 101 2 true), .handoff (.register_resource 1 102 3 true),
    .handoff .begin_scene, .handoff .begin_capture, publish_three ⟨1, 5, 1⟩]

def three_tails : List Tail :=
  [0, 1, 2].map fun feed =>
    { sample_tail with
      published :=
        { matched := true, feed, scene_epoch := 1, capture_sequence := 1, manager := ⟨9, 1⟩
          entry_id := 10 + feed, resource := ⟨1, 1 + feed, 1 + feed⟩ } }

/-- A service whose publications find a profile and every patch. -/
def sample_show : Op :=
  let p : Publishing := { catalog := fun _ => some { layout := 1 }, now := 1 }
  .service
    { natives := fun _ => sample_native 0
      polling := { natives := fun _ => sample_native 1, ready := fun _ => sample_native 1 }
      turns := fun _ =>
        { natives := fun _ => sample_native 0, catalog := p.catalog, now := 1
          publishing := p, republishing := p, concluding := p } }

def sample_picture : List Op :=
  [.init_device 1 5 6 true, .prepare 1 {}, .set_composition 1 { split_bottom := 1 } true,
    .configure_queue_patches 1
      { generation := 1, profile := 1, camera_mask := 1, formats := [28, 0, 0] }
      (fun _ => some { layout := 1 }),
    .outside (three_scene ++ sample_batch three_tails), sample_show]

def dropped : List Op :=
  sample_picture ++
    [.set_composition 1 {} true,
      .outside
        [.handoff (.unregister_resource 1 102), .handoff (.register_resource 1 102 3 true),
          .handoff .begin_capture, publish_three ⟨1, 7, 2⟩],
      sample_show]

end World

end taxi_camera.scene_runtime
