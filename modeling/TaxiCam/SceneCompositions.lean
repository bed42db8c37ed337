-- The taxi compositions over the runs of the runtime: which frames one composes,
-- in which order they follow each other, and when the picture is shown. A device
-- that a call leaves with no more than it had keeps what is told in order.
import TaxiCam.Histories
import TaxiCam.SceneService

namespace taxi_camera.scene_runtime

open scene SceneCaptureManager PacketPool histories runs List

namespace World

/-! ## The rules -/

/-- The event ends what is shown of the device before it. -/
def ends (key : Nat) : Event → Bool
  | .composed other _ | .changed other => other == key
  | _ => false

/-- A composition has one frame for each feed of its layout. They are of the device, of one scene
and one manager, and of the session; each was current when its slot was looked at. -/
structure Coherent (key : Nat) (c : Composed) : Prop where
  feeds : c.frames.map (fun frame => frame.published.feed) = [0, 1] ∨
    c.frames.map (fun frame => frame.published.feed) = [0, 1, 2]
  own : ∀ frame ∈ c.frames, frame.device_key = key
  scene : ∀ frame ∈ c.frames, ∀ other ∈ c.frames,
    frame.published.scene_epoch = other.published.scene_epoch ∧
      frame.published.manager = other.published.manager
  session : ∀ frame ∈ c.frames, frame.session_generation = c.generation
  current : ∀ frame ∈ c.frames, ∃ feed : Feed, frame.published.feed = feed.val ∧
    (c.seen feed).is_current frame.published = true

def AllCurrent (handoff : SceneHandoff) (c : Composed) : Prop :=
  ∀ frame ∈ c.frames, handoff.is_current frame.published = true

/-- The last composition of the device is one of a kind, and no call ended it since. -/
def Stands (key : Nat) (kind : Composed → Prop) (told : List Event) : Prop :=
  Since (ends key) (fun _ e => ∃ c, e = .composed key c ∧ kind c) told

/-- What may be told after the past. A composition is coherent, and its frames are newer than those
of each earlier one for their feeds; the picture is shown while the frames of the last composition
are current and no call ended it. -/
def Forward (past : List Event) : Event → Prop
  | .composed key c =>
    Coherent key c ∧ ∀ earlier, .composed key earlier ∈ past → ∀ frame ∈ c.frames,
      ∀ other ∈ earlier.frames, other.published.feed = frame.published.feed →
        newer_than frame.order other.order = true
  | .shown key handoff => Stands key (AllCurrent handoff) past
  | _ => True

/-- The event is about no composition. -/
def silent : Event → Bool
  | .composed .. | .changed .. | .shown .. => false
  | _ => true

section
variable {e : Event} {key : Nat} {told es : List Event}

theorem silent_ends (h : silent e = true) (key : Nat) : ends key e = false := by
  cases e with
  | composed other c | changed other | shown other handoff => cases h
  | _ => rfl

theorem silent_forward (h : silent e = true) (past : List Event) : Forward past e := by
  cases e with
  | composed other c | changed other | shown other handoff => cases h
  | _ => trivial

theorem explained_append (h : Explained Forward told)
    (hes : ∀ e ∈ es, ∀ past, Forward past e) : Explained Forward (told ++ es) := by
  induction es using reverseRecOn with
  | nil => simpa using h
  | append_singleton rest e ih =>
    rw [← append_assoc]
    refine explained_snoc (ih fun x hx => hes x (mem_append_left _ hx)) ?_
    exact hes e (mem_append_right _ (mem_singleton_self _)) _

end

/-! ### Orders -/

/-- The order is the other's, or the other is newer. -/
def UpTo (order later : FrameOrder) : Prop := order = later ∨ newer_than later order = true

variable {a b c : FrameOrder}

theorem newer_than_trans (hab : newer_than a b = true) (hbc : newer_than b c = true) : newer_than a c = true := by
  simp only [newer_than, Bool.and_eq_true, Bool.or_eq_true, bne_iff_ne, beq_iff_eq, decide_eq_true_eq] at *
  omega

theorem UpTo.newer (hab : UpTo a b) (hbc : newer_than c b = true) : newer_than c a = true := by
  rcases hab with rfl | hab
  · exact hbc
  · exact newer_than_trans hbc hab

/-! ## Devices -/

/-- The device commits the composition, and its layout has the third feed where that composes it. -/
structure Committed (item : Device) (c : Composed) : Prop where
  published : item.committed = fun feed => ((c.frames[feed.val]?).map Frame.published).getD {}
  few : c.frames.length ≤ 3
  third : ∀ frame, c.frames[2]? = some frame →
    frame.published.matched = true ∧ item.composition.split_bottom ≠ 0

/-- The slots have frames that are newer than what is composed, and a device that did not fail has
frames of its session, and a picture of its last composition. -/
structure Fit (told : List Event) (key : Nat) (item : Device) : Prop where
  slots : ∀ feed frame, item.pending feed = some frame → frame.device_key = key ∧
    frame.published.feed = feed.val ∧ frame.published.matched = true ∧
      frame.order = item.newest feed
  marked : ∀ c, .composed key c ∈ told → ∀ frame ∈ c.frames, ∀ feed : Feed,
    frame.published.feed = feed.val → UpTo frame.order (item.newest feed)
  session : item.status.failed = false → ∀ feed frame, item.pending feed = some frame →
    frame.session_generation = item.status.session_generation
  ahead : item.status.failed = false → ∀ c, .composed key c ∈ told → ∀ frame ∈ c.frames,
    ∀ feed waiting, item.pending feed = some waiting → frame.published.feed = feed.val →
      newer_than waiting.order frame.order = true
  stands : item.status.failed = false → item.status.output = true →
    Stands key (Committed item) told

/-- The patches of a device that did not fail show the picture where a publication did so, and no
call ended it since. -/
def Posted (told : List Event) (key : Nat) (item : Device) : Prop :=
  item.status.failed = false → shows_camera item.queue_snapshot = true →
    Since (ends key) (fun _ e => ∃ handoff, e = .shown key handoff) told

/-- The device has no more than another: no frame, no picture and no patch that is new. -/
structure Follows (item item' : Device) : Prop where
  pending : ∀ feed frame, item'.pending feed = some frame → item.pending feed = some frame
  newest : item'.newest = item.newest
  live : item'.status.failed = false → item.status.failed = false
  session : item'.status.failed = false → ∀ feed frame, item'.pending feed = some frame →
    item'.status.session_generation = item.status.session_generation
  output : item'.status.failed = false → item'.status.output = true →
    item.status.output = true ∧ item'.committed = item.committed ∧
      ((item.committed 2).matched = true → item.composition.split_bottom ≠ 0 →
        item'.composition.split_bottom ≠ 0)
  posted : item'.status.failed = false → shows_camera item'.queue_snapshot = true →
    shows_camera item.queue_snapshot = true

/-- A device that did not fail had the session before. -/
def SameSession (item item' : Device) : Prop :=
  item'.status.failed = false → item.status.failed = false ∧
    item'.status.session_active = item.status.session_active ∧
      item'.status.session_generation = item.status.session_generation

/-- It has no more, and the session that it had. -/
structure Still (item item' : Device) : Prop where
  follows : Follows item item'
  same : SameSession item item'

section
variable {item item' item'' : Device} {told es : List Event} {key : Nat}

theorem Follows.refl (item : Device) : Follows item item :=
  ⟨fun _ _ h => h, rfl, id, fun _ _ _ _ => rfl, fun _ h => ⟨h, rfl, fun _ h => h⟩, fun _ h => h⟩

theorem Follows.trans (h : Follows item item') (h' : Follows item' item'') : Follows item item'' where
  pending feed frame hslot := h.pending feed frame (h'.pending feed frame hslot)
  newest := h'.newest.trans h.newest
  live hlive := h.live (h'.live hlive)
  session hlive feed frame hslot :=
    (h'.session hlive feed frame hslot).trans (h.session (h'.live hlive) feed frame (h'.pending feed frame hslot))
  output hlive hout := by
    obtain ⟨hout', hcommitted', hlayout'⟩ := h'.output hlive hout
    obtain ⟨hout'', hcommitted, hlayout⟩ := h.output (h'.live hlive) hout'
    refine ⟨hout'', hcommitted'.trans hcommitted, fun hthird hsplit => ?_⟩
    exact hlayout' (hcommitted ▸ hthird) (hlayout hthird hsplit)
  posted hlive hshown := h.posted (h'.live hlive) (h'.posted hlive hshown)

/-- A change of the outputs, and of the door page. -/
theorem Follows.of_eq (hpending : item'.pending = item.pending) (hnewest : item'.newest = item.newest)
    (hstatus : item'.status = item.status) (hcommitted : item'.committed = item.committed)
    (hlayout : item'.composition = item.composition)
    (hsnapshot : item'.queue_snapshot = item.queue_snapshot) : Follows item item' where
  pending feed frame hslot := hpending ▸ hslot
  newest := hnewest
  live hlive := hstatus ▸ hlive
  session _ _ _ _ := by rw [hstatus]
  output _ hout := ⟨hstatus ▸ hout, hcommitted, fun _ hsplit => hlayout ▸ hsplit⟩
  posted _ hshown := hsnapshot ▸ hshown

theorem Follows.fail (h : Follows item item') : Follows item item'.fail where
  pending := h.pending
  newest := h.newest
  live hno := by cases hno
  session hno := by cases hno
  output hno := by cases hno
  posted hno := by cases hno

theorem Follows.set_slot (h : Follows item item') (feed : Feed) : Follows item (set_slot item' feed none) where
  pending other frame hslot := by
    change Function.update item'.pending feed none other = some frame at hslot
    by_cases hother : other = feed
    · rw [hother, Function.update_self] at hslot
      cases hslot
    rw [Function.update_of_ne hother] at hslot
    exact h.pending other frame hslot
  newest := h.newest
  live := h.live
  session hlive other frame hslot := by
    change Function.update item'.pending feed none other = some frame at hslot
    by_cases hother : other = feed
    · rw [hother, Function.update_self] at hslot
      cases hslot
    rw [Function.update_of_ne hother] at hslot
    exact h.session hlive other frame hslot
  output := h.output
  posted := h.posted

theorem SameSession.refl (item : Device) : SameSession item item := fun hlive => ⟨hlive, rfl, rfl⟩

theorem SameSession.trans (h : SameSession item item') (h' : SameSession item' item'') :
    SameSession item item'' := by
  intro hlive
  obtain ⟨hlive', hactive', hgeneration'⟩ := h' hlive
  obtain ⟨hbefore, hactive, hgeneration⟩ := h hlive'
  exact ⟨hbefore, hactive'.trans hactive, hgeneration'.trans hgeneration⟩

theorem SameSession.fail (item item' : Device) : SameSession item item'.fail := fun hno => by
  cases hno

theorem Still.refl (item : Device) : Still item item := ⟨.refl item, .refl item⟩

theorem Still.trans (h : Still item item') (h' : Still item' item'') : Still item item'' :=
  ⟨h.follows.trans h'.follows, h.same.trans h'.same⟩

theorem Still.of_eq (hpending : item'.pending = item.pending) (hnewest : item'.newest = item.newest)
    (hstatus : item'.status = item.status) (hcommitted : item'.committed = item.committed)
    (hlayout : item'.composition = item.composition) (hsnapshot : item'.queue_snapshot = item.queue_snapshot) :
    Still item item' :=
  ⟨.of_eq hpending hnewest hstatus hcommitted hlayout hsnapshot, fun hlive => by
    rw [hstatus] at hlive ⊢
    exact ⟨hlive, rfl, rfl⟩⟩

theorem Still.fail (h : Still item item') : Still item item'.fail := ⟨h.follows.fail, .fail item item'⟩

theorem Still.set_slot (h : Still item item') (feed : Feed) : Still item (set_slot item' feed none) :=
  ⟨h.follows.set_slot feed, h.same⟩

theorem Committed.follows {c : Composed} (h : Committed item c) (hcommitted : item'.committed = item.committed)
    (hlayout : (item.committed 2).matched = true → item.composition.split_bottom ≠ 0 →
      item'.composition.split_bottom ≠ 0) : Committed item' c := by
  refine ⟨hcommitted.trans h.published, h.few, fun frame hframe => ?_⟩
  obtain ⟨hmatched, hsplit⟩ := h.third frame hframe
  refine ⟨hmatched, hlayout ?_ hsplit⟩
  have hsame : item.committed 2 = frame.published := by
    rw [h.published]
    change ((c.frames[2]?).map Frame.published).getD {} = _
    rw [hframe]
    rfl
  rw [hsame]
  exact hmatched

/-- What is told of other devices and of no composition leaves a device fit, and so does a change
that takes the picture away. -/
theorem Fit.append (h : Fit told key item) (hfollows : Follows item item') (hes : ∀ e ∈ es, ∀ c, e ≠ .composed key c)
    (hends : (∀ e ∈ es, ends key e = false) ∨ item'.status.output = false) :
    Fit (told ++ es) key item' := by
  have hpast : ∀ c, .composed key c ∈ told ++ es → .composed key c ∈ told := by
    intro c hc
    exact (mem_append.mp hc).resolve_right fun hin => hes _ hin c rfl
  refine ⟨?_, ?_, ?_, ?_, ?_⟩
  · intro feed frame hslot
    rw [hfollows.newest]
    exact h.slots feed frame (hfollows.pending feed frame hslot)
  · intro c hc
    rw [hfollows.newest]
    exact h.marked c (hpast c hc)
  · intro hlive feed frame hslot
    rw [hfollows.session hlive feed frame hslot]
    exact h.session (hfollows.live hlive) feed frame (hfollows.pending feed frame hslot)
  · intro hlive c hc frame hframe feed waiting hslot
    exact h.ahead (hfollows.live hlive) c (hpast c hc) frame hframe feed waiting (hfollows.pending feed waiting hslot)
  · intro hlive hout
    obtain ⟨hout', hcommitted, hlayout⟩ := hfollows.output hlive hout
    obtain ⟨before, x, after, hsplit, ⟨c, hx, hc⟩, hafter⟩ := h.stands (hfollows.live hlive) hout'
    have hstands : Stands key (Committed item') told :=
      ⟨before, x, after, hsplit, ⟨c, hx, hc.follows hcommitted hlayout⟩, hafter⟩
    rcases hends with hends | hno
    · exact hstands.append hends
    rw [hout] at hno
    cases hno

theorem Posted.append (h : Posted told key item) (hfollows : Follows item item')
    (hends : (∀ e ∈ es, ends key e = false) ∨ shows_camera item'.queue_snapshot = false) :
    Posted (told ++ es) key item' := by
  intro hlive hshown
  rcases hends with hends | hno
  · exact (h (hfollows.live hlive) (hfollows.posted hlive hshown)).append hends
  rw [hshown] at hno
  cases hno

end

/-! ## Calls that bring nothing new -/

/-- The call tells of no composition, and leaves the device with no more than it had. -/
structure Onward (key : Nat) (w w' : World) : Prop where
  told : ∃ es, w'.told = w.told ++ es ∧ ∀ e ∈ es, silent e = true
  others : ∀ other, other ≠ key → w'.devices other = w.devices other
  without : w.devices key = none → w'.devices key = none
  follows : ∀ item, w.devices key = some item →
    ∃ item', w'.devices key = some item' ∧ Follows item item'

/-- The device keeps its session too. -/
structure Stays (key : Nat) (w w' : World) : Prop where
  onward : Onward key w w'
  same : ∀ item item', w.devices key = some item → w'.devices key = some item' → SameSession item item'

section
variable {w w' w'' : World} {key : Nat} {item item' : Device}

theorem Onward.of_same (hdevices : w'.devices = w.devices) (htold : w'.told = w.told) : Onward key w w' where
  told := ⟨[], by rw [htold, append_nil], fun _ h => absurd h not_mem_nil⟩
  others _ _ := by rw [hdevices]
  without hnone := by rw [hdevices]; exact hnone
  follows item hitem := ⟨item, by rw [hdevices]; exact hitem, .refl item⟩

theorem Onward.refl (key : Nat) (w : World) : Onward key w w := .of_same rfl rfl

theorem Onward.trans (h : Onward key w w') (h' : Onward key w' w'') : Onward key w w'' where
  told := by
    obtain ⟨es, htold, hes⟩ := h.told
    obtain ⟨es', htold', hes'⟩ := h'.told
    refine ⟨es ++ es', by rw [htold', htold, append_assoc], fun e he => ?_⟩
    exact (mem_append.mp he).elim (hes e) (hes' e)
  others other hother := (h'.others other hother).trans (h.others other hother)
  without hnone := h'.without (h.without hnone)
  follows item hitem := by
    obtain ⟨item', hitem', hfollows⟩ := h.follows item hitem
    obtain ⟨item'', hitem'', hfollows'⟩ := h'.follows item' hitem'
    exact ⟨item'', hitem'', hfollows.trans hfollows'⟩

theorem Onward.put (hitem : w.devices key = some item) (hfollows : Follows item item') :
    Onward key w (w.put key item') where
  told := ⟨[], (append_nil _).symm, fun _ h => absurd h not_mem_nil⟩
  others _ hother := put_other _ _ hother
  without hnone := by rw [hitem] at hnone; cases hnone
  follows other hother := by
    rw [hitem] at hother
    cases hother
    exact ⟨item', put_self .., hfollows⟩

theorem Onward.tell {e : Event} (he : silent e = true) : Onward key w (w.tell e) where
  told := ⟨[e], rfl, fun _ hx => mem_singleton.mp hx ▸ he⟩
  others _ _ := rfl
  without hnone := hnone
  follows item hitem := ⟨item, hitem, .refl item⟩

theorem Onward.discard_frame (natives : Natives) (token : Nat) : Onward key w (w.discard_frame natives token) where
  told := ⟨_, rfl, fun _ hx => mem_singleton.mp hx ▸ rfl⟩
  others _ _ := rfl
  without hnone := hnone
  follows item hitem := ⟨item, hitem, .refl item⟩

theorem Onward.finish_consumption (natives : Natives) (fence value token : Nat) :
    Onward key w (World.finish_consumption natives fence value w token) where
  told := ⟨_, rfl, fun _ hx => mem_singleton.mp hx ▸ rfl⟩
  others _ _ := rfl
  without hnone := hnone
  follows item hitem := ⟨item, hitem, .refl item⟩

/-- The other threads tell nothing here, and leave the devices. -/
theorem meanwhile_same (work : List Outside) :
    (w.meanwhile work).devices = w.devices ∧ (w.meanwhile work).told = w.told := by
  refine invariant (fun (t : World) x (ht : t.devices = w.devices ∧ t.told = w.told) => ?_) work ⟨rfl, rfl⟩
  cases x with
  | manager call =>
    unfold outside
    dsimp only
    split <;> exact ht
  | handoff op => exact ht

theorem Onward.meanwhile (work : List Outside) : Onward key w (w.meanwhile work) :=
  .of_same (meanwhile_same work).1 (meanwhile_same work).2

theorem Stays.of_devices (h : Onward key w w') (hdevices : w'.devices key = w.devices key) : Stays key w w' where
  onward := h
  same item item' hitem hitem' := by
    cases hitem.symm.trans (hdevices.symm.trans hitem')
    exact .refl item

theorem Stays.refl (key : Nat) (w : World) : Stays key w w := .of_devices (.refl key w) rfl

theorem Stays.trans (h : Stays key w w') (h' : Stays key w' w'') : Stays key w w'' where
  onward := h.onward.trans h'.onward
  same item item'' hitem hitem'' := by
    obtain ⟨item', hitem', _⟩ := h.onward.follows item hitem
    exact (h.same item item' hitem hitem').trans (h'.same item' item'' hitem' hitem'')

theorem Stays.put (hitem : w.devices key = some item) (hstill : Still item item') : Stays key w (w.put key item') where
  onward := .put hitem hstill.follows
  same before after hbefore hafter := by
    cases hitem.symm.trans hbefore
    cases (put_self ..).symm.trans hafter
    exact hstill.same

theorem Stays.meanwhile (work : List Outside) : Stays key w (w.meanwhile work) :=
  .of_devices (.meanwhile work) (congrFun (meanwhile_same work).1 key)

theorem Stays.clear_slot (natives : Natives) (feed : Feed) : Stays key w (w.clear_slot natives key feed) := by
  unfold World.clear_slot
  split
  · exact .refl key w
  rename_i item hitem
  split
  · exact .refl key w
  rename_i frame _
  exact (Stays.of_devices (.discard_frame natives frame.token) rfl).trans
    (.put (w := w.discard_frame natives frame.token) hitem ((Still.refl item).set_slot feed))

theorem Stays.discard (natives : Natives) : Stays key w (w.discard natives key) :=
  @invariant _ _ (World.clear_slot natives key) w (Stays key w)
    (fun _ feed h => h.trans (.clear_slot natives feed)) feeds (.refl key w)

theorem Onward.discard (natives : Natives) : Onward key w (w.discard natives key) := (Stays.discard natives).onward

theorem Stays.drop_stale (natives : Natives) (feed : Feed) : Stays key w (w.drop_stale natives key feed) := by
  unfold World.drop_stale
  split
  · exact .refl key w
  split
  · exact .refl key w
  split
  · exact .refl key w
  · exact .clear_slot natives feed

/-! ### Pages -/

theorem calibrate_still (a : Attempt) : Still item (item.calibrate a).1 := by
  have hpage : ∀ o, Still item { item with calibration_output := o } := fun _ => .of_eq rfl rfl rfl rfl rfl rfl
  unfold Device.calibrate
  dsimp only
  split
  · exact .refl item
  split
  · exact (hpage _).fail
  split
  · split
    · exact (hpage _).fail
    · exact hpage _
  split
  · exact (hpage _).fail
  · exact hpage _

theorem waiting_still (item : Device) (o : Output) (available ready : Bool)
    (color prepared : Color) : Still item
      { item with
        waiting_output := o, waiting_available := available, waiting_ready := ready
        waiting_color := color, waiting_prepared_color := prepared } :=
  .of_eq rfl rfl rfl rfl rfl rfl

theorem prepare_waiting_still (color : Color) (a : Attempt) : Still item (item.prepare_waiting color a) := by
  unfold Device.prepare_waiting
  dsimp only
  generalize (if a.accepted then item.waiting_output.prepare [] a.preparing
    else (item.waiting_output, false)) = prepared
  split
  · exact .refl item
  split
  · exact waiting_still item _ _ _ _ color
  · exact waiting_still item _ false false _ _

theorem submit_waiting_still (a : Attempt) : Still item (item.submit_waiting a).1 := by
  unfold Device.submit_waiting
  dsimp only
  split
  · exact .refl item
  split
  · split
    · exact .refl item
    · exact (waiting_still item _ _ _ _ _).fail
  split
  · exact (waiting_still item _ _ _ _ _).fail
  · exact waiting_still item _ _ true _ _

theorem service_waiting_still (catalog : Catalog) (a : Attempt) : Still item (item.service_waiting catalog a).1 := by
  unfold Device.service_waiting
  dsimp only
  split
  · exact (prepare_waiting_still (waiting_text_color catalog item) a).trans (submit_waiting_still a)
  · exact .refl item

theorem service_pages_still (w : World) (t : Turn) : Still item (w.service_pages item t).1 := by
  unfold service_pages
  dsimp only
  generalize hseen : (if (item.status.output && !w.current_output item) = true then
    { item with status := { item.status with output := false } } else item) = seen
  have hstill : Still item seen := by
    subst hseen
    split
    · exact ⟨⟨fun _ _ h => h, rfl, id, fun _ _ _ _ => rfl, nofun, fun _ h => h⟩, fun hlive => ⟨hlive, rfl, rfl⟩⟩
    · exact .refl item
  split
  · exact hstill.fail
  have hcalibrated := hstill.trans (calibrate_still t.calibration)
  split
  · rename_i calibrated heq
    rw [heq] at hcalibrated
    exact hcalibrated
  rename_i calibrated heq
  rw [heq] at hcalibrated
  exact hcalibrated.trans (service_waiting_still t.catalog t.waiting)

/-! ### The door page -/

theorem door_still (item : Device) (o : Output) (available ready : Bool) (committed : SceneCopyMatch)
    (ms : Nat) : Still item
      { item with
        door_output := o, door_available := available, door_ready := ready
        door_committed := committed, door_ms := ms } :=
  .of_eq rfl rfl rfl rfl rfl rfl

theorem Stays.submit_door (hitem : w.devices key = some item) (natives : Natives) (a : Attempt)
    (now : Nat) : Stays key w (w.submit_door natives key item a now).1 := by
  unfold World.submit_door
  dsimp only
  split
  · split
    · exact .put hitem (door_still item _ _ _ _ _)
    · exact .refl key w
  split
  · exact .put hitem (door_still item _ _ _ _ _)
  have hordered : Stays key w
      ((w.put key
          { item with
            door_output := (item.door_output.submit a.signalled).1.established }).tell
        (.ordered (item.door_output.submit a.signalled).1.reads a.submission.fence a.submission.value)) :=
    (put hitem (door_still item _ _ _ _ _)).trans (.of_devices (.tell rfl) rfl)
  split
  · exact hordered
  rename_i frame _
  refine (hordered.trans (.of_devices (.finish_consumption natives a.submission.fence a.submission.value
    frame.token) rfl)).trans (.put (put_self ..) (Still.set_slot ?_ DoorFeed))
  exact door_still _ _ _ true frame.published now

theorem Stays.compose_door (natives : Natives) (a : Attempt) (now : Nat) :
    Stays key w (w.compose_door natives key a now).1 := by
  unfold World.compose_door
  split
  · exact .refl key w
  rename_i item hitem
  dsimp only
  split
  · exact .refl key w
  generalize (if ((item.pending DoorFeed).isSome && !a.accepted) = true then
    (item.door_output, false) else item.door_output.prepare
      ((item.pending DoorFeed).toList.map Frame.token) a.preparing) = prepared
  split
  · exact (put hitem (door_still item prepared.1 false false _ _)).trans (.clear_slot natives DoorFeed)
  have hput : Stays key w (w.put key { item with door_output := prepared.1 }) :=
    .put hitem (door_still item prepared.1 _ _ _ _)
  refine (hput.trans (.meanwhile a.during)).trans (.submit_door ?_ natives a now)
  rw [(meanwhile_same a.during).1, put_self]

theorem Stays.service_door (natives : Natives) (a : Attempt) (now : Nat) :
    Stays key w (w.service_door natives key a now).1 := by
  unfold World.service_door
  split
  · exact .refl key w
  split
  · exact .clear_slot natives DoorFeed
  split
  · exact .refl key w
  · exact (drop_stale natives DoorFeed).trans (.compose_door natives a now)

end

end World

end taxi_camera.scene_runtime
