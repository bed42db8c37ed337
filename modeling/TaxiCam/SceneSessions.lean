-- The session of a device over the calls of the runtime: only a reset and a
-- resumption change it, and a device that failed stays failed.
import TaxiCam.SceneCompositions

namespace taxi_camera.scene_runtime

open scene SceneCaptureManager PacketPool runs

namespace World

/-- The devices stay, their sessions too, and a new device is active. -/
structure Carries (w w' : World) : Prop where
  stays : ∀ key, (w.devices key).isSome → (w'.devices key).isSome
  session : ∀ key item', w'.devices key = some item' →
    (∃ item, w.devices key = some item ∧ SameSession item item') ∨
      w.devices key = none ∧ (item'.status.failed = false → item'.status.session_active = true)

section
variable {w w' w'' : World} {key : Nat} {item item' item'' : Device}

theorem Carries.of_same (hdevices : w'.devices = w.devices) : Carries w w' where
  stays key hsome := by rw [hdevices]; exact hsome
  session key item hitem := .inl ⟨item, by rw [← hdevices]; exact hitem, .refl item⟩

theorem Carries.refl (w : World) : Carries w w := .of_same rfl

theorem Carries.trans (h : Carries w w') (h' : Carries w' w'') : Carries w w'' where
  stays key hsome := h'.stays key (h.stays key hsome)
  session key item'' hitem'' := by
    rcases h'.session key item'' hitem'' with ⟨item', hitem', hsame'⟩ | ⟨hnone', hactive'⟩
    · rcases h.session key item' hitem' with ⟨item, hitem, hsame⟩ | ⟨hnone, hactive⟩
      · exact .inl ⟨item, hitem, hsame.trans hsame'⟩
      refine .inr ⟨hnone, fun hlive => ?_⟩
      obtain ⟨hlive', hsame, -⟩ := hsame' hlive
      exact hsame.trans (hactive hlive')
    refine .inr ⟨?_, hactive'⟩
    by_contra hsome
    have hstays := h.stays key (Option.ne_none_iff_isSome.mp hsome)
    rw [hnone'] at hstays
    cases hstays

/-- A device is put over what others made of it. -/
theorem Carries.set (h : Carries w w') (hitem : w.devices key = some item)
    (hsame : SameSession item item') : Carries w (w'.put key item') where
  stays other hsome := by
    by_cases hother : other = key
    · rw [hother, put_self]
      rfl
    rw [put_other _ _ hother]
    exact h.stays other hsome
  session other rival hrival := by
    by_cases hother : other = key
    · subst hother
      rw [put_self] at hrival
      cases hrival
      exact .inl ⟨item, hitem, hsame⟩
    rw [put_other _ _ hother] at hrival
    exact h.session other rival hrival

theorem Carries.put (hitem : w.devices key = some item) (hsame : SameSession item item') :
    Carries w (w.put key item') := (Carries.refl w).set hitem hsame

theorem Carries.of_stays (h : Stays key w w') : Carries w w' where
  stays other hsome := by
    by_cases hother : other = key
    · subst hother
      obtain ⟨item, hitem⟩ := Option.isSome_iff_exists.mp hsome
      obtain ⟨item', hitem', _⟩ := h.onward.follows item hitem
      exact Option.isSome_of_eq_some hitem'
    rw [h.onward.others other hother]
    exact hsome
  session other item' hitem' := by
    by_cases hother : other = key
    · subst hother
      cases hitem : w.devices other with
      | none =>
        rw [h.onward.without hitem] at hitem'
        cases hitem'
      | some item => exact .inl ⟨item, rfl, h.same item item' hitem hitem'⟩
    · exact .inl ⟨item', (h.onward.others other hother).symm.trans hitem', .refl item'⟩

theorem Carries.then_same (h : Carries w w') (hdevices : w''.devices = w'.devices) :
    Carries w w'' := h.trans (.of_same hdevices)

theorem Carries.fold {α : Type} {f : World → α → World} (hf : ∀ t a, Carries t (f t a)) (l : List α) :
    Carries w (l.foldl f w) :=
  @invariant _ _ f w (Carries w) (fun t a h => h.trans (hf t a)) l (.refl w)

theorem Carries.meanwhile (work : List Outside) : Carries w (w.meanwhile work) := .of_same (meanwhile_same work).1

theorem Carries.discard (natives : Natives) (key : Nat) : Carries w (w.discard natives key) :=
  .of_stays (Stays.discard natives)

theorem Carries.publish (p : Publishing) (key : Nat) : Carries w (w.publish_queue_patches p key) := by
  unfold publish_queue_patches
  split
  · exact .refl w
  rename_i item hitem
  have hput : Carries w (w.put key { item with queue_snapshot := w.published_patches p item }) :=
    .put hitem (.refl item)
  dsimp only
  split
  · exact hput.trans (.of_same rfl)
  · exact hput

/-! ## A turn -/

theorem Carries.submit_output (h : Carries w w') (hitem : w.devices key = some item)
    (hsame : SameSession item item') (natives : Natives) (c : Composed) (a : Attempt) (p : Publishing)
    (now : Nat) : Carries w (w'.submit_output natives key item' c a p now) := by
  have hput : ∀ (t : World) (o : Output), Carries w t →
      Carries w (t.put key { item' with output := o }) ∧
        Carries w (t.put key (Device.fail { item' with output := o })) := fun _ _ ht =>
    ⟨ht.set hitem hsame, ht.set hitem (.fail item _)⟩
  unfold World.submit_output
  dsimp only
  split
  · split
    · exact (hput w' _ h).1
    split
    · exact (hput w' _ h).2.trans (.discard natives key)
    · exact (hput w' _ h).2
  have htold : Carries w (w'.tell (.composed key c)) := h.then_same rfl
  split
  · exact (hput _ _ htold).2
  set ordered := ((w'.tell (.composed key c)).put key
    { item' with output := (item'.output.submit a.signalled).1.established }).tell
      (.ordered (item'.output.submit a.signalled).1.reads a.submission.fence a.submission.value)
  have hordered : Carries w ordered := (hput _ _ htold).1.then_same rfl
  have hone : ∀ t token, Carries t (finish_consumption natives a.submission.fence
      a.submission.value t token) := fun _ _ => .of_same rfl
  have hconsumed : Carries w ((c.frames.map Frame.token).foldl
      (finish_consumption natives a.submission.fence a.submission.value) ordered) :=
    hordered.trans (.fold hone _)
  have hcommitted : SameSession item
      (commit { item' with output := (item'.output.submit a.signalled).1 } c.frames now) := hsame
  exact ((hconsumed.set hitem hcommitted).trans (.meanwhile a.after)).trans (.publish p key)

theorem Carries.compose (natives : Natives) (key : Nat) (seen : Feed → SceneHandoff) (a : Attempt)
    (p : Publishing) (now : Nat) : Carries w (w.compose natives key seen a p now) := by
  unfold World.compose
  split
  · exact .refl w
  rename_i item hitem
  split
  · exact .refl w
  split
  · exact .discard natives key
  split
  · exact .put hitem (.fail item item)
  dsimp only
  split
  · exact .put hitem (.fail item _)
  rename_i frames _ _ _ _
  have hput : Carries w (w.put key
      { item with
        output := (item.output.prepare (frames.map Frame.token) a.preparing).1 }) :=
    .put hitem (.refl item)
  refine (hput.trans (.meanwhile a.during)).submit_output hitem ?_ natives _ a p now
  exact fun hlive => ⟨hlive, rfl, rfl⟩

theorem Carries.service_images (key : Nat) (t : Turn) : Carries w (w.service_images key t) := by
  unfold World.service_images
  split
  · exact .refl w
  rename_i item hitem
  dsimp only
  have hdoor : Carries w (if item.status.initialized then
      w.service_door t.natives key t.door t.now else (w, true)).1 := by
    split
    · exact .of_stays (Stays.service_door t.natives t.door t.now)
    · exact .refl w
  generalize (if item.status.initialized then
    w.service_door t.natives key t.door t.now else (w, true)) = door at hdoor ⊢
  split
  · split
    · exact hdoor
    rename_i held hheld
    exact hdoor.trans (.put hheld (.fail held held))
  refine ((hdoor.trans (.meanwhile t.door.after)).trans (.publish t.republishing key)).trans ?_
  generalize (door.1.meanwhile t.door.after).publish_queue_patches t.republishing key = w
  unfold service_output
  split
  · exact .refl w
  split
  · exact .refl w
  have hlooked : Carries w (feeds.foldl (look t.natives key t.looks) (w, fun _ => {})).1 :=
    @invariant _ _ (look t.natives key t.looks) (w, fun _ => {}) (fun f => Carries w f.1)
      (fun _ feed h => (h.trans (.meanwhile (t.looks feed))).trans
        (.of_stays (Stays.drop_stale t.natives feed))) feeds (.refl w)
  exact hlooked.trans (.compose ..)

theorem Carries.service_device (key : Nat) (t : Turn) : Carries w (w.service_device key t) := by
  have hstart : Carries w (w.meanwhile t.starts) := .meanwhile t.starts
  unfold World.service_device
  dsimp only
  split
  · exact hstart
  rename_i item hitem
  split
  · exact hstart.trans (.put hitem (.refl item))
  have hpages : SameSession item _ := (@service_pages_still { item with queue_snapshot := {} } (w.meanwhile t.starts) t).same
  split
  · rename_i shown heq
    rw [heq] at hpages
    exact hstart.trans (.put hitem hpages)
  rename_i shown heq
  rw [heq] at hpages
  exact ((hstart.trans (.put hitem hpages)).trans (.publish t.publishing key)).trans (.service_images key t)

theorem Carries.arrive (natives : Natives) (frame : Frame) : Carries w (w.arrive natives frame) := by
  have hback : Carries w (w.discard_frame natives frame.token) := .of_same rfl
  unfold World.arrive
  split
  · exact hback
  rename_i item hitem
  split
  · dsimp only
    split
    · exact hback
    split
    · exact hback
    have hput : ∀ newest, Carries w (w.put frame.device_key { item with newest }) := fun _ =>
      .put hitem (.refl item)
    exact ((hput _).trans (.of_stays (Stays.clear_slot natives _))).set hitem (.refl item)
  · exact hback

theorem Carries.service (s : Service) : Carries w (w.service s) := by
  have hpolled : Carries w (w.poll s.polling).1 := .of_same rfl
  refine (hpolled.trans (.fold (fun t turn => ?_) _)).trans (.fold (fun t key => ?_) _)
  · exact (meanwhile (s.arrivals turn.2)).trans (.arrive s.natives turn.1)
  · exact .service_device key (s.turns key)

/-! ## The other calls -/

/-- A call that neither resets nor resumes a session. -/
def keeps_sessions : Op → Bool
  | .reset_session .. | .resume_session .. => false
  | _ => true

theorem Carries.init_device (key native timeline : Nat) (room : Bool) :
    Carries w (w.init_device key native timeline room) := by
  unfold World.init_device
  split
  · exact .refl w
  rename_i hnew
  simp only [not_or, Bool.not_eq_true, Option.isSome_eq_false_iff, Option.isNone_iff_eq_none] at hnew
  dsimp only
  split
  · exact .of_same rfl
  refine ⟨fun other hsome => ?_, fun other rival hrival => ?_⟩
  · by_cases hother : other = key
    · rw [hother, hnew.2.2.1] at hsome
      cases hsome
    · exact (congrArg Option.isSome (put_other w {} hother)).trans hsome
  · by_cases hother : other = key
    · subst hother
      cases (put_self w other {}).symm.trans hrival
      exact .inr ⟨hnew.2.2.1, fun _ => rfl⟩
    · exact .inl ⟨rival, (put_other w {} hother).symm.trans hrival, .refl rival⟩

theorem Carries.destroy_device (natives : Natives) (key : Nat) : Carries w (w.destroy_device natives key) := by
  have hdiscarded : Carries w (w.discard natives key) := .discard natives key
  unfold World.destroy_device
  dsimp only
  split
  · exact hdiscarded.then_same rfl
  rename_i item hitem
  have hput : Carries w ((w.discard natives key).put key
      { item with
        status := { item.status with failed := true, session_active := false, output := false }
        queue_snapshot := {} }) :=
    hdiscarded.trans (.put hitem nofun)
  exact hput.then_same rfl

theorem Carries.reset_feed (natives : Natives) (key : Nat) : Carries w (w.reset_feed natives key) := by
  unfold World.reset_feed
  split
  · exact .refl w
  split
  · exact .refl w
  have htold : Carries w ((w.discard natives key).tell (.changed key)) := (discard natives key).then_same rfl
  dsimp only
  split
  · exact htold
  rename_i left hleft
  exact htold.trans (.put hleft fun hlive => ⟨hlive, rfl, rfl⟩)

theorem Carries.set_patch_profile (key profile : Nat) (catalog : Catalog) (waiting door : Discarding) :
    Carries w (w.set_patch_profile key profile catalog waiting door) := by
  unfold World.set_patch_profile
  split
  · rename_i layout item _ hitem
    split
    · exact .refl w
    dsimp only
    split
    · have htold : Carries w (w.tell (.changed key)) := .of_same rfl
      exact htold.set hitem fun hlive => ⟨hlive, rfl, rfl⟩
    · exact .put hitem fun hlive => ⟨hlive, rfl, rfl⟩
  · exact .refl w

theorem Carries.step (op : Op) (hop : keeps_sessions op = true) : Carries w (w.step op) := by
  have hsame : ∀ {key : Nat} {item item' : Device}, w.devices key = some item →
      item'.status = item.status → Carries w (w.put key item') :=
    fun hitem hstatus => .put hitem fun hlive => by rw [hstatus] at hlive ⊢; exact ⟨hlive, rfl, rfl⟩
  cases op with
  | reset_session natives key | resume_session key generation => cases hop
  | outside work => exact .meanwhile work
  | init_device key native timeline room => exact .init_device key native timeline room
  | destroy_device natives key => exact .destroy_device natives key
  | set_patch_profile key profile catalog waiting door =>
    exact .set_patch_profile key profile catalog waiting door
  | set_waiting_stale_ms ms => exact .of_same rfl
  | reset_feed natives key => exact .reset_feed natives key
  | service s => exact .service s
  | refuse_queue key =>
    change Carries w (w.refuse_queue key)
    unfold refuse_queue
    split
    · exact .refl w
    rename_i item hitem
    exact .put hitem (.fail item item)
  | prepare key p =>
    change Carries w (w.prepare key p)
    unfold prepare
    split
    · exact .refl w
    rename_i item hitem
    split
    · exact .refl w
    split
    · exact .put hitem nofun
    split
    · exact .refl w
    split
    · exact .put hitem (.fail item _)
    · exact .put hitem fun hlive => ⟨hlive, rfl, rfl⟩
  | configure_queue_patches key config catalog =>
    change Carries w (w.configure_queue_patches key config catalog)
    unfold configure_queue_patches
    split
    · exact .refl w
    rename_i item hitem
    split
    · exact .refl w
    split
    · exact hsame hitem rfl
    · exact .refl w
  | set_composition key layout accepted =>
    change Carries w (w.set_composition key layout accepted)
    unfold set_composition
    split
    · exact .refl w
    rename_i item hitem
    dsimp only
    split <;> exact hsame hitem rfl
  | set_door key enabled live =>
    change Carries w (w.set_door key enabled live)
    unfold set_door
    split
    · exact .refl w
    rename_i item hitem
    split <;> exact hsame hitem rfl

/-! ## Resets and resumptions -/

theorem discard_status (natives : Natives) (hitem : w.devices key = some item) :
    ∃ left, (w.discard natives key).devices key = some left ∧ left.status = item.status := by
  refine @invariant _ _ (clear_slot natives key) w
    (fun t => ∃ left, t.devices key = some left ∧ left.status = item.status)
    (fun t feed h => ?_) feeds ⟨item, hitem, rfl⟩
  obtain ⟨left, hleft, hstatus⟩ := h
  unfold clear_slot
  rw [hleft]
  dsimp only
  split
  · exact ⟨left, hleft, hstatus⟩
  · exact ⟨_, put_self .., hstatus⟩

/-- A reset gives the device the generation that it answers, or none and leaves its own. -/
theorem reset_session_device (natives : Natives) (key : Nat) (w : World) :
    (w.devices key = none ∧ w.reset_session natives key = (w, 0)) ∨
      ∃ item item', w.devices key = some item ∧
        (w.reset_session natives key).1.devices key = some item' ∧
          item'.status.failed = item.status.failed ∧ item'.status.session_active = false ∧
            item'.status.session_generation =
              if (w.reset_session natives key).2 = 0 then item.status.session_generation
              else (w.reset_session natives key).2 := by
  unfold reset_session
  split
  · rename_i hnone
    exact .inl ⟨hnone, rfl⟩
  rename_i item hitem
  refine .inr ?_
  dsimp only
  split
  · exact ⟨item, _, hitem, put_self .., rfl, rfl, rfl⟩
  split
  · exact ⟨item, _, hitem, put_self .., rfl, rfl, rfl⟩
  set shown : Device :=
    { drop_pictures item with
      queue_config := {}
      status :=
        { (drop_pictures item).status with
          session_active := false, session_generation := reset_generation w.pool key } }
  obtain ⟨left, hleft, hstatus⟩ := discard_status natives (put_self
    (tell { w with pool := w.pool.reset_session key } (.changed key)) key shown)
  have hshown : left.status.failed = shown.status.failed ∧
      left.status.session_active = shown.status.session_active ∧
        left.status.session_generation = shown.status.session_generation := by
    rw [hstatus]
    exact ⟨rfl, rfl, rfl⟩
  exact ⟨item, left, hitem, hleft, hshown⟩

variable {generation : Nat}

/-- A resumption that succeeds finds the generation it is for. -/
theorem resume_session_device (h : (w.resume_session key generation).2 = true) :
    ∃ item item', w.devices key = some item ∧
      (w.resume_session key generation).1.devices key = some item' ∧
        item'.status.failed = item.status.failed ∧ item'.status.session_active = true ∧
          item'.status.session_generation = item.status.session_generation ∧
            item.status.session_generation = generation := by
  unfold resume_session at h ⊢
  split at h
  · cases h
  rename_i item hitem
  split at h
  · cases h
  rename_i hready
  simp only [Bool.or_eq_true, not_or, Bool.not_eq_true, bne_eq_false_iff_eq] at hready
  split at h
  · cases h
  rename_i hresumable
  rw [if_neg (by simp [hready]), if_neg hresumable]
  exact ⟨item, _, hitem, put_self .., rfl, rfl, rfl, hready.2⟩

/-- One that is refused changes nothing. -/
theorem resume_session_refused (h : (w.resume_session key generation).2 = false) :
    (w.resume_session key generation).1 = w := by
  unfold resume_session at h ⊢
  split
  · rfl
  rename_i item hitem
  split
  · rfl
  split
  · rfl
  rename_i hready hresumable
  rw [hitem] at h
  dsimp only at h
  rw [if_neg hready, if_neg hresumable] at h
  cases h

end

end World

end taxi_camera.scene_runtime
