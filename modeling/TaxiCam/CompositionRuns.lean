-- Every call of the runtime keeps the compositions in order, where no layout
-- without a right wing's feed takes the place of one that composed it.
import TaxiCam.SceneCompositions
import TaxiCam.SnapshotRuns

namespace taxi_camera.scene_runtime

open scene SceneCaptureManager PacketPool histories runs List
open Function (update update_of_ne update_self)

namespace World

/-! ## The invariant -/

/-- Where a device is off, its patches may be of a picture that was replaced. -/
structure Moving (off : Option Nat) (w : World) : Prop where
  forward : Explained Forward w.told
  fit : ∀ key item, w.devices key = some item → Fit w.told key item
  posted : ∀ key item, w.devices key = some item → off ≠ some key → Posted w.told key item
  present : ∀ key c, .composed key c ∈ w.told → (w.devices key).isSome

section
variable {off off' : Option Nat} {w w' : World} {key : Nat} {item item' : Device} {es : List Event}
variable {catalog : Catalog} {c : Composed} {told : List Event}

theorem composed_ends : ends key (.composed key c) = true := beq_self_eq_true key

/-- A step that is about one device. -/
theorem Moving.turn (h : Moving off w) (hoff : off = none ∨ off = some key)
    (htold : w'.told = w.told ++ es) (hforward : Explained Forward (w.told ++ es))
    (hes : ∀ e ∈ es, ∀ other, other ≠ key → ends other e = false)
    (hothers : ∀ other, other ≠ key → w'.devices other = w.devices other)
    (hself : w'.devices key = some item') (hfit : Fit (w.told ++ es) key item')
    (hposted : off' = none ∧ Posted (w.told ++ es) key item' ∨ off' = some key) :
    Moving off' w' := by
  have hapart : ∀ other, other ≠ key → ∀ e ∈ es, ∀ c, e ≠ .composed other c := by
    rintro other hother e he c rfl
    have hends := hes _ he other hother
    rw [composed_ends] at hends
    cases hends
  refine ⟨htold ▸ hforward, ?_, ?_, ?_⟩
  · intro other holder hholder
    rw [htold]
    by_cases hother : other = key
    · subst hother
      rw [hself] at hholder
      cases hholder
      exact hfit
    rw [hothers other hother] at hholder
    exact (h.fit other holder hholder).append (.refl holder) (hapart other hother)
      (.inl fun e he => hes e he other hother)
  · intro other holder hholder hbusy
    rw [htold]
    by_cases hother : other = key
    · subst hother
      rw [hself] at hholder
      cases hholder
      rcases hposted with ⟨-, hposted⟩ | hoff'
      · exact hposted
      · exact absurd hoff' hbusy
    rw [hothers other hother] at hholder
    refine (h.posted other holder hholder ?_).append (.refl holder) (.inl fun e he => hes e he other hother)
    rcases hoff with rfl | rfl
    · simp
    · simpa using Ne.symm hother
  · intro other c hc
    by_cases hother : other = key
    · rw [hother, hself]
      rfl
    rw [hothers other hother]
    rw [htold] at hc
    exact h.present other c ((mem_append.mp hc).resolve_right fun hin => hapart other hother _ hin c rfl)

theorem Moving.of_same (h : Moving off w) (hdevices : w'.devices = w.devices)
    (htold : w'.told = w.told) : Moving off w' where
  forward := htold ▸ h.forward
  fit key item hitem := htold ▸ h.fit key item (hdevices ▸ hitem)
  posted key item hitem hoff := htold ▸ h.posted key item (hdevices ▸ hitem) hoff
  present key c hc := hdevices ▸ h.present key c (htold ▸ hc)

theorem Moving.meanwhile (h : Moving off w) (work : List Outside) : Moving off (w.meanwhile work) :=
  h.of_same (meanwhile_same work).1 (meanwhile_same work).2

theorem Moving.onward (h : Moving none w) (hon : Onward key w w') : Moving none w' := by
  obtain ⟨es, htold, hes⟩ := hon.told
  have hforward : Explained Forward (w.told ++ es) :=
    explained_append h.forward fun e he past => silent_forward (hes e he) past
  have hends : ∀ other, ∀ e ∈ es, ends other e = false := fun other e he =>
    silent_ends (hes e he) other
  cases hitem : w.devices key with
  | none =>
    have hdevices : w'.devices = w.devices := by
      refine funext fun other => ?_
      by_cases hother : other = key
      · rw [hother, hitem]
        exact hon.without hitem
      · exact hon.others other hother
    refine ⟨htold ▸ hforward, ?_, ?_, ?_⟩
    · intro other holder hholder
      rw [hdevices] at hholder
      rw [htold]
      refine (h.fit other holder hholder).append (.refl holder) ?_ (.inl (hends other))
      rintro e he c rfl
      cases hes _ he
    · intro other holder hholder _
      rw [hdevices] at hholder
      rw [htold]
      exact (h.posted other holder hholder (by simp)).append (.refl holder) (.inl (hends other))
    · intro other c hc
      rw [hdevices]
      rw [htold] at hc
      refine h.present other c ((mem_append.mp hc).resolve_right fun hin => ?_)
      cases hes _ hin
  | some item =>
    obtain ⟨item', hself, hfollows⟩ := hon.follows item hitem
    refine h.turn (.inl rfl) htold hforward (fun e he other _ => hends other e he) hon.others hself
      ((h.fit key item hitem).append hfollows ?_ (.inl (hends key)))
      (.inl ⟨rfl, (h.posted key item hitem (by simp)).append hfollows (.inl (hends key))⟩)
    rintro e he c rfl
    cases hes _ he

/-- A step that takes the picture of the device away. -/
theorem Moving.change (h : Moving none w) (hitem : w.devices key = some item)
    (htold : w'.told = w.told ++ es) (hes : ∀ e ∈ es, silent e = true ∨ e = .changed key)
    (hothers : ∀ other, other ≠ key → w'.devices other = w.devices other)
    (hself : w'.devices key = some item') (hfollows : Follows item item')
    (hout : item'.status.output = false) (hshown : shows_camera item'.queue_snapshot = false) :
    Moving none w' := by
  have hforward : Explained Forward (w.told ++ es) := by
    refine explained_append h.forward fun e he past => ?_
    rcases hes e he with hsilent | rfl
    · exact silent_forward hsilent past
    · trivial
  refine h.turn (.inl rfl) htold hforward ?_ hothers hself ((h.fit key item hitem).append hfollows ?_ (.inr hout))
    (.inl ⟨rfl, (h.posted key item hitem (by simp)).append hfollows (.inr hshown)⟩)
  · intro e he other hother
    rcases hes e he with hsilent | rfl
    · exact silent_ends hsilent other
    · exact beq_false_of_ne (Ne.symm hother)
  · rintro e he c rfl
    rcases hes _ he with hsilent | hno
    · cases hsilent
    · cases hno

/-! ## Publications -/

/-- The current picture of a device is its last composition, whose frames are current. -/
theorem Committed.all_current (h : Committed item c)
    (hcurrent : w.current_output item = true) : AllCurrent w.handoff c := by
  have hplace : ∀ feed frame, c.frames[feed.val]? = some frame → item.committed feed = frame.published := by
    intro feed frame hframe
    rw [h.published]
    dsimp only
    rw [hframe]
    rfl
  unfold current_output at hcurrent
  split at hcurrent
  · cases hcurrent
  rename_i hpair
  simp only [Bool.or_eq_true, not_or, Bool.not_eq_true', Bool.not_eq_false] at hpair
  intro frame hframe
  obtain ⟨place, hlt, hget⟩ := getElem_of_mem hframe
  have hsome : c.frames[place]? = some frame := List.getElem?_eq_some_iff.mpr ⟨hlt, hget⟩
  have hfew := h.few
  obtain rfl | rfl | rfl : place = 0 ∨ place = 1 ∨ place = 2 := by omega
  · rw [← hplace 0 frame hsome]
    exact hpair.1.2
  · rw [← hplace 1 frame hsome]
    exact hpair.2
  obtain ⟨-, hsplit⟩ := h.third frame hsome
  split at hcurrent
  · cases hcurrent
  rename_i hthird
  simp only [Bool.and_eq_true, not_and, Bool.not_eq_true', Bool.not_eq_false, bne_iff_ne] at hthird
  rw [← hplace 2 frame hsome]
  exact hthird hsplit

theorem side_page_camera {now : Nat} {waiting door : Bool}
    (h : w.side_page catalog now item waiting door = .camera) : w.current_output item = true := by
  unfold side_page at h
  split at h
  · -- The door page's sides show the door page, the waiting page, or nothing.
    unfold door_side_page at h
    split_ifs at h
  split at h
  · split at h <;> cases h
  split at h
  · assumption
  · cases h

theorem side_source_camera {now side : Nat} {written : Source → Nat → Bool}
    (h : w.side_source catalog now item written side = some (.page .camera)) :
    w.current_output item = true := by
  unfold side_source at h
  dsimp only at h
  split at h
  · split at h <;> cases h
  split at h
  · cases h
  split at h
  · cases h
  split at h
  · rename_i hpage _
    rw [Option.some.injEq, Source.page.injEq] at h
    exact side_page_camera h
  · cases h

/-- Only the current picture of a device that did not fail is published. -/
theorem published_camera {p : Publishing} (h : shows_camera (w.published_patches p item) = true) :
    item.status.failed = false ∧ item.status.output = true ∧ w.current_output item = true := by
  obtain ⟨side, -, hside⟩ := any_eq_true.mp h
  rw [beq_iff_eq] at hside
  unfold published_patches at hside
  dsimp only at hside
  split at hside
  · cases hside
  split at hside
  · cases hside
  rename_i hlive
  simp only [Bool.or_eq_true, not_or, Bool.not_eq_true] at hlive
  refine ⟨hlive.1.1.2, ?_⟩
  have hcurrent : w.current_output item = true := by
    dsimp only at hside
    split at hside
    · exact side_source_camera hside
    · cases hside
  refine ⟨?_, hcurrent⟩
  unfold current_output at hcurrent
  split at hcurrent
  · cases hcurrent
  rename_i hpair
  simp only [Bool.or_eq_true, not_or, Bool.not_eq_true', Bool.not_eq_false] at hpair
  exact hpair.1.1.2

/-- A publication shows what stands, whatever was shown before it. -/
theorem Moving.publish (h : Moving off w) (hoff : off = none ∨ off = some key) (p : Publishing) :
    Moving none (w.publish_queue_patches p key) := by
  unfold publish_queue_patches
  split
  · rename_i hnone
    refine { h with posted := fun other holder hholder _ => h.posted other holder hholder ?_ }
    rcases hoff with rfl | rfl
    · simp
    rintro ⟨⟩
    rw [hnone] at hholder
    cases hholder
  rename_i item hitem
  have hfit := h.fit key item hitem
  -- Only the patches of the device are new.
  have hsame : Fit w.told key { item with queue_snapshot := w.published_patches p item } :=
    ⟨hfit.slots, hfit.marked, hfit.session, hfit.ahead, fun hlive hout => by
      obtain ⟨before, x, after, hsplit, ⟨c, hx, hc⟩, hafter⟩ := hfit.stands hlive hout
      exact ⟨before, x, after, hsplit, ⟨c, hx, hc.follows rfl fun _ h => h⟩, hafter⟩⟩
  dsimp only
  split
  · rename_i hshows
    obtain ⟨hlive, hout, hcurrent⟩ := published_camera hshows
    have hstands : Stands key (AllCurrent w.handoff) w.told := by
      obtain ⟨before, x, after, hsplit, ⟨c, hx, hc⟩, hafter⟩ := hfit.stands hlive hout
      exact ⟨before, x, after, hsplit, ⟨c, hx, hc.all_current hcurrent⟩, hafter⟩
    refine h.turn hoff rfl (explained_snoc h.forward hstands) ?_ (fun _ hother => put_other _ _ hother)
      (put_self ..) (hsame.append (.refl _) ?_ (.inl ?_))
      (.inl ⟨rfl, fun _ _ => Since.now ⟨_, rfl⟩⟩)
    · intro e he other _
      cases mem_singleton.mp he
      rfl
    · rintro e he c rfl
      cases mem_singleton.mp he
    · intro e he
      cases mem_singleton.mp he
      rfl
  rename_i hno
  rw [Bool.not_eq_true] at hno
  refine h.turn hoff (append_nil _).symm (by rw [append_nil]; exact h.forward)
    (fun _ he => absurd he not_mem_nil) (fun _ hother => put_other _ _ hother)
    (put_self ..) (by rw [append_nil]; exact hsame) (.inl ⟨rfl, fun _ hshown => ?_⟩)
  rw [hno] at hshown
  cases hshown

/-! ## Arrivals -/

theorem matched_of_current {handoff : SceneHandoff} {m : SceneCopyMatch}
    (h : handoff.is_current m = true) : m.matched = true := by
  unfold SceneHandoff.is_current at h
  split at h
  · dsimp only at h
    split at h
    · cases h
    rename_i hvalid
    simp only [Bool.or_eq_true, not_or, Bool.not_eq_true', Bool.not_eq_false] at hvalid
    exact hvalid.1.1
  · cases h

/-- A frame that is newer than what came for its feed takes the slot. -/
theorem Fit.place {frame : Frame} {feed : Feed} (h : Fit told frame.device_key item)
    (hfeed : frame.published.feed = feed.val) (hmatched : frame.published.matched = true)
    (hsession : frame.session_generation = item.status.session_generation)
    (hnewer : newer_than frame.order (item.newest feed) = true) :
    Fit told frame.device_key
      { item with
        newest := update item.newest feed frame.order
        pending := update item.pending feed (some frame) } := by
  have hslot : ∀ other waiting, update item.pending feed (some frame) other = some waiting →
      other = feed ∧ waiting = frame ∨ other ≠ feed ∧ item.pending other = some waiting := by
    intro other waiting hwaiting
    by_cases hother : other = feed
    · rw [hother, update_self] at hwaiting
      exact .inl ⟨hother, (Option.some.inj hwaiting).symm⟩
    rw [update_of_ne hother] at hwaiting
    exact .inr ⟨hother, hwaiting⟩
  refine ⟨?_, ?_, ?_, ?_, ?_⟩
  · intro other waiting hwaiting
    rcases hslot other waiting hwaiting with ⟨rfl, rfl⟩ | ⟨hother, hwaiting⟩
    · refine ⟨rfl, hfeed, hmatched, ?_⟩
      dsimp only
      rw [update_self]
    have hbefore := h.slots other waiting hwaiting
    rw [← update_of_ne hother frame.order item.newest] at hbefore
    exact hbefore
  · intro c hc shown hshown other hother
    have hbefore := h.marked c hc shown hshown other hother
    by_cases hsame : other = feed
    · subst hsame
      dsimp only
      rw [update_self]
      exact .inr (hbefore.newer hnewer)
    dsimp only
    rw [update_of_ne hsame]
    exact hbefore
  · intro hlive other waiting hwaiting
    rcases hslot other waiting hwaiting with ⟨rfl, rfl⟩ | ⟨-, hwaiting⟩
    · exact hsession
    · exact h.session hlive other waiting hwaiting
  · intro hlive c hc shown hshown other waiting hwaiting hother
    rcases hslot other waiting hwaiting with ⟨rfl, rfl⟩ | ⟨-, hwaiting⟩
    · exact (h.marked c hc shown hshown other hother).newer hnewer
    · exact h.ahead hlive c hc shown hshown other waiting hwaiting hother
  · intro hlive hout
    obtain ⟨before, x, after, hsplit, ⟨c, hx, hc⟩, hafter⟩ := h.stands hlive hout
    exact ⟨before, x, after, hsplit, ⟨c, hx, hc.follows rfl fun _ h => h⟩, hafter⟩

theorem Moving.arrive (h : Moving none w) (natives : Natives) (frame : Frame) :
    Moving none (w.arrive natives frame) := by
  have hback : Moving none (w.discard_frame natives frame.token) :=
    h.onward (show Onward frame.device_key w _ from .discard_frame natives frame.token)
  unfold World.arrive
  split
  · exact hback
  rename_i item hitem
  split
  · rename_i hfeed
    dsimp only
    split
    · exact hback
    rename_i hright
    simp only [Bool.or_eq_true, not_or, Bool.not_eq_true, bne_eq_false_iff_eq, Bool.not_eq_false'] at hright
    split
    · exact hback
    rename_i hnewer
    rw [Bool.not_eq_true', Bool.not_eq_false] at hnewer
    set feed : Feed := ⟨frame.published.feed, hfeed⟩
    set newer : Device := { item with newest := update item.newest feed frame.order }
    have hcleared : Onward frame.device_key (w.put frame.device_key newer)
        ((w.put frame.device_key newer).clear_slot natives frame.device_key feed) :=
      (Stays.clear_slot natives feed).onward
    obtain ⟨es, htold, hes⟩ := hcleared.told
    have hfit := (h.fit _ item hitem).place (show frame.published.feed = feed.val from rfl)
      (matched_of_current hright.2) hright.1.1.1.2 hnewer
    have hposted : Posted w.told frame.device_key (set_slot newer feed (some frame)) :=
      h.posted _ item hitem (by simp)
    have hends : ∀ e ∈ es, ends frame.device_key e = false := fun e he =>
      silent_ends (hes e he) _
    refine h.turn (.inl rfl) htold ?_ (fun e he other _ => silent_ends (hes e he) other) ?_
      (put_self ..) (hfit.append (.refl _) ?_ (.inl hends))
      (.inl ⟨rfl, hposted.append (.refl _) (.inl hends)⟩)
    · exact explained_append h.forward fun e he past => silent_forward (hes e he) past
    · intro other hother
      rw [put_other _ _ hother, hcleared.others other hother, put_other _ _ hother]
    · rintro e he c rfl
      cases hes _ he
  · exact hback

theorem Moving.poll (h : Moving none w) (found : Polling) : Moving none (w.poll found).1 := by
  have hsilent : ∀ e ∈ (w.pool.poll_completed_frames MaximumPackets found).2.map Event.polled, silent e = true := by
    intro e he
    obtain ⟨frame, -, rfl⟩ := mem_map.mp he
    rfl
  have hon : Onward 0 w (w.poll found).1 :=
    ⟨⟨_, rfl, hsilent⟩, fun _ _ => rfl, fun hnone => hnone, fun item hitem => ⟨item, hitem, .refl item⟩⟩
  exact h.onward hon

theorem Moving.arrivals (s : Service) (frames : List (Frame × Nat)) (h : Moving none w) :
    Moving none (frames.foldl (World.arrivals s) w) :=
  invariant (fun (t : World) turn (ht : Moving none t) =>
    (ht.meanwhile (s.arrivals turn.2)).arrive s.natives turn.1) frames h

/-! ## Compositions -/

/-- The frames that a device chooses are of the feeds of its layout, in their order. -/
theorem Fit.coherent (h : Fit told key item) (hlive : item.status.failed = false)
    {frames : List Frame} (hchosen : frames.map some = (composed_feeds item).map item.pending)
    (hscene : same_scene frames = true) {seen : Feed → SceneHandoff}
    (hseen : ∀ feed frame, item.pending feed = some frame → (seen feed).is_current frame.published = true) :
    Coherent key { frames, generation := item.status.session_generation, seen } ∧
      ∀ frame ∈ frames, ∃ feed ∈ composed_feeds item, item.pending feed = some frame := by
  have hslots : ∀ frame ∈ frames, ∃ feed ∈ composed_feeds item, item.pending feed = some frame := by
    intro frame hframe
    have hsome : some frame ∈ frames.map some := mem_map_of_mem hframe
    rw [hchosen] at hsome
    exact mem_map.mp hsome
  refine ⟨⟨?_, ?_, ?_, ?_, ?_⟩, hslots⟩
  · have hplaces : ∀ (places : List Feed) (frames : List Frame),
        frames.map some = places.map item.pending →
          frames.map (fun frame => frame.published.feed) = places.map Fin.val := by
      intro places
      induction places with
      | nil =>
        intro frames hframes
        rw [map_eq_nil_iff.mp hframes]
        rfl
      | cons feed rest ih =>
        intro frames hframes
        cases frames with
        | nil => cases hframes
        | cons frame frames =>
          obtain ⟨hslot, hrest⟩ := List.cons.inj hframes
          rw [map_cons, map_cons, ih frames hrest, (h.slots feed frame hslot.symm).2.1]
    have hfeeds := hplaces _ _ hchosen
    unfold composed_feeds at hfeeds
    split at hfeeds
    · exact .inl hfeeds
    · exact .inr hfeeds
  · intro frame hframe
    obtain ⟨feed, -, hslot⟩ := hslots frame hframe
    exact (h.slots feed frame hslot).1
  · cases frames with
    | nil => exact fun frame hframe => absurd hframe not_mem_nil
    | cons first rest =>
      have hfirst : ∀ frame ∈ first :: rest,
          frame.published.scene_epoch = first.published.scene_epoch ∧
            frame.published.manager = first.published.manager := by
        intro frame hframe
        rcases mem_cons.mp hframe with rfl | hrest
        · exact ⟨rfl, rfl⟩
        · simpa using all_eq_true.mp hscene frame hrest
      intro frame hframe other hother
      exact ⟨(hfirst frame hframe).1.trans (hfirst other hother).1.symm,
        (hfirst frame hframe).2.trans (hfirst other hother).2.symm⟩
  · intro frame hframe
    obtain ⟨feed, -, hslot⟩ := hslots frame hframe
    exact h.session hlive feed frame hslot
  · intro frame hframe
    obtain ⟨feed, -, hslot⟩ := hslots frame hframe
    exact ⟨feed, (h.slots feed frame hslot).2.1, hseen feed frame hslot⟩

/-- What a device composed is not newer than what came for its feeds. -/
theorem Fit.mark {es : List Event} (h : Fit told key item)
    (hslots : ∀ frame ∈ c.frames, ∃ feed ∈ composed_feeds item, item.pending feed = some frame)
    (hes : ∀ e ∈ es, silent e = true) {other : Composed}
    (hother : .composed key other ∈ told ++ (.composed key c :: es)) :
    (.composed key other ∈ told ∨ other = c) ∧ ∀ frame ∈ other.frames, ∀ feed : Feed,
      frame.published.feed = feed.val → UpTo frame.order (item.newest feed) := by
  have hpast : .composed key other ∈ told ∨ other = c := by
    rcases mem_append.mp hother with hbefore | hlater
    · exact .inl hbefore
    rcases mem_cons.mp hlater with hsame | hin
    · cases hsame
      exact .inr rfl
    · cases hes _ hin
  refine ⟨hpast, fun frame hframe feed hfeed => ?_⟩
  rcases hpast with hbefore | rfl
  · exact h.marked other hbefore frame hframe feed hfeed
  obtain ⟨place, -, hplace⟩ := hslots frame hframe
  obtain ⟨-, hval, -, horder⟩ := h.slots place frame hplace
  have hsame : feed = place := Fin.ext (hfeed.symm.trans hval)
  rw [hsame]
  exact .inl horder

/-- A device that fails with its submission is fit. -/
theorem Fit.broken (h : Fit told key item)
    (hslots : ∀ frame ∈ c.frames, ∃ feed ∈ composed_feeds item, item.pending feed = some frame)
    (hpending : item'.pending = item.pending) (hnewest : item'.newest = item.newest) :
    Fit (told ++ [.composed key c]) key item'.fail := by
  refine ⟨?_, ?_, nofun, nofun, nofun⟩
  · change ∀ feed frame, item'.pending feed = some frame → _ ∧ _ ∧ _ ∧ _ = item'.newest feed
    rw [hpending, hnewest]
    exact h.slots
  · intro other hother frame hframe feed hfeed
    change UpTo frame.order (item'.newest feed)
    rw [hnewest]
    exact (h.mark hslots (fun _ he => absurd he not_mem_nil) hother).2 frame hframe feed hfeed

/-- A device that commits what it chose is fit. -/
theorem Fit.commit (h : Fit told key item) (hlive : item.status.failed = false) (hchosen : c.frames.map some = (composed_feeds item).map item.pending)
    (hslots : ∀ frame ∈ c.frames, ∃ feed ∈ composed_feeds item, item.pending feed = some frame)
    (now : Nat) {es : List Event} (hes : ∀ e ∈ es, silent e = true) :
    Fit (told ++ (.composed key c :: es)) key (World.commit item c.frames now) := by
  have hslot : ∀ feed frame, (World.commit item c.frames now).pending feed = some frame →
      feed ∉ composed_feeds item ∧ item.pending feed = some frame := by
    intro feed frame hframe
    change (if feed ∈ composed_feeds item then none else item.pending feed) = some frame at hframe
    split at hframe
    · cases hframe
    rename_i hout
    exact ⟨hout, hframe⟩
  refine ⟨?_, ?_, ?_, ?_, ?_⟩
  · intro feed frame hframe
    exact h.slots feed frame (hslot feed frame hframe).2
  · intro other hother
    exact (h.mark hslots hes hother).2
  · intro _ feed frame hframe
    exact h.session hlive feed frame (hslot feed frame hframe).2
  · intro _ other hother frame hframe feed waiting hwaiting hfeed
    obtain ⟨hout, hwaiting⟩ := hslot feed waiting hwaiting
    rcases (h.mark hslots hes hother).1 with hbefore | rfl
    · exact h.ahead hlive other hbefore frame hframe feed waiting hwaiting hfeed
    obtain ⟨place, hin, hplace⟩ := hslots frame hframe
    have hsame : feed = place := Fin.ext (hfeed.symm.trans (h.slots place frame hplace).2.1)
    rw [hsame] at hout
    exact absurd hin hout
  · intro _ _
    refine ⟨told, .composed key c, es, rfl, ⟨c, rfl, rfl, ?_, ?_⟩, fun e he =>
      silent_ends (hes e he) key⟩
    · have hlength := congrArg List.length hchosen
      rw [length_map, length_map] at hlength
      rw [hlength]
      unfold composed_feeds
      split <;> simp
    · intro frame hframe
      have hmem : frame ∈ c.frames := mem_of_getElem? hframe
      obtain ⟨place, -, hplace⟩ := hslots frame hmem
      refine ⟨(h.slots place frame hplace).2.2.1, fun hnone => ?_⟩
      change item.composition.split_bottom = 0 at hnone
      have hlength := congrArg List.length hchosen
      rw [length_map, length_map, composed_feeds, if_pos hnone] at hlength
      have hlt := (List.getElem?_eq_some_iff.mp hframe).1
      rw [hlength] at hlt
      exact absurd hlt (by simp)

theorem Moving.submit_output (h : Moving none w) (hitem : w.devices key = some item)
    (hlive : item.status.failed = false)
    (hgeneration : c.generation = item.status.session_generation)
    (hchosen : c.frames.map some = (composed_feeds item).map item.pending)
    (hscene : same_scene c.frames = true)
    (hseen : ∀ feed frame, item.pending feed = some frame → (c.seen feed).is_current frame.published = true)
    (natives : Natives) (a : Attempt) (p : Publishing) (now : Nat) :
    Moving none (w.submit_output natives key item c a p now) := by
  have hfit := h.fit key item hitem
  obtain ⟨hcoherent, hslots⟩ := hfit.coherent hlive hchosen hscene hseen
  rw [← hgeneration] at hcoherent
  have hpage : ∀ o, Follows item { item with output := o } := fun _ => .of_eq rfl rfl rfl rfl rfl rfl
  have hforward : Explained Forward (w.told ++ [.composed key c]) := by
    refine explained_snoc h.forward ⟨hcoherent, fun earlier hearlier frame hframe other hother hfeed => ?_⟩
    obtain ⟨feed, -, hslot⟩ := hslots frame hframe
    exact hfit.ahead hlive earlier hearlier other hother feed frame hslot
      (hfeed.trans (hfit.slots feed frame hslot).2.1)
  have hown : ∀ other, other ≠ key → ends other (.composed key c) = false := fun other hother =>
    beq_false_of_ne (Ne.symm hother)
  unfold World.submit_output
  dsimp only
  split
  · have hfailed : Onward key w
        (w.put key (Device.fail { item with output := (item.output.discard_prepared a.discarding).1 })) :=
      .put hitem (hpage _).fail
    split
    · exact h.onward (.put hitem (hpage _))
    split
    · exact h.onward (hfailed.trans (.discard natives))
    · exact h.onward hfailed
  split
  · refine h.turn (.inl rfl) rfl hforward ?_ (fun other hother => put_other _ _ hother)
      (put_self ..) (hfit.broken hslots rfl rfl) (.inl ⟨rfl, nofun⟩)
    intro e he other hother
    cases mem_singleton.mp he
    exact hown other hother
  set submitted := (item.output.submit a.signalled).1
  set ordered := ((w.tell (.composed key c)).put key
    { item with output := submitted.established }).tell
      (.ordered submitted.reads a.submission.fence a.submission.value)
  have hconsumed : Onward key ordered ((c.frames.map Frame.token).foldl
      (finish_consumption natives a.submission.fence a.submission.value) ordered) :=
    @invariant _ _ (finish_consumption natives a.submission.fence a.submission.value)
      ordered (Onward key ordered) (fun _ token h => h.trans (.finish_consumption natives _ _ token))
      _ (.refl key ordered)
  obtain ⟨es, htold, hes⟩ := hconsumed.told
  have hlater : ∀ e ∈ Event.ordered submitted.reads a.submission.fence a.submission.value :: es, silent e = true := by
    intro e he
    rcases mem_cons.mp he with rfl | hin
    · rfl
    · exact hes e hin
  have hpaged : Fit w.told key { item with output := submitted } := by
    have happend : Fit (w.told ++ []) key { item with output := submitted } :=
      hfit.append (hpage submitted) (fun _ he => absurd he not_mem_nil) (.inl fun _ he => absurd he not_mem_nil)
    rwa [append_nil] at happend
  have hall : ((c.frames.map Frame.token).foldl
      (finish_consumption natives a.submission.fence a.submission.value) ordered).told =
        w.told ++ (.composed key c :: .ordered submitted.reads a.submission.fence a.submission.value :: es) := by
    rw [htold]
    simp [ordered, tell, put]
  have hnext : Moving (some key) (((c.frames.map Frame.token).foldl
      (finish_consumption natives a.submission.fence a.submission.value) ordered).put key
        (commit { item with output := submitted } c.frames now)) := by
    refine h.turn (.inl rfl) hall ?_ ?_ ?_ (put_self ..) (hpaged.commit hlive hchosen hslots now hlater) (.inr rfl)
    · rw [append_cons]
      exact explained_append hforward fun e he past => silent_forward (hlater e he) past
    · intro e he other hother
      rcases mem_cons.mp he with rfl | hin
      · exact hown other hother
      · exact silent_ends (hlater e hin) other
    · intro other hother
      rw [put_other _ _ hother, hconsumed.others other hother]
      exact put_other _ _ hother
  exact (hnext.meanwhile a.after).publish (.inr rfl) p

end

end World

end taxi_camera.scene_runtime
