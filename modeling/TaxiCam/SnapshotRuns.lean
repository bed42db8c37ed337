-- Every call of the runtime keeps the accounts of the snapshots, where no device
-- is destroyed under an open recording and no recording of a door page is torn.
import TaxiCam.SnapshotLeases

namespace taxi_camera.scene_runtime

open scene SceneCaptureManager PacketPool histories runs List

namespace World

/-! ## The service -/

section
variable {busy : Option Nat} {w : World} {incoming : List Frame} {key : Nat} {item item' : Device}

theorem Good.calm_of_live (h : Good none w incoming) (hitem : w.devices key = some item)
    (hlive : item.status.failed = false) : w.Calm key := by
  intro other hother
  rw [hitem] at hother
  cases hother
  exact h.calm key item hitem (by simp) hlive

theorem Good.service_output (h : Good none w incoming) (key : Nat) (t : Turn) :
    Good none (w.service_output key t) incoming := by
  unfold World.service_output
  split
  · exact h
  rename_i item hitem
  split
  · exact h
  rename_i hready
  simp only [Bool.or_eq_true, not_or, Bool.not_eq_true] at hready
  have hfound := h.look (h.calm_of_live hitem hready.1.1.2) t.natives t.looks fun _ => {}
  exact hfound.1.compose hfound.2 t.natives _ t.output t.concluding t.now

theorem Good.service_images (h : Good none w incoming) (hcalm : w.Calm key) (t : Turn)
    (huntorn : t.door.preparing ≠ .torn) : Good none (w.service_images key t) incoming := by
  unfold World.service_images
  split
  · exact h
  rename_i item hitem
  dsimp only
  have hdoor : Good (some key) (if item.status.initialized then
      w.service_door t.natives key t.door t.now else (w, true)).1 incoming ∧
      ((if item.status.initialized then
        w.service_door t.natives key t.door t.now else (w, true)).2 = true →
        Good none (if item.status.initialized then
          w.service_door t.natives key t.door t.now else (w, true)).1 incoming) := by
    split
    · exact h.service_door hcalm t.natives t.door t.now huntorn
    · exact ⟨h.weaken _, fun _ => h⟩
  generalize (if item.status.initialized then
    w.service_door t.natives key t.door t.now else (w, true)) = door at hdoor ⊢
  split
  · split
    · rename_i hnone
      -- Without the device nothing is busy.
      refine { hdoor.1 with calm := fun other rival hrival _ hlive => ?_ }
      refine hdoor.1.calm other rival hrival ?_ hlive
      rintro ⟨⟩
      rw [hnone] at hrival
      cases hrival
    rename_i held hheld
    exact hdoor.1.fail hheld (.inr rfl) rfl rfl
  rename_i hok
  rw [Bool.not_eq_true', Bool.not_eq_false] at hok
  exact (((hdoor.2 hok).meanwhile t.door.after).1.publish t.republishing key).service_output key t

theorem Good.service_device (h : Good none w incoming) (key : Nat) (t : Turn)
    (huntorn : t.door.preparing ≠ .torn) : Good none (w.service_device key t) incoming := by
  have hstart := (h.meanwhile t.starts).1
  unfold World.service_device
  dsimp only
  split
  · exact hstart
  rename_i item hitem
  split
  · exact hstart.put_same hitem rfl rfl id
  rename_i hlive
  simp only [Bool.or_eq_true, not_or, Bool.not_eq_true] at hlive
  have hrest := hstart.calm_of_live hitem hlive.2 item hitem
  have hpages := @service_pages_rests { item with queue_snapshot := {} } (w.meanwhile t.starts) hrest t
  split
  · rename_i shown heq
    rw [heq] at hpages
    exact hstart.put_rests hitem (.inl rfl) hpages
  rename_i shown heq
  rw [heq] at hpages
  have hput : Good none ((w.meanwhile t.starts).put key shown) incoming := hstart.put_rests hitem (.inl rfl) hpages
  refine (hput.publish t.publishing key).service_images ?_ t huntorn
  intro other hother
  rw [publish_item t.publishing key (put_self ..)] at hother
  cases hother
  exact hpages.2

theorem Good.service (h : Good none w []) (s : Service)
    (huntorn : ∀ key, (s.turns key).door.preparing ≠ .torn) : Good none (w.service s) [] := by
  have hfirst : (w.poll s.polling).2.zipIdx.map Prod.fst = (w.poll s.polling).2 := zipIdx_map_fst ..
  have hpolled := h.poll s.polling
  rw [← hfirst] at hpolled
  exact invariant (fun (t : World) key (ht : Good none t []) =>
    ht.service_device key (s.turns key) (huntorn key)) w.keys (hpolled.arrivals s _)

/-! ## The other calls -/

/-- A call of the manager that returns no token, and leaves the devices. -/
theorem Good.call (h : Good busy w incoming) (call : Call)
    (hcall : ∀ capacity found, call ≠ .poll_completed_frames capacity found) :
    Good busy { w with pool := w.pool.step call } incoming :=
  h.of_same (h.lawful.step call) (returns_step w.pool call hcall) rfl rfl

theorem Good.init_device (h : Good none w []) (key native timeline : Nat) (room : Bool) :
    Good none (w.init_device key native timeline room) [] := by
  unfold World.init_device
  split
  · exact h
  rename_i hnew
  simp only [not_or, Bool.not_eq_true, Option.isSome_eq_false_iff, Option.isNone_iff_eq_none] at hnew
  have hcall := h.call (.register_device key native timeline) nofun
  dsimp only
  split
  · exact hcall
  have hother : ∀ other, other ≠ key → Function.update w.devices key (some ({} : Device)) other = w.devices other :=
    fun other hne => Function.update_of_ne hne ..
  refine { hcall with lent := ?_, calm := ?_, settled := ?_ }
  · intro other holder hholder
    by_cases hkey : other = key
    · subst hkey
      cases (put_self w other {}).symm.trans hholder
      exact ⟨fun feed frame hslot => (by cases hslot), fun token htoken => (by cases htoken)⟩
    · exact h.lent other holder ((hother other hkey).symm.trans hholder)
  · intro other holder hholder hbusy hlive
    by_cases hkey : other = key
    · subst hkey
      cases (put_self w other {}).symm.trans hholder
      rfl
    · exact h.calm other holder ((hother other hkey).symm.trans hholder) hbusy hlive
  · intro frame hframe
    refine (h.settled frame hframe).imp_right (Or.imp_left ?_)
    rintro ⟨holder, feed, hholder, hslot⟩
    refine ⟨holder, feed, (hother _ ?_).trans hholder, hslot⟩
    rintro rfl
    rw [hnew.2.2.1] at hholder
    cases hholder

theorem Good.destroy_device (h : Good none w []) (hcalm : w.Calm key) (natives : Natives) :
    Good none (w.destroy_device natives key) [] := by
  obtain ⟨hdiscarded, hrest⟩ := h.discard hcalm natives
  unfold World.destroy_device
  dsimp only
  split
  · exact hdiscarded.call (.destroy_device key) nofun
  rename_i item hitem
  have hrests : Rests item
      { item with
        status := { item.status with failed := true, session_active := false, output := false }
        queue_snapshot := {} } := ⟨rfl, hrest item hitem⟩
  exact (hdiscarded.put_rests hitem (.inl rfl) hrests).call (.destroy_device key) nofun

theorem Good.refuse_queue (h : Good none w []) (key : Nat) : Good none (w.refuse_queue key) [] := by
  unfold World.refuse_queue
  split
  · exact h
  rename_i item hitem
  exact h.fail hitem (.inl rfl) rfl rfl

theorem Good.prepare (h : Good none w []) (key : Nat) (p : Preparation) : Good none (w.prepare key p) [] := by
  unfold World.prepare
  split
  · exact h
  rename_i item hitem
  split
  · exact h
  split
  · exact h.put hitem (not_busy (.inl rfl)) rfl (h.lent key item hitem).read nofun
  split
  · exact h
  split
  · exact h.fail hitem (.inl rfl) rfl rfl
  · exact h.put_same hitem rfl rfl id

/-- A page that is set to another profile reads what it read, or nothing. -/
theorem reprofile_reads (output : Output) (available ready : Bool) (ends : Discarding) :
    (reprofile output available ready ends).1.reads = output.reads ∨
      (reprofile output available ready ends).1.reads = [] := by
  have hdiscarded : (if output.prepared then output.discard_prepared ends
      else (output, true)).1.reads = output.reads ∨
        (if output.prepared then output.discard_prepared ends else (output, true)).1.reads = [] := by
    split
    · exact discard_prepared_reads ends
    · exact .inl rfl
  unfold reprofile
  dsimp only
  generalize (if output.prepared then output.discard_prepared ends else (output, true)) = discarded at hdiscarded ⊢
  split <;> exact hdiscarded

/-- Two pages may read less: what is read was read before. -/
theorem reads_less {waiting door : Output} (hwaiting : waiting.reads = item.waiting_output.reads ∨ waiting.reads = [])
    (hdoor : door.reads = item.door_output.reads ∨ door.reads = [])
    (houtput : item'.output = item.output)
    (hcalibration : item'.calibration_output = item.calibration_output)
    (hitem_waiting : item'.waiting_output = waiting) (hitem_door : item'.door_output = door) :
    ∀ token ∈ reads item', token ∈ reads item := by
  intro token
  simp only [reads, houtput, hcalibration, hitem_waiting, hitem_door, mem_append]
  rintro (((hmem | hmem) | hmem) | hmem)
  · exact .inl (.inl (.inl hmem))
  · rcases hdoor with hsame | hnone
    · exact .inl (.inl (.inr (hsame ▸ hmem)))
    rw [hnone] at hmem
    exact absurd hmem not_mem_nil
  · rcases hwaiting with hsame | hnone
    · exact .inl (.inr (hsame ▸ hmem))
    rw [hnone] at hmem
    exact absurd hmem not_mem_nil
  · exact .inr hmem

theorem Good.set_patch_profile (h : Good none w []) (key profile : Nat) (catalog : Catalog)
    (waiting door : Discarding) :
    Good none (w.set_patch_profile key profile catalog waiting door) [] := by
  unfold World.set_patch_profile
  split
  · rename_i layout item _ hitem
    split
    · exact h
    dsimp only
    set item' : Device :=
      { item with
        waiting_output := (reprofile item.waiting_output item.waiting_available item.waiting_ready waiting).1
        waiting_available := (reprofile item.waiting_output item.waiting_available item.waiting_ready waiting).2.1
        waiting_ready := (reprofile item.waiting_output item.waiting_available item.waiting_ready waiting).2.2
        door_output := (reprofile item.door_output item.door_available item.door_ready door).1
        door_available := (reprofile item.door_output item.door_available item.door_ready door).2.1
        door_ready := (reprofile item.door_output item.door_available item.door_ready door).2.2
        status :=
          { item.status with
            output := item.status.output &&
              !(item.patch_profile != profile || item.patch_layout != some layout.layout) }
        queue_snapshot := {}, queue_config := {}
        patch_profile := profile, patch_layout := some layout.layout }
    have hsubset : ∀ token ∈ reads item', token ∈ reads item :=
      reads_less (reprofile_reads ..) (reprofile_reads ..) rfl rfl rfl rfl
    have hput : ∀ t : World, Good none t [] → t.devices = w.devices → Good none (t.put key item') [] := by
      intro t ht hdevices
      have hdevice : t.devices key = some item := by rw [hdevices]; exact hitem
      refine ht.put hdevice (not_busy (.inl rfl)) rfl (fun token htoken => ?_) fun _ hlive => ?_
      · exact (ht.lent key item hdevice).read token (hsubset token htoken)
      · refine eq_nil_iff_forall_not_mem.mpr fun token htoken => ?_
        have hin := hsubset token htoken
        rw [h.calm key item hitem (by simp) hlive] at hin
        exact absurd hin not_mem_nil
    split
    · exact hput _ (h.tell rfl) rfl
    · exact hput w h rfl
  · exact h

theorem Good.configure_queue_patches (h : Good none w []) (key : Nat) (config : QueuePatchConfig)
    (catalog : Catalog) : Good none (w.configure_queue_patches key config catalog) [] := by
  unfold World.configure_queue_patches
  split
  · exact h
  rename_i item hitem
  split
  · exact h
  split
  · exact h.put_same hitem rfl rfl id
  · exact h

theorem Good.set_composition (h : Good none w []) (key : Nat) (layout : Composition)
    (accepted : Bool) : Good none (w.set_composition key layout accepted) [] := by
  unfold World.set_composition
  split
  · exact h
  rename_i item hitem
  dsimp only
  split <;> exact h.put_same hitem rfl rfl id

theorem Good.set_door (h : Good none w []) (key : Nat) (enabled live : Bool) :
    Good none (w.set_door key enabled live) [] := by
  unfold World.set_door
  split
  · exact h
  rename_i item hitem
  split <;> exact h.put_same hitem rfl rfl id

theorem Good.reset_feed (h : Good none w []) (natives : Natives) (key : Nat) :
    Good none (w.reset_feed natives key) [] := by
  unfold World.reset_feed
  split
  · exact h
  rename_i item hitem
  split
  · exact h
  rename_i hlive
  rw [Bool.not_eq_true] at hlive
  obtain ⟨hdiscarded, hrest⟩ := h.discard (h.calm_of_live hitem hlive) natives
  have htold : Good none ((w.discard natives key).tell (.changed key)) [] := hdiscarded.tell rfl
  dsimp only
  split
  · exact htold
  rename_i shown hshown
  exact htold.put_same hshown rfl rfl id

theorem Good.reset_session (h : Good none w []) (natives : Natives) (key : Nat) :
    Good none (w.reset_session natives key).1 [] := by
  unfold World.reset_session
  split
  · exact h
  rename_i item hitem
  dsimp only
  have hreset : Good none (World.tell { w with pool := w.pool.reset_session key } (.changed key)) [] :=
    (h.call (.reset_session key) nofun).tell rfl
  split
  · exact hreset.put_same hitem rfl rfl id
  set shown : Device :=
    { drop_pictures item with
      queue_config := {}
      status :=
        { (drop_pictures item).status with
          session_active := false, session_generation := reset_generation w.pool key } }
  have hput : Good none ((World.tell { w with pool := w.pool.reset_session key } (.changed key)).put key shown) [] :=
    hreset.put_same hitem rfl rfl id
  split
  · exact hput
  rename_i hlive
  rw [Bool.not_eq_true] at hlive
  have hrest : reads shown = [] := h.calm key item hitem (by simp) hlive
  exact (hput.discard (calm_put hrest) natives).1

theorem Good.resume_session (h : Good none w []) (key generation : Nat) :
    Good none (w.resume_session key generation).1 [] := by
  unfold World.resume_session
  split
  · exact h
  rename_i item hitem
  split
  · exact h
  split
  · exact h
  have hcall := h.call (.resume_session key generation) nofun
  exact hcall.put_same hitem rfl rfl id

end

/-! ## Runs -/

/-- No device is destroyed while a recording of it reads a snapshot, and no door page's recording
fails with its list open. -/
def Orderly (w : World) : Op → Prop
  | .destroy_device _ key => ∀ item, w.devices key = some item → reads item = []
  | .service s => ∀ key, (s.turns key).door.preparing ≠ .torn
  | _ => True

variable {w : World}

theorem Good.step (h : Good none w []) (op : Op) (hop : w.Orderly op) : Good none (World.step w op) [] := by
  cases op with
  | outside work => exact (h.meanwhile work).1
  | init_device key native timeline room => exact h.init_device key native timeline room
  | destroy_device natives key => exact h.destroy_device hop natives
  | refuse_queue key => exact h.refuse_queue key
  | prepare key p => exact h.prepare key p
  | set_patch_profile key profile catalog waiting door =>
    exact h.set_patch_profile key profile catalog waiting door
  | configure_queue_patches key config catalog => exact h.configure_queue_patches key config catalog
  | set_composition key layout accepted => exact h.set_composition key layout accepted
  | set_door key enabled live => exact h.set_door key enabled live
  | set_waiting_stale_ms ms => exact h.of_same h.lawful rfl rfl rfl
  | reset_feed natives key => exact h.reset_feed natives key
  | reset_session natives key => exact h.reset_session natives key
  | resume_session key generation => exact h.resume_session key generation
  | service s => exact h.service s hop

theorem good_initial : Good none {} [] where
  lawful := lawful_initial
  tokens := rfl
  lent key item hitem := by cases hitem
  calm key item hitem := by cases hitem
  came frame hframe := absurd hframe not_mem_nil
  once := nodup_nil
  known token hgiven := absurd rfl hgiven
  settled frame hframe := absurd hframe not_mem_nil
  proper := explained_nil

/-- The frame waits in one slot, which is of its device. -/
def PlacedOnce (w : World) (frame : Frame) : Prop :=
  w.Placed frame ∧ ∀ key key' item item' feed feed', w.devices key = some item →
    w.devices key' = some item' → item.pending feed = some frame →
    item'.pending feed' = some frame → key = key' ∧ feed = feed'

/-- The frame waits in no slot. -/
def Unplaced (w : World) (frame : Frame) : Prop :=
  ∀ key item feed, w.devices key = some item → item.pending feed ≠ some frame

/-- Each frame of a poll waits in one slot and was not given back, or was given back once and waits
nowhere; each token was given back unread, by the submission that read it where it was consumed;
and what a recording reads was not given back. -/
structure Conserved (w : World) : Prop where
  accounted : ∀ frame ∈ polled_frames w.told,
    given w.told frame.token = 0 ∧ w.PlacedOnce frame ∨
      given w.told frame.token = 1 ∧ w.Unplaced frame
  proper : Explained Proper w.told
  kept : ∀ key item, w.devices key = some item → ∀ token ∈ reads item, given w.told token = 0

theorem Good.conserved (h : Good none w []) : w.Conserved := by
  refine ⟨fun frame hframe => ?_, h.proper, ?_⟩
  · rcases h.settled frame hframe with hin | hplaced | hgiven
    · exact absurd hin not_mem_nil
    · obtain ⟨item, feed, hitem, hslot⟩ := hplaced
      refine .inl ⟨((h.lent _ item hitem).held feed frame hslot).2.2.2.1, ⟨item, feed, hitem, hslot⟩, ?_⟩
      intro key key' item item' feed feed' hitem hitem' hslot hslot'
      obtain ⟨-, hkey, hfeed, -⟩ := (h.lent key item hitem).held feed frame hslot
      obtain ⟨-, hkey', hfeed', -⟩ := (h.lent key' item' hitem').held feed' frame hslot'
      exact ⟨hkey.symm.trans hkey', Fin.ext (hfeed.symm.trans hfeed')⟩
    refine .inr ⟨hgiven, fun key item feed hitem hslot => ?_⟩
    have hzero := ((h.lent key item hitem).held feed frame hslot).2.2.2.1
    rw [hgiven] at hzero
    cases hzero
  · intro key item hitem token htoken
    obtain ⟨feed, frame, hslot, rfl⟩ := (h.lent key item hitem).read token htoken
    exact ((h.lent key item hitem).held feed frame hslot).2.2.2.1

/-- In every run in which no device is destroyed under an open recording, and no recording of a door
page is torn, the leases of the snapshots are conserved. -/
theorem snapshot_leases_are_conserved (ops : List Op) (hops : Guarded step Orderly {} ops) :
    (run step {} ops).Conserved :=
  (@guarded_invariant _ _ step Orderly {} (fun w => Good none w [])
    (fun _ op h hop => h.step op hop) ops good_initial hops).conserved

/-! ### A door page -/

/-- The textures of a pair and of a door camera, published by a manager. -/
def sample_scene : List Outside :=
  [.handoff (.register_device 1), .handoff (.register_resource 1 100 1 true),
    .handoff (.register_resource 1 101 2 true), .handoff (.register_resource 1 103 4 true),
    .handoff .begin_scene, .handoff .begin_capture,
    .handoff (.publish ⟨1, 5, 1⟩ ⟨9, 1⟩ (fun feed => [10, 11, 0, 13].getD feed.val 0)
      (fun feed => [100, 101, 0, 103].getD feed.val 0))]

/-- The door camera's texture is copied at the end of a batch. -/
def sample_tail : Tail :=
  { published :=
      { matched := true, feed := 3, scene_epoch := 1, capture_sequence := 1, manager := ⟨9, 1⟩
        entry_id := 13, resource := ⟨1, 4, 3⟩ }
    source := 20, desc := sample_texture, prepared := fun _ => some (50, 0)
    allocations := fun _ _ => sample_native 0, natives := fun _ _ => sample_native 0 }

def sample_batch (tails : List Tail) : List Outside :=
  [.manager (.register_list 10 1 7 true true [] {} none none), .manager (.touch_sources 10 [] none),
    .manager (.before_submission 40 [10] {}), .manager (.queue_transaction_wait true {}),
    .manager (.begin_finish false { tails }), .manager (.finish_transaction true false {} {})]

/-- A service whose poll finds every copy done. -/
def sample_service (door : Attempt) : Op :=
  .service
    { natives := fun _ => sample_native 0
      polling := { natives := fun _ => sample_native 1, ready := fun _ => sample_native 1 }
      turns := fun _ => { natives := fun _ => sample_native 0, door } }

def sample_door (door : Attempt) : List Op :=
  [.init_device 1 5 6 true, .prepare 1 {}, .set_door 1 true true,
    .outside (sample_scene ++ sample_batch [sample_tail]), sample_service door]

/-- The order after a submission fails, and the device is destroyed: its recording still reads the
snapshot that is given back. So it does where the recording of the page is torn. -/
theorem open_recording_loses_its_snapshot :
    (¬∀ ops, (run step {} ops).Conserved) ∧
      ¬(run step {} (sample_door { ordered := false } ++ [.destroy_device (fun _ => sample_native 0) 1])).Conserved ∧
      ¬(run step {} (sample_door { preparing := .torn })).Conserved := by
  have hlost : ∀ w : World, ((w.devices 1).any fun item =>
      (reads item).any fun token => given w.told token != 0) = true → ¬w.Conserved := by
    intro w hread hkept
    obtain ⟨item, hitem, hread⟩ := Option.any_eq_true .. |>.mp hread
    obtain ⟨token, htoken, hgiven⟩ := any_eq_true.mp hread
    simp [hkept.kept 1 item hitem token htoken] at hgiven
  have hdestroyed := hlost (run step {} (sample_door { ordered := false } ++
    [.destroy_device (fun _ => sample_native 0) 1])) (by decide +kernel)
  exact ⟨fun hall => hdestroyed (hall _), hdestroyed,
    hlost (run step {} (sample_door { preparing := .torn })) (by decide +kernel)⟩

/-- A door image that is composed and goes back, before its device is destroyed. -/
theorem composed_door_conserves_its_lease :
    (run step {} (sample_door {} ++ [.destroy_device (fun _ => sample_native 0) 1])).Conserved := by
  have hrest : ((run step {} (sample_door {})).devices 1).all (fun item => (reads item).isEmpty) =
      true := by decide +kernel
  refine snapshot_leases_are_conserved _ ((guarded_append _ _).mpr ⟨?_, ?_, trivial⟩)
  · exact ⟨trivial, trivial, trivial, trivial, nofun, trivial⟩
  · intro item hitem
    rw [hitem] at hrest
    exact isEmpty_iff.mp hrest

end World

end taxi_camera.scene_runtime
