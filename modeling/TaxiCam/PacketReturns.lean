-- Only a poll returns tokens: what every other call of the manager tells of the
-- packets leaves the list of the tokens that were returned.
import TaxiCam.PacketLifecycle

namespace taxi_camera.SceneCaptureManager

open runs

namespace PacketPool

/-! ## The parts of the calls -/

section
variable {s : PacketPool} {p : Slot}

/-- The event returns no token. -/
def Event.keeps : Event → Bool
  | .returned _ _ => false
  | _ => true

theorem returns_note {e : Event} (he : e.keeps = true) : returns (s.note e).history = returns s.history := by
  cases e with
  | returned token slot => cases he
  | _ => simp [note, returns]

@[simp] theorem returns_set_packet (packet : Packet) :
    returns (s.set_packet p packet).history = returns s.history := rfl

@[simp] theorem returns_set_list (r : Recording) (item : CommandList) :
    returns (s.set_list r item).history = returns s.history := rfl

@[simp] theorem returns_set_device (key : Nat) (owner : PacketPool.Device) :
    returns (s.set_device key owner).history = returns s.history := rfl

/-- What each turn of a loop leaves, the loop leaves. -/
theorem returns_foldl {α : Type} {f : PacketPool → α → PacketPool}
    (hf : ∀ t a, returns (f t a).history = returns t.history) (l : List α) :
    returns (l.foldl f s).history = returns s.history := by
  induction l generalizing s with
  | nil => rfl
  | cons a rest ih => exact (ih (s := f s a)).trans (hf s a)

@[simp] theorem returns_quarantine : returns (s.quarantine p).history = returns s.history := by
  unfold quarantine
  split
  · rfl
  · exact returns_note rfl

@[simp] theorem returns_quarantine_where (condition : Packet → Slot → Bool) :
    returns (s.quarantine_where condition).history = returns s.history := by
  refine returns_foldl (fun t q => ?_) _
  split
  · exact returns_quarantine
  · rfl

@[simp] theorem returns_fail_device (key : Nat) : returns (s.fail_device key).history = returns s.history := by
  unfold fail_device
  split
  · rfl
  · simp

@[simp] theorem returns_fail_devices (keys : List Nat) :
    returns (s.fail_devices keys).history = returns s.history := by
  refine returns_foldl (fun t key => ?_) _
  split
  · exact returns_fail_device key
  · rfl

@[simp] theorem returns_apply_recording_refusal (effects : Refusal) :
    returns (s.apply_recording_refusal effects).history = returns s.history := by
  unfold apply_recording_refusal
  split <;> simp

@[simp] theorem returns_apply_notices (notices : Notices) :
    returns (s.apply_notices notices).history = returns s.history := by
  unfold apply_notices
  rw [returns_fail_devices]
  exact returns_foldl (fun _ effects => returns_apply_recording_refusal effects) _

@[simp] theorem returns_publish_list (found : Option Refusal) :
    returns (s.publish_list found).history = returns s.history := by
  unfold publish_list
  split
  · exact returns_apply_recording_refusal _
  · rfl

@[simp] theorem returns_retire_packets (native : Nat) :
    returns (s.retire_packets native).history = returns s.history := by
  unfold retire_packets
  split
  · rfl
  rename_i item hitem
  have hloop : ∀ t : PacketPool, returns (slots.foldl (fun s p =>
      if item.packets p then
        (s.set_packet p { s.packets p with retired := true }).note (.retired (s.packets p).token)
      else s) t).history = returns t.history := by
    intro t
    refine returns_foldl (fun t q => ?_) _
    split
    · exact returns_note rfl
    · rfl
  split
  · rw [hloop]
    rfl
  rw [returns_fail_device, hloop]
  rfl

@[simp] theorem returns_renew_list (native : Nat) (destroy : Bool) (found : Option Refusal) :
    returns (s.renew_list native destroy found).history = returns s.history := by
  unfold renew_list
  split
  · rfl
  split
  · exact returns_publish_list found
  · simp

@[simp] theorem returns_apply_entry (entry : Entry) : returns (s.apply_entry entry).history = returns s.history := by
  unfold apply_entry
  split
  · rfl
  · split <;> simp

@[simp] theorem returns_apply_deferred_work (work : List Entry) :
    returns (s.apply_deferred_work work).history = returns s.history :=
  returns_foldl (fun _ entry => returns_apply_entry entry) work

@[simp] theorem returns_apply_deferred (drained : Drained) :
    returns (s.apply_deferred drained).history = returns s.history := by
  unfold apply_deferred
  simp

@[simp] theorem returns_retire_native_list (native : Nat) (destroy : Bool) (drained : Drained)
    (found : Option Refusal) :
    returns (s.retire_native_list native destroy drained found).history = returns s.history := by
  unfold retire_native_list
  simp

/-! ### Collection -/

theorem returns_recycle_packet (native : SceneCaptureD3D12.Native) :
    returns (s.recycle_packet native p).history = returns s.history := by
  unfold recycle_packet
  dsimp only
  split
  · rw [returns_note rfl, returns_note rfl, returns_set_packet]
  split
  · rw [returns_note rfl, returns_set_packet]
  · rfl

theorem returns_retire_packet (native : SceneCaptureD3D12.Native) :
    returns (s.retire_packet native p).history = returns s.history := by
  unfold retire_packet
  dsimp only
  split
  · split
    · rw [returns_note rfl, returns_set_packet]
    · exact returns_quarantine
  split
  · rw [returns_note rfl, returns_set_packet]
  · rw [returns_quarantine, returns_set_packet]

@[simp] theorem returns_collect (sight : Sight) : returns (s.collect sight).history = returns s.history := by
  unfold collect
  rw [returns_foldl, returns_apply_deferred]
  intro t q
  unfold collect_packet
  dsimp only
  split
  · rfl
  split
  · exact returns_recycle_packet _
  split
  · rfl
  · exact returns_retire_packet _

/-! ### Captures -/

theorem returns_rewrite (c : Capture) (item : CommandList) :
    returns (s.rewrite c item).1.history = returns s.history := by
  unfold rewrite
  split
  · rfl
  split
  · rfl
  dsimp only
  split
  · rfl
  split
  · exact returns_note rfl
  · rfl

theorem returns_release_other (key : Nat) (desc : SceneCaptureD3D12.Description) :
    returns (s.release_other key desc p).history = returns s.history := by
  unfold release_other
  dsimp only
  split <;> rfl

theorem returns_allocate (key device : Nat) (desc : SceneCaptureD3D12.Description)
    (native : SceneCaptureD3D12.Native) :
    returns (s.allocate key device desc native p).1.history = returns s.history := by
  unfold allocate
  dsimp only
  split
  · rfl
  split
  · rfl
  · split <;> rfl

theorem returns_assign (c : Capture) (r : Recording) (generation : Nat) (gpu : SceneCaptureD3D12) :
    returns (s.assign c r generation gpu p).history = returns s.history := by
  rw [assign_history]
  simp [returns]

theorem returns_capture_into (c : Capture) (r : Recording) (key : Nat) (owner : PacketPool.Device)
    (list : Nat) (order : List Slot) :
    returns (capture_into c r key owner list order s).1.history = returns s.history := by
  induction order generalizing s with
  | nil => rfl
  | cons q rest ih =>
    unfold capture_into
    split
    · exact ih
    split
    · rfl
    have hallocate := returns_allocate (s := s.release_other key c.desc q) (p := q) key
      owner.native c.desc (c.allocations q)
    rw [returns_release_other] at hallocate
    split
    · rename_i provided heq
      rw [heq] at hallocate
      exact ih.trans hallocate
    rename_i provided heq
    rw [heq] at hallocate
    dsimp only
    split
    · cases r with
      | listed native => exact (returns_publish_list _).trans ((returns_assign ..).trans hallocate)
      | private_recording => exact (returns_assign ..).trans hallocate
    · exact ih.trans hallocate

theorem returns_capture_source (c : Capture) (r : Recording) :
    returns (s.capture_source c r).1.history = returns s.history := by
  unfold capture_source
  split
  · rfl
  split
  · rfl
  split
  · rfl
  split
  · exact returns_rewrite ..
  split
  · rfl
  dsimp only
  split
  · exact returns_collect _
  split
  · exact returns_collect _
  · exact (returns_capture_into ..).trans (returns_collect _)

/-! ### Receipts -/

theorem returns_begin_transaction (key queue : Nat) (packets : Slot → Bool)
    (private_work compatible : Bool) (drained : Drained) :
    returns (s.begin_transaction key queue packets private_work compatible drained).1.history =
      returns s.history := by
  unfold begin_transaction
  dsimp only
  split
  · exact returns_apply_deferred _
  split
  · simp
  have hcontained : ∀ l : List Slot, returns (l.map fun p => Event.contained
      ((s.apply_deferred drained).next_receipt + 1)
      ((s.apply_deferred drained).packets p).token) = [] := by
    intro l
    induction l with
    | nil => rfl
    | cons q rest ih => exact ih
  simp [hcontained]

theorem returns_end_receipt (t : PacketPool.Transaction) (settled : Slot → Packet → Packet) :
    returns (s.end_receipt t settled).history = returns s.history := by
  simp [end_receipt, returns]

theorem returns_capture_tail (t : PacketPool.Transaction) (tail : Tail) (list list7 : Nat) :
    returns (s.capture_tail t tail p list list7).1.history = returns s.history := by
  unfold capture_tail
  split
  · rfl
  · exact (returns_capture_source ..).trans (returns_set_list ..)

theorem returns_tail_into (tail : Tail) (order : List Slot) {t : PacketPool.Transaction} :
    returns (tail_into tail t order s).1.history = returns s.history := by
  induction order generalizing s with
  | nil => rfl
  | cons q rest ih =>
    unfold tail_into
    split
    · exact ih
    split
    · exact ih
    rename_i list list7 _
    have hcapture := returns_capture_tail (s := s) (p := q) t tail list list7
    split
    · rename_i captured heq
      rw [heq] at hcapture
      exact ih.trans hcapture
    rename_i captured heq
    rw [heq] at hcapture
    have hretired : returns ((captured.set_packet q
        { captured.packets q with retired := true }).note
          (.retired (captured.packets q).token)).history = returns s.history :=
      (returns_note rfl).trans hcapture
    split
    · simpa [join_receipt, returns] using hretired
    · exact returns_quarantine.trans hretired

theorem returns_record_tails (tails : List Tail) (feeds : Nat → Bool) (t : PacketPool.Transaction) :
    returns (record_tails tails feeds t s).history = returns s.history := by
  induction tails generalizing s t feeds with
  | nil => rfl
  | cons tail rest ih =>
    unfold record_tails
    split
    · exact ih ..
    · exact (ih ..).trans (returns_tail_into ..)

theorem returns_record_queue_tail (t : PacketPool.Transaction) (operational : Bool)
    (sight : Sight) (tails : List Tail) :
    returns (s.record_queue_tail t operational sight tails).history = returns s.history := by
  unfold record_queue_tail
  split
  · rfl
  split
  · rfl
  · exact (returns_record_tails ..).trans (returns_collect _)

/-! ## The calls -/

theorem returns_before_submission (queue : Nat) (natives : List Nat) (found : Submitting) :
    returns (s.before_submission queue natives found).history = returns s.history := by
  unfold before_submission
  split
  · rfl
  dsimp only
  split
  · exact (returns_foldl (fun _ key => returns_fail_device key) _).trans (returns_apply_deferred _)
  split
  · exact returns_apply_deferred _
  split
  · exact returns_apply_deferred _
  have hbegun := fun key mask => (returns_begin_transaction
    (s := s.apply_deferred found.drained) key queue mask false found.compatible
    found.reserved).trans (returns_apply_deferred _)
  split <;> exact hbegun _ _

theorem returns_begin_private_submission (key queue : Nat) (compatible : Bool) (drained : Drained) :
    returns (s.begin_private_submission key queue compatible drained).history = returns s.history := by
  unfold begin_private_submission
  split
  · rfl
  split
  · rfl
  split
  · rfl
  · exact returns_begin_transaction ..

theorem returns_queue_transaction_wait (succeeded : Bool) (drained : Drained) :
    returns (s.queue_transaction_wait succeeded drained).history = returns s.history := by
  unfold queue_transaction_wait
  split
  · rfl
  split
  · rfl
  split
  · rfl
  rw [returns_end_receipt]
  simp

theorem returns_begin_finish (refused : Bool) (found : Finishing) :
    returns (s.begin_finish refused found).history = returns s.history := by
  unfold begin_finish
  split
  · rfl
  split
  · rfl
  dsimp only
  split
  · exact (returns_record_queue_tail ..).trans (returns_apply_deferred _)
  · exact returns_apply_deferred _

theorem returns_finish_transaction (success fatal : Bool) (drained : Drained) (sight : Sight) :
    returns (s.finish_transaction success fatal drained sight).history = returns s.history := by
  unfold finish_transaction
  split
  · rfl
  split
  · rw [returns_collect]
    -- The device is there or not, signals or fails, and the packets are settled or quarantined.
    split <;> split <;> split <;> (try split) <;> simp [returns_end_receipt]
  · rfl

end

/-- A call that is no poll returns no token. -/
theorem returns_step (s : PacketPool) (call : Call)
    (hcall : ∀ capacity found, call ≠ .poll_completed_frames capacity found) :
    returns (PacketPool.step s call).history = returns s.history := by
  cases call with
  | apply_deferred drained => exact returns_apply_deferred drained
  | register_device key native timeline =>
    unfold step register_device
    dsimp only
    split
    · rfl
    · split <;> rfl
  | destroy_device key =>
    unfold step destroy_device
    dsimp only
    split
    · simp
    · rfl
  | set_capture_enabled enabled => rfl
  | reset_session key =>
    unfold step reset_session
    dsimp only
    split
    · rfl
    split
    · rfl
    split
    · simp
    · rfl
  | resume_session key generation =>
    unfold step resume_session
    dsimp only
    split
    · rfl
    · split <;> rfl
  | register_list native key generation observed room work retired found published =>
    unfold step register_list
    dsimp only
    split
    · simp
    split
    · simp
    split
    · split <;> simp
    · split <;> simp
  | successful_reset native generation work drained found sight =>
    unfold step successful_reset
    dsimp only
    split
    · simp
    split
    · simp
    · split <;> simp
  | destroy_command_list native generation work drained found sight =>
    unfold step destroy_command_list
    dsimp only
    split
    · simp
    · split <;> simp
  | touch_sources native work found =>
    unfold step touch_sources
    dsimp only
    split
    · simp
    · split <;> simp
  | register_consumer_recording native work found =>
    unfold step register_consumer_recording
    dsimp only
    split
    · simp
    split
    · simp
    · split <;> simp
  | record_render_target_before_transition native generation work capture =>
    unfold step record_render_target_before_transition
    dsimp only
    split
    · simp
    · exact (returns_capture_source ..).trans (returns_apply_deferred_work _)
  | record_copy native generation work matches_ same capture =>
    unfold step record_copy
    dsimp only
    split
    · simp
    split <;> split
    · simp
    · exact (returns_capture_source ..).trans (returns_apply_deferred_work _)
    · simp
    · exact (returns_capture_source ..).trans (returns_apply_deferred_work _)
  | before_submission queue natives found => exact returns_before_submission queue natives found
  | begin_private_submission key queue compatible drained =>
    exact returns_begin_private_submission key queue compatible drained
  | queue_transaction_wait succeeded drained => exact returns_queue_transaction_wait succeeded drained
  | begin_finish refused found => exact returns_begin_finish refused found
  | finish_transaction success fatal drained sight =>
    exact returns_finish_transaction success fatal drained sight
  | collect sight => exact returns_collect sight
  | poll_completed_frames capacity found => exact absurd rfl (hcall capacity found)
  | finish_consumption token fence value native =>
    unfold step finish_consumption
    dsimp only
    split
    · unfold consume_packet
      dsimp only
      split
      · exact returns_note rfl
      · rfl
    · rfl
  | discard_frame token native =>
    unfold step discard_frame
    dsimp only
    split
    · split
      · unfold consume_packet
        dsimp only
        split
        · exact returns_note rfl
        · rfl
      · rfl
    · rfl

end PacketPool

end taxi_camera.SceneCaptureManager
