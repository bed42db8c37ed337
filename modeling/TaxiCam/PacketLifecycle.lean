-- Capture packets keep their rules: every call of the manager keeps the
-- invariant of the pool, so every run tells only what the rules allow.
import TaxiCam.PacketReceipts

namespace taxi_camera.SceneCaptureManager

open histories runs List

namespace PacketPool

section
variable {s s' : PacketPool} {p : Slot}

/-! ## The worker -/

theorem poll_packet_ready (native : SceneCaptureD3D12.Native) (hready : (s.poll_packet native p).2 = true) :
    ((s.poll_packet native p).1.packets p).gpu.state = .ready := by
  unfold poll_packet at hready ⊢
  dsimp only at hready ⊢
  rcases (s.packets p).gpu.poll_ready_cases native with
    ⟨hstate, hsame⟩ | ⟨hno, -⟩ | ⟨hno, -, -⟩ | ⟨hyes, hretiring, -, -, hstate, -⟩
  · rw [if_neg (by simp [hstate])]
    exact hstate
  · split at hready <;> rw [hno] at hready <;> cases hready
  · split at hready <;> rw [hno] at hready <;> cases hready
  have hok : native.device_ok = true := by
    by_contra hbad
    rw [Bool.not_eq_true] at hbad
    simp [SceneCaptureD3D12.poll_ready, hretiring, hbad] at hyes
  rw [if_pos ⟨hretiring, hok⟩]
  simpa using hstate

theorem poll_packet_flags (native : SceneCaptureD3D12.Native) :
    ((s.poll_packet native p).1.packets p).assigned = (s.packets p).assigned ∧
      ((s.poll_packet native p).1.packets p).quarantined = (s.packets p).quarantined ∧
      ((s.poll_packet native p).1.packets p).leased = (s.packets p).leased := by
  unfold poll_packet
  dsimp only
  split
  · simp
  · exact ⟨rfl, rfl, rfl⟩

theorem settles_poll_packet (native : SceneCaptureD3D12.Native)
    (hleased : (s.packets p).leased = false) : Settles s (s.poll_packet native p).1 := by
  intro h
  have l := h.packet p
  unfold poll_packet
  dsimp only
  split
  · rename_i hretiring
    have hne : (s.packets p).gpu.state ≠ .recorded := by simp [hretiring.1]
    have ha := l.assigned_of (by simp [hretiring.1]) (by simp [hretiring.1])
    have lr := l.snoc (e := .producer_read (s.packets p).token (s.packets p).gpu.producer_value
      native.completed) rfl (by simp) (by simp)
    refine settled_act (h.act _ _ rfl trivial trivial ?_ (.inl (h.loose_of_state hne))) rfl
    rcases (s.packets p).gpu.poll_ready_cases native with
      ⟨hstate, -⟩ | ⟨-, hsame⟩ | ⟨-, -, hfailed⟩ | ⟨-, -, hremoved, hle, hready, -⟩
    · rw [hretiring.1] at hstate
      cases hstate
    · rw [hsame]
      exact lr
    · exact lr.fail ha hleased (l.not_carried hne) hfailed
    exact lr.finish ha hleased (l.not_carried hne) hretiring.1 hready
      ⟨_, _, mem_append_left _ (l.signalled hretiring.1), mem_snoc.mpr (.inr rfl), hle, hremoved⟩
  · exact settles_refl s h

theorem Lawful.consume (h : s.Lawful) (fence value : Nat) (native : SceneCaptureD3D12.Native)
    (ha : (s.packets p).assigned = true) (leased : Bool)
    (hleased : leased = false)
    (hyes : ((s.packets p).gpu.finish_consumption fence value native).2 = true) :
    ((s.set_packet p
      { s.packets p with
        gpu := ((s.packets p).gpu.finish_consumption fence value native).1, leased }).note
      (.consumed p fence value)).Lawful := by
  have l := h.packet p
  rcases (s.packets p).gpu.finish_consumption_cases native fence value with ⟨hno, -⟩ | ⟨-, hready, hconsuming, hfence, hvalue⟩
  · rw [hno] at hyes
    cases hyes
  have hne : (s.packets p).gpu.state ≠ .recorded := by simp [hready]
  refine h.act _ _ rfl rfl trivial ?_ (.inl (h.loose_of_state hne))
  exact l.consume ha (l.not_carried hne) hready hconsuming hfence hvalue hleased

theorem settles_drop_frame (owner : PacketPool.Device) (native : SceneCaptureD3D12.Native)
    (ha : (s.packets p).assigned = true) (hleased : (s.packets p).leased = false) :
    Settles s (s.drop_frame owner native p) := by
  intro h
  unfold drop_frame
  dsimp only
  split
  · rename_i hyes
    exact settled_act (h.consume _ _ _ ha _ hleased hyes) rfl
  · exact (spares_quarantine ha h).toSettled

/-- The packet of a frame that is ready is returned. -/
theorem Lawful.give (h : s.Lawful) (ha : (s.packets p).assigned = true)
    (hq : (s.packets p).quarantined = false) (hleased : (s.packets p).leased = false)
    (hs : (s.packets p).gpu.state = .ready) :
    ((s.set_packet p { s.packets p with leased := true }).note (.returned (s.packets p).token p)).Lawful := by
  have l := h.packet p
  have hne : (s.packets p).gpu.state ≠ .recorded := by simp [hs]
  have hreturned := l.not_returned ha hleased (.inr (.inr hs))
  have hcaptured := l.captured ha
  refine h.act _ _ rfl rfl ⟨?_, hcaptured, ?_, ?_, ?_, l.produced hs⟩ (l.lend_out ha hs) (.inl (h.loose_of_state hne))
  · intro q hr
    have hslot := h.one_slot _ _ _ (h.returned_captured _ _ hr) hcaptured
    exact hreturned (hslot ▸ hr)
  · intro hquarantined
    have hflag := l.quarantine hquarantined
    rw [hq] at hflag
    cases hflag
  · exact l.retirement ha (l.late (.inr (.inl hs)))
  · -- A packet of the open receipt is recorded, so it is another packet, with another token.
    intro receipt hcontained
    rcases h.receipts receipt _ hcontained with hclosed | ⟨t, q, ht, -, hq, htoken⟩
    · exact hclosed
    have hcarried : carried s.transaction q = true := by rw [ht]; exact hq
    have hflying := (h.packet q).flying hcarried
    have hslot := h.one_slot _ _ _ ((h.packet q).captured hflying.1) (htoken ▸ hcaptured)
    rw [hslot, hs] at hflying
    cases hflying.2

/-- The loop of a poll keeps the invariant and tells of the frames that it returns. -/
theorem Lawful.poll_frames (h : s.Lawful) (found : Polling) (order : List Slot) (left : Nat) :
    (poll_frames found order left s).1.Lawful ∧
      returns (poll_frames found order left s).1.history =
        returns s.history ++ (poll_frames found order left s).2.map Frame.token := by
  induction order generalizing s left with
  | nil => exact ⟨h, by simp [poll_frames]⟩
  | cons p rest ih =>
    have hskip : ∀ {t : PacketPool}, Settled s t → (poll_frames found rest left t).1.Lawful ∧
        returns (poll_frames found rest left t).1.history =
          returns s.history ++ (poll_frames found rest left t).2.map Frame.token := by
      intro t ht
      rw [← ht.returned]
      exact ih ht.lawful left
    unfold poll_frames
    dsimp only
    split
    · exact hskip (settles_refl s h)
    rename_i hopen
    simp only [Bool.or_eq_true, Bool.not_eq_true', not_or, Bool.not_eq_false, Bool.not_eq_true] at hopen
    obtain ⟨⟨ha, hq⟩, hleased⟩ := hopen
    have hpoll := settles_poll_packet (found.natives p) hleased h
    obtain ⟨ha', hq', hleased'⟩ := s.poll_packet_flags (p := p) (found.natives p)
    rw [ha] at ha'
    rw [hq] at hq'
    rw [hleased] at hleased'
    have hquarantine := hpoll.trans ((spares_quarantine ha' hpoll.lawful).toSettled)
    split
    · rename_i polled heq
      rw [heq] at hpoll
      exact hskip hpoll
    rename_i polled heq
    have hready : (polled.packets p).gpu.state = .ready := by
      have hstate := s.poll_packet_ready (p := p) (found.natives p) (by rw [heq])
      rw [heq] at hstate
      exact hstate
    rw [heq] at hpoll ha' hq' hleased' hquarantine
    split
    · exact hskip hquarantine
    rename_i owner howner
    split
    · exact hskip hquarantine
    split
    · exact hskip (hpoll.trans (settles_drop_frame owner _ ha' hleased' hpoll.lawful))
    split
    · exact ⟨hpoll.lawful, by simpa using hpoll.returned⟩
    rename_i left
    have hgiven := hpoll.lawful.give ha' hq' hleased' hready
    obtain ⟨hlawful, hreturns⟩ := ih hgiven left
    refine ⟨hlawful, ?_⟩
    rw [hreturns, map_cons]
    change returns (polled.history ++ [.returned (polled.packets p).token p]) ++ _ = _
    rw [returns_append, hpoll.returned, append_assoc]
    rfl

theorem Lawful.poll_completed_frames (h : s.Lawful) (capacity : Nat) (found : Polling) :
    (s.poll_completed_frames capacity found).1.Lawful ∧
      returns (s.poll_completed_frames capacity found).1.history =
        returns s.history ++ (s.poll_completed_frames capacity found).2.map Frame.token := by
  unfold PacketPool.poll_completed_frames
  split
  · exact ⟨h, by simp⟩
  have hcollect := settles_collect s found.sight h
  have hpoll := hcollect.lawful.poll_frames found slots (min capacity MaximumPackets)
  exact ⟨hpoll.1, hpoll.2.trans (by rw [hcollect.returned])⟩

theorem Lawful.consume_packet (h : s.Lawful) (ha : (s.packets p).assigned = true)
    (fence value : Nat) (native : SceneCaptureD3D12.Native) :
    (s.consume_packet p fence value native).1.Lawful := by
  unfold PacketPool.consume_packet
  dsimp only
  split
  · rename_i hyes
    exact h.consume fence value native ha false rfl hyes
  · exact h

theorem leased_packet_assigned {token : Nat} (hp : s.leased_packet token = some p) :
    (s.packets p).assigned = true := by
  have hfound := find?_some hp
  simp only [Bool.and_eq_true] at hfound
  exact hfound.1.1.1

theorem Lawful.finish_consumption (h : s.Lawful) (token fence value : Nat) (native : SceneCaptureD3D12.Native) :
    (s.finish_consumption token fence value native).1.Lawful := by
  unfold PacketPool.finish_consumption
  split
  · rename_i p hp
    exact h.consume_packet (leased_packet_assigned hp) fence value native
  · exact h

theorem Lawful.discard_frame (h : s.Lawful) (token : Nat) (native : SceneCaptureD3D12.Native) :
    (s.discard_frame token native).1.Lawful := by
  unfold PacketPool.discard_frame
  split
  · rename_i p hp
    split
    · exact h.consume_packet (leased_packet_assigned hp) _ _ native
    · exact h
  · exact h

/-! ## Devices, sessions and lists -/

theorem Lawful.register_device (h : s.Lawful) (key native timeline : Nat) :
    (s.register_device key native timeline).Lawful := by
  unfold PacketPool.register_device
  split
  · exact h
  split
  · exact h
  · exact h.set_device _ _

theorem Lawful.destroy_device (h : s.Lawful) (key : Nat) : (s.destroy_device key).Lawful := by
  unfold PacketPool.destroy_device
  split
  · exact (spares_fail_device _ key (h.set_device _ _)).lawful
  · exact h

theorem Lawful.reset_session (h : s.Lawful) (key : Nat) : (s.reset_session key).Lawful := by
  unfold PacketPool.reset_session
  split
  · exact h
  split
  · exact h
  split
  · exact (spares_fail_device _ key (h.set_device _ _)).lawful
  · exact h.set_device _ _

theorem Lawful.resume_session (h : s.Lawful) (key generation : Nat) : (s.resume_session key generation).Lawful := by
  unfold PacketPool.resume_session
  split
  · exact h
  split
  · exact h
  · exact h.set_device _ _

/-- A list with the packets that it has, or none, is published. -/
theorem Lawful.publish (h : s.Lawful) (r : Recording) (item : CommandList) (found : Option Refusal)
    (hsub : ∀ p, item.packets p = true → ∃ old, s.lists r = some old ∧ old.packets p = true) :
    ((s.set_list r item).publish_list found).Lawful :=
  (spares_publish_list _ found (h.set_list r item hsub)).lawful

theorem Lawful.register_list (h : s.Lawful) (native key generation : Nat) (observed room : Bool)
    (work : List Entry) (retired : Drained) (found published : Option Refusal) :
    (s.register_list native key generation observed room work retired found published).Lawful := by
  have hlocked := (spares_apply_deferred_work s work h).lawful
  unfold PacketPool.register_list
  dsimp only
  split
  · exact hlocked
  split
  · exact hlocked
  split
  · split
    · exact hlocked.publish _ _ _ fun p hp => by cases hp
    · exact hlocked
  split
  · exact hlocked
  have hretired := (spares_retire_native_list _ native true retired found hlocked).lawful
  exact hretired.publish _ _ _ fun p hp => by cases hp

theorem Lawful.successful_reset (h : s.Lawful) (native generation : Nat) (work : List Entry)
    (drained : Drained) (found : Option Refusal) (sight : Sight) :
    (s.successful_reset native generation work drained found sight).Lawful := by
  have hlocked := (spares_apply_deferred_work s work h).lawful
  unfold PacketPool.successful_reset
  dsimp only
  split
  · exact hlocked
  split
  · exact hlocked
  have hretired := (spares_retire_native_list _ native false drained found hlocked).lawful
  split
  · exact (settles_collect _ sight hretired).lawful
  · exact hretired

theorem Lawful.destroy_command_list (h : s.Lawful) (native generation : Nat) (work : List Entry)
    (drained : Drained) (found : Option Refusal) (sight : Sight) :
    (s.destroy_command_list native generation work drained found sight).Lawful := by
  have hlocked := (spares_apply_deferred_work s work h).lawful
  unfold PacketPool.destroy_command_list
  dsimp only
  split
  · exact hlocked
  split
  · exact hlocked
  have hretired := (spares_retire_native_list _ native true drained found hlocked).lawful
  exact (settles_collect _ sight hretired).lawful

theorem Lawful.touch_sources (h : s.Lawful) (native : Nat) (work : List Entry)
    (found : Option Refusal) : (s.touch_sources native work found).Lawful := by
  have hlocked := (spares_apply_deferred_work s work h).lawful
  unfold PacketPool.touch_sources
  dsimp only
  split
  · exact hlocked
  rename_i item hitem
  split
  · exact hlocked
  · exact hlocked.publish _ _ _ fun p hp => ⟨item, hitem, hp⟩

theorem Lawful.register_consumer_recording (h : s.Lawful) (native : Nat) (work : List Entry)
    (found : Option Refusal) : (s.register_consumer_recording native work found).Lawful := by
  have hlocked := (spares_apply_deferred_work s work h).lawful
  unfold PacketPool.register_consumer_recording
  dsimp only
  split
  · exact hlocked
  rename_i item hitem
  split
  · exact hlocked
  split
  · exact hlocked
  · exact hlocked.publish _ _ _ fun p hp => ⟨item, hitem, hp⟩

/-! ## Runs -/

theorem Lawful.step (h : s.Lawful) (call : Call) : (PacketPool.step s call).Lawful := by
  cases call with
  | apply_deferred drained => exact (spares_apply_deferred s drained h).lawful
  | register_device key native timeline => exact h.register_device key native timeline
  | destroy_device key => exact h.destroy_device key
  | set_capture_enabled enabled => exact h.of_same rfl rfl rfl rfl rfl rfl
  | reset_session key => exact h.reset_session key
  | resume_session key generation => exact h.resume_session key generation
  | register_list native key generation observed room work retired found published =>
    exact h.register_list native key generation observed room work retired found published
  | successful_reset native generation work drained found sight =>
    exact h.successful_reset native generation work drained found sight
  | destroy_command_list native generation work drained found sight =>
    exact h.destroy_command_list native generation work drained found sight
  | touch_sources native work found => exact h.touch_sources native work found
  | register_consumer_recording native work found =>
    exact h.register_consumer_recording native work found
  | record_render_target_before_transition native generation work capture =>
    exact h.record_render_target_before_transition native generation work capture
  | record_copy native generation work matches_ same capture =>
    exact h.record_copy native generation work matches_ same capture
  | before_submission queue natives found => exact h.before_submission queue natives found
  | begin_private_submission key queue compatible drained =>
    exact h.begin_private_submission key queue compatible drained
  | queue_transaction_wait succeeded drained => exact h.queue_transaction_wait succeeded drained
  | begin_finish refused found => exact h.begin_finish refused found
  | finish_transaction success fatal drained sight =>
    exact h.finish_transaction success fatal drained sight
  | collect sight => exact (settles_collect s sight h).lawful
  | poll_completed_frames capacity found => exact (h.poll_completed_frames capacity found).1
  | finish_consumption token fence value native =>
    exact h.finish_consumption token fence value native
  | discard_frame token native => exact h.discard_frame token native

end

/-- A packet of the pool that nothing was told of. -/
theorem packet_initial (p : Slot) : Packet.Lawful [] none p {} where
  free _ := ⟨rfl, .inl rfl⟩
  flight := rfl
  flying hc := by cases hc
  captured ha := by cases ha
  retirement ha := by cases ha
  late hlate := by simp at hlate
  lease ha := by cases ha
  signalled hsignal := by cases hsignal
  produced hready := by cases hready
  once ha := by cases ha
  home _ := rfl
  reading hreading := by cases hreading
  quarantine hq := by cases hq

theorem lawful_initial : Lawful {} where
  explained := explained_nil
  packet := packet_initial
  tokens_le token p hc := by cases hc
  one_slot token p q hc := by cases hc
  returned_captured token p hr := by cases hr
  receipts receipt token hc := by cases hc
  closed_le receipt hc := by cases hc
  open_receipt t ht := by cases ht
  lists r item p hitem := by cases hitem
  one_list r other item rival p hitem := by cases hitem

/-- In every run, each event is one that the rules allow after the events before it, no packet is
in flight less than zero times, and a poll tells of exactly the frames that it returns. -/
theorem packets_keep_their_rules (calls : List Call) :
    Explained Allowed (run step {} calls).history ∧ (∀ p, 0 ≤ ((run step {} calls).packets p).in_flight) ∧
      ∀ capacity found,
        returns ((run step {} calls).poll_completed_frames capacity found).1.history =
          returns (run step {} calls).history ++
            ((run step {} calls).poll_completed_frames capacity found).2.map Frame.token := by
  have h : (run step {} calls).Lawful :=
    invariant (fun (s : PacketPool) call (hs : s.Lawful) => hs.step call) calls lawful_initial
  exact ⟨h.explained, fun p => (h.packet p).in_flight_nonneg,
    fun capacity found => (h.poll_completed_frames capacity found).2⟩

/-- A packet has one holder in every run: its token is its own, one list at most records it, and
one that is free is in no recording and no open receipt and is not quarantined. -/
theorem packets_have_one_holder (calls : List Call) :
    let s := run step {} calls
    (∀ p q, (s.packets p).assigned = true → (s.packets q).assigned = true →
      (s.packets p).token = (s.packets q).token → p = q) ∧
    (∀ r other item rival p, s.lists r = some item → s.lists other = some rival → item.packets p = true →
      rival.packets p = true → r = other ∧ (s.packets p).Open) ∧
    ∀ p, (s.packets p).assigned = false →
      (∀ r item, s.lists r = some item → item.packets p = false) ∧ carried s.transaction p = false ∧
        (s.packets p).quarantined = false ∧ ((s.packets p).gpu.state = .empty ∨ (s.packets p).gpu.state = .idle) := by
  intro s
  have h : s.Lawful := invariant (fun (s : PacketPool) call (hs : s.Lawful) => hs.step call) calls lawful_initial
  refine ⟨fun p q hp hq hsame => ?_, fun r other item rival p hitem hrival hin hin' => ?_, fun p hfree => ?_⟩
  · exact h.one_slot _ p q ((h.packet p).captured hp) (hsame ▸ (h.packet q).captured hq)
  · exact ⟨h.one_list r other item rival p hitem hrival hin hin', h.lists r item p hitem hin⟩
  refine ⟨fun r item hitem => ?_, ?_, (h.packet p).free hfree⟩
  · by_contra hin
    have hopen := (h.lists r item p hitem (by simpa using hin)).1
    rw [hfree] at hopen
    cases hopen
  · by_contra hcarried
    have hflying := ((h.packet p).flying (by simpa using hcarried)).1
    rw [hfree] at hflying
    cases hflying

def sample_texture : SceneCaptureD3D12.Description :=
  { width := 64, height := 64, format := 28, allow_render_target := true }

/-- A device that admits every recording, with the fences where `completed` says. -/
def sample_native (completed : Nat) : SceneCaptureD3D12.Native :=
  { desc := fun _ => sample_texture, allocation := 65536, created := some 30, completed }

def sample_capture : Capture :=
  { published := { matched := true, feed := 1 }, source := 20, desc := sample_texture
    allocations := fun _ => sample_native 0, natives := fun _ => sample_native 0 }

def sample_calls : List Call :=
  [.register_device 1 5 6, .register_list 10 1 7 true true [] {} none none,
    .record_render_target_before_transition 10 7 [] sample_capture, .before_submission 40 [10] {},
    .queue_transaction_wait true {}, .begin_finish false {}, .finish_transaction true false {} {},
    .successful_reset 10 7 [] {} none {},
    .poll_completed_frames 4 { natives := fun _ => sample_native 1, ready := fun _ => sample_native 1 },
    .finish_consumption 1 50 3 (sample_native 0),
    .collect { natives := fun _ => sample_native 3 },
    .record_render_target_before_transition 10 7 [] sample_capture]

/-- One frame from its capture to the next capture into the same packet. -/
example : (run step {} sample_calls).history =
    [.captured 1 0, .contained 1 1, .closed 1, .retired 1, .signalled 1 1, .producer_read 1 1 1,
      .returned 1 0, .consumed 0 50 3, .consumer_read 0 50 3 3, .recycled 0, .captured 2 0] := by
  decide +kernel

end PacketPool

end taxi_camera.SceneCaptureManager
