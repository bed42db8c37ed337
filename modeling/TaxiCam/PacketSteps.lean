-- What the parts of a call leave of the capture packets: quarantine, retirement,
-- collection and captures keep the invariant of the pool.
import TaxiCam.PacketRules

namespace taxi_camera.SceneCaptureManager

open histories runs List
open Function (update_of_ne update_self)

namespace PacketPool

/-! ## What a part of a call leaves -/

/-- The invariant holds, the open receipt and the private recording stayed, and nothing was
returned. -/
structure Settled (s s' : PacketPool) : Prop where
  lawful : s'.Lawful
  transaction : s'.transaction = s.transaction
  private_recording : s'.lists .private_recording = s.lists .private_recording
  returned : returns s'.history = returns s.history

/-- Each packet stayed assigned as it was, with its GPU side. -/
structure Spared (s s' : PacketPool) : Prop extends Settled s s' where
  gpu : ∀ p, (s'.packets p).gpu = (s.packets p).gpu
  assigned : ∀ p, (s'.packets p).assigned = (s.packets p).assigned

def Settles (s s' : PacketPool) : Prop := s.Lawful → Settled s s'

def Spares (s s' : PacketPool) : Prop := s.Lawful → Spared s s'

section
variable {s s' s'' : PacketPool} {p : Slot}

theorem settles_refl (s : PacketPool) : Settles s s := fun h => ⟨h, rfl, rfl, rfl⟩

theorem Settled.trans (h : Settled s s') (h' : Settled s' s'') : Settled s s'' :=
  ⟨h'.lawful, h'.transaction.trans h.transaction,
    h'.private_recording.trans h.private_recording, h'.returned.trans h.returned⟩

theorem Settles.trans (h : Settles s s') (h' : Settles s' s'') : Settles s s'' :=
  fun hs => (h hs).trans (h' (h hs).lawful)

theorem spares_refl (s : PacketPool) : Spares s s := fun h => ⟨⟨h, rfl, rfl, rfl⟩, fun _ => rfl, fun _ => rfl⟩

theorem Spared.trans (h : Spared s s') (h' : Spared s' s'') : Spared s s'' :=
  ⟨h.toSettled.trans h'.toSettled, fun p => (h'.gpu p).trans (h.gpu p), fun p => (h'.assigned p).trans (h.assigned p)⟩

theorem Spares.trans (h : Spares s s') (h' : Spares s' s'') : Spares s s'' :=
  fun hs => (h hs).trans (h' (h hs).lawful)

theorem Spares.settles (h : Spares s s') : Settles s s' := fun hs => (h hs).toSettled

variable {packet : Packet} {r : Recording} {gpu : SceneCaptureD3D12} {α : Type}

/-- What each turn of a loop leaves, the loop leaves. -/
theorem spares_foldl {f : PacketPool → α → PacketPool} (hf : ∀ s a, Spares s (f s a))
    (s : PacketPool) (l : List α) : Spares s (l.foldl f s) :=
  invariant (fun t a (h : Spares s t) => h.trans (hf t a)) l (spares_refl s)

theorem settles_foldl {f : PacketPool → α → PacketPool}
    (hf : ∀ s a, Settles s (f s a)) (s : PacketPool) (l : List α) : Settles s (l.foldl f s) :=
  invariant (fun t a (h : Settles s t) => h.trans (hf t a)) l (settles_refl s)

/-- One packet changes, and one event is told that is no return. -/
theorem settled_act {e : Event} (h : ((s.set_packet p packet).note e).Lawful) (he : returns [e] = []) :
    Settled s ((s.set_packet p packet).note e) := by
  refine ⟨h, rfl, rfl, ?_⟩
  change returns (s.history ++ [e]) = _
  rw [returns_append, he, append_nil]

/-- A packet that keeps its GPU side and its assignment. -/
theorem Spared.of_packet (hs : Spared s s')
    (hgpu : packet.gpu = (s'.packets p).gpu) (ha : packet.assigned = (s'.packets p).assigned)
    (e : Event) (he : returns [e] = []) (h : ((s'.set_packet p packet).note e).Lawful) :
    Spared s ((s'.set_packet p packet).note e) := by
  have hact := settled_act h he
  refine ⟨⟨h, hs.transaction, hs.private_recording, hact.returned.trans hs.returned⟩, fun q => ?_, fun q => ?_⟩
  · rw [← hs.gpu q]
    change (Function.update s'.packets p packet q).gpu = _
    by_cases hq : q = p
    · rw [hq, update_self, hgpu]
    · rw [update_of_ne hq]
  · rw [← hs.assigned q]
    change (Function.update s'.packets p packet q).assigned = _
    by_cases hq : q = p
    · rw [hq, update_self, ha]
    · rw [update_of_ne hq]

/-! ## Quarantine and notices -/

theorem spares_quarantine (ha : (s.packets p).assigned = true) : Spares s (s.quarantine p) := by
  intro h
  have hq := h.quarantine ha
  unfold quarantine at hq ⊢
  split
  · exact spares_refl s h
  rename_i hfree
  rw [if_neg hfree] at hq
  refine Spared.of_packet (p := p) (spares_refl s h) ?_ ?_ _ rfl hq <;> rfl

/-- A condition that only assigned packets meet. -/
theorem spares_quarantine_where {condition : Packet → Slot → Bool}
    (hc : ∀ p (packet : Packet), packet.assigned = (s.packets p).assigned →
      condition packet p = true → packet.assigned = true) :
    Spares s (s.quarantine_where condition) := by
  intro hs
  refine invariant (fun t p (h : Spared s t) => ?_) slots (spares_refl s hs)
  split
  · rename_i hp
    exact h.trans (spares_quarantine (hc p _ (h.assigned p) hp) h.lawful)
  · exact h

theorem spares_set_device (key : Nat) (owner : PacketPool.Device) : Spares s (s.set_device key owner) :=
  fun h => ⟨⟨h.set_device key owner, rfl, rfl, rfl⟩, fun _ => rfl, fun _ => rfl⟩

theorem spares_fail_device (s : PacketPool) (key : Nat) : Spares s (s.fail_device key) := by
  unfold fail_device
  split
  · exact spares_refl s
  refine (spares_set_device key _).trans (spares_quarantine_where fun p packet _ hp => ?_)
  rw [Bool.and_eq_true] at hp
  exact hp.1

theorem spares_fail_devices (s : PacketPool) (keys : List Nat) : Spares s (s.fail_devices keys) := by
  refine spares_foldl (fun s key => ?_) s keys
  split
  · exact spares_fail_device s key
  · exact spares_refl s

theorem spares_apply_recording_refusal (s : PacketPool) (effects : Refusal) :
    Spares s (s.apply_recording_refusal effects) := by
  unfold apply_recording_refusal
  have hmarked : Spares s (s.quarantine_where fun packet p => effects.packets p && packet.assigned) :=
    spares_quarantine_where fun p packet _ hp => by
      rw [Bool.and_eq_true] at hp
      exact hp.2
  split
  · exact hmarked.trans (spares_fail_devices _ _)
  · exact hmarked

theorem spares_apply_notices (s : PacketPool) (notices : Notices) : Spares s (s.apply_notices notices) :=
  (spares_foldl spares_apply_recording_refusal s _).trans (spares_fail_devices _ _)

theorem spares_publish_list (s : PacketPool) (found : Option Refusal) : Spares s (s.publish_list found) := by
  cases found with
  | none => exact spares_refl s
  | some effects => exact spares_apply_recording_refusal s effects

/-! ## Retirement -/

theorem Lawful.retire (h : s.Lawful) (hloose : s.Loose p) :
    ((s.set_packet p { s.packets p with retired := true }).note (.retired (s.packets p).token)).Lawful := by
  have l := (h.packet p).snoc (e := .retired (s.packets p).token) rfl (by simp) (by simp)
  exact h.act (p := p) { s.packets p with retired := true } (.retired (s.packets p).token) rfl trivial trivial
    ⟨l.free, l.flight, l.flying, l.captured, fun _ _ => mem_snoc.mpr (.inr rfl), fun _ => rfl,
      l.lease, l.signalled, l.produced, l.once, l.home, l.reading, l.quarantine⟩ (.inl hloose)

/-- The loop of `retire_list`. No list has the packets any more. -/
theorem spares_retire_loop {bits : Slot → Bool} (hbits : ∀ p, bits p = true → s.Loose p) :
    Spares s (slots.foldl (fun s p =>
      if bits p then
        (s.set_packet p { s.packets p with retired := true }).note (.retired (s.packets p).token)
      else s) s) := by
  intro hs
  refine (invariant (fun t p (h : Spared s t ∧ t.lists = s.lists) => ?_) slots ⟨spares_refl s hs, rfl⟩).1
  obtain ⟨hspared, hlists⟩ := h
  split
  · rename_i hp
    have hloose : t.Loose p := by
      unfold Loose
      rw [hlists]
      exact hbits p hp
    refine ⟨Spared.of_packet (p := p) hspared ?_ ?_ _ rfl (hspared.lawful.retire hloose), hlists⟩ <;> rfl
  · exact ⟨hspared, hlists⟩

theorem spares_retire_packets (s : PacketPool) (native : Nat) : Spares s (s.retire_packets native) := by
  unfold retire_packets
  split
  · exact spares_refl s
  rename_i item hitem
  intro h
  set cleared := s.set_list (.listed native) _ with hcleared
  have hlawful : cleared.Lawful := h.set_list _ _ fun p hp => by cases hp
  have hspared : Spared s cleared := ⟨⟨hlawful, rfl, rfl, rfl⟩, fun _ => rfl, fun _ => rfl⟩
  have hloose : ∀ p, item.packets p = true → cleared.Loose p := by
    intro p hp r other hother
    by_contra hbit
    rw [Bool.not_eq_false] at hbit
    rw [hcleared] at hother
    by_cases hr : r = .listed native
    · subst hr
      rw [set_list_self] at hother
      cases hother
      cases hbit
    rw [set_list_other hr] at hother
    exact hr (h.one_list r _ other item p hother hitem hbit hp)
  have hloop := hspared.trans (spares_retire_loop hloose hlawful)
  split
  · exact hloop
  · exact hloop.trans (spares_fail_device _ _ hloop.lawful)

theorem spares_renew_list (s : PacketPool) (native : Nat) (destroy : Bool)
    (found : Option Refusal) : Spares s (s.renew_list native destroy found) := by
  unfold renew_list
  split
  · exact spares_refl s
  rename_i item hitem
  split
  · refine (spares_publish_list s found).trans fun h => ?_
    have hother : Recording.private_recording ≠ .listed native := by simp
    exact ⟨⟨h.drop_list _, rfl, drop_list_other hother, rfl⟩, fun _ => rfl, fun _ => rfl⟩
  refine Spares.trans (fun h => ?_) (spares_publish_list _ found)
  exact ⟨⟨h.set_list _ _ fun p hp => ⟨item, hitem, hp⟩, rfl, set_list_other (by simp) _, rfl⟩,
    fun _ => rfl, fun _ => rfl⟩

theorem spares_apply_entry (s : PacketPool) (entry : Entry) : Spares s (s.apply_entry entry) := by
  unfold apply_entry
  split
  · exact spares_refl s
  split
  · exact spares_refl s
  · exact ((spares_apply_notices s _).trans (spares_retire_packets _ _)).trans (spares_renew_list _ _ _ _)

theorem spares_apply_deferred_work (s : PacketPool) (work : List Entry) :
    Spares s (s.apply_deferred_work work) := spares_foldl spares_apply_entry s work

theorem spares_apply_deferred (s : PacketPool) (drained : Drained) : Spares s (s.apply_deferred drained) :=
  (spares_apply_deferred_work s _).trans (spares_apply_notices _ _)

theorem spares_retire_native_list (s : PacketPool) (native : Nat) (destroy : Bool)
    (drained : Drained) (found : Option Refusal) :
    Spares s (s.retire_native_list native destroy drained found) :=
  ((spares_apply_deferred s drained).trans (spares_retire_packets _ _)).trans (spares_renew_list _ _ _ _)

/-! ## Collection -/

theorem Lawful.loose_of_state (h : s.Lawful) (hs : (s.packets p).gpu.state ≠ .recorded) :
    s.Loose p := h.loose fun ho => hs ho.2.2

theorem settles_recycle_packet (native : SceneCaptureD3D12.Native)
    (hs : (s.packets p).gpu.state = .consuming) (hq : (s.packets p).quarantined = false) :
    Settles s (s.recycle_packet native p) := by
  intro h
  have l := h.packet p
  have hne : (s.packets p).gpu.state ≠ .recorded := by simp [hs]
  have ha := l.assigned_of (by simp [hs]) (by simp [hs])
  have hleased := l.unleased ha (by simp [hs])
  have hread := l.read hs (s.packets p).gpu.consumer_fence (s.packets p).gpu.consumer_value native.completed
  unfold recycle_packet
  dsimp only
  rcases (s.packets p).gpu.recycle_cases native with
    ⟨hno, hsame⟩ | ⟨hyes, -, hremoved, hle, hidle⟩
  · rw [hno, if_neg (by decide)]
    split
    · refine settled_act (h.act _ _ rfl rfl trivial ?_ (.inl (h.loose_of_state hne))) rfl
      rcases hsame with hgpu | ⟨-, hfailed⟩
      · rw [hgpu]
        exact hread
      · exact hread.fail ha hleased (l.not_carried hne) hfailed
    · exact settles_refl s h
  rw [if_pos hyes]
  have hhome : loan p (s.history ++ [.consumer_read p (s.packets p).gpu.consumer_fence
      (s.packets p).gpu.consumer_value native.completed]) = .home := by
    rw [loan_snoc]
    rcases l.reading hs with hloan | hloan <;> simp [lend, hloan, Reaches, hle, hremoved]
  have hact := h.act (p := p)
    { s.packets p with
      gpu := ((s.packets p).gpu.recycle native).1, assigned := false, leased := false }
    (.consumer_read p (s.packets p).gpu.consumer_fence (s.packets p).gpu.consumer_value
      native.completed) rfl rfl trivial
    (hread.release (l.not_carried hne) hq hhome hidle false) (.inl (h.loose_of_state hne))
  refine ⟨hact.tell (p := p) _ rfl ?_ ?_, rfl, rfl, ?_⟩
  · intro hquarantined
    have hflag := l.quarantine (mem_of_mem_snoc hquarantined (by simp))
    rw [hq] at hflag
    cases hflag
  · exact (hact.packet p).snoc rfl (by simp) (by simp)
  · rw [← (settled_act hact rfl).returned]
    exact (returns_append _).trans (append_nil _)

/-- A packet that changes before its quarantine. -/
theorem settles_change_quarantine (hchange : (s.set_packet p packet).Lawful) (ha : packet.assigned = true) :
    Settled s ((s.set_packet p packet).quarantine p) := by
  have hq := spares_quarantine (s := s.set_packet p packet) (p := p) (by simpa using ha) hchange
  exact ⟨hq.lawful, hq.transaction, hq.private_recording, hq.returned⟩

theorem settles_retire_packet (native : SceneCaptureD3D12.Native)
    (ha : (s.packets p).assigned = true) (hq : (s.packets p).quarantined = false)
    (hr : (s.packets p).retired = true) (hf : (s.packets p).in_flight = 0)
    (hs : (s.packets p).gpu.state = .recorded) : Settles s (s.retire_packet native p) := by
  intro h
  have l := h.packet p
  have hloose : s.Loose p := h.loose fun ho => by simp [Packet.Open, hr] at ho
  have hc : carried s.transaction p = false := by
    by_contra hc
    have hone := l.flight
    simp [hf, hc] at hone
  unfold retire_packet
  dsimp only
  split
  · rcases (s.packets p).gpu.discard_unsubmitted_retired_cases with
      ⟨hno, -⟩ | ⟨hyes, -, hidle⟩
    · rw [hno, if_neg (by decide)]
      exact (spares_quarantine ha h).toSettled
    rw [if_pos hyes]
    have hhome := l.home (.inl (.inr (.inr (.inl hs))))
    have hfree := l.release hc hq hhome hidle (s.packets p).leased
    refine settled_act (h.act _ _ rfl rfl ?_ (hfree.snoc rfl (by simp) (by simp)) (.inl hloose)) rfl
    intro hquarantined
    rw [l.quarantine hquarantined] at hq
    cases hq
  rcases (s.packets p).gpu.retire_serialized_recording_cases native (s.packets p).producer with ⟨hno, hsame⟩ | ⟨hyes, -, hretiring⟩
  · rw [hno, if_neg (by decide)]
    refine settles_change_quarantine (h.change _ rfl ?_ (.inl hloose)) ha
    rcases hsame with hgpu | ⟨-, hfailed⟩
    · rw [hgpu]
      exact l
    · exact l.fail ha (l.unleased ha (by simp [hs])) hc hfailed
  rw [if_pos hyes]
  exact settled_act (h.act _ _ rfl trivial trivial (l.signal ha hr hc hs hretiring) (.inl hloose)) rfl

theorem settles_collect_packet (natives : Slot → SceneCaptureD3D12.Native) (s : PacketPool)
    (p : Slot) : Settles s (collect_packet natives s p) := by
  unfold collect_packet
  dsimp only
  split
  · exact settles_refl s
  rename_i hassigned
  rw [Bool.or_eq_true, not_or, Bool.not_eq_true, Bool.not_eq_eq_eq_not, Bool.not_false, Bool.not_eq_true] at hassigned
  split
  · rename_i hconsuming
    exact settles_recycle_packet _ hconsuming hassigned.2
  split
  · exact settles_refl s
  rename_i hopen
  simp only [Bool.or_eq_true, Bool.not_eq_true', decide_eq_true_eq, not_or, not_not, Bool.not_eq_false] at hopen
  exact settles_retire_packet _ hassigned.1 hassigned.2 hopen.1.1 hopen.1.2 hopen.2

theorem settles_collect (s : PacketPool) (sight : Sight) : Settles s (s.collect sight) :=
  (spares_apply_deferred s _).settles.trans (settles_foldl (settles_collect_packet _) _ _)

/-! ## Captures -/

theorem record_into_records (c : Capture) (list : Nat) (p : Slot) (gpu : SceneCaptureD3D12) :
    gpu.Records (record_into c list p gpu) := by
  unfold record_into
  split
  · exact SceneCaptureD3D12.record_between_barriers_records _ _ _ _ _
  split
  · exact SceneCaptureD3D12.record_between_barriers_records _ _ _ _ _
  · exact SceneCaptureD3D12.record_copy_source_records _ _ _ _ _

theorem settles_rewrite (c : Capture) {item : CommandList}
    (hitem : s.lists r = some item) : Settles s (s.rewrite c item).1 := by
  intro h
  unfold rewrite
  split
  · exact settles_refl s h
  split
  · exact settles_refl s h
  rename_i p hfind
  have hbit := find?_some hfind
  rw [Bool.and_eq_true] at hbit
  have hopen := h.lists r item p hitem hbit.1
  dsimp only
  split
  · exact settles_refl s h
  rename_i hre
  rw [Bool.not_eq_eq_eq_not, Bool.not_true, Bool.not_eq_false] at hre
  have hq : (s.packets p).quarantined = false := by
    simp only [rewritable, Bool.and_eq_true, Bool.not_eq_true'] at hre
    exact hre.1.1.1.1.1.1.1.2
  have l := h.packet p
  have hhome := l.home (.inl (.inr (.inr (.inl hopen.2.2))))
  rcases record_into_records c item.native p (s.packets p).gpu with
    ⟨hno, -⟩ | ⟨hyes, -, hrecorded⟩
  · rw [hno, if_neg (by decide)]
    exact settles_refl s h
  rw [if_pos hyes]
  have lr := (l.record_again hopen.2.2 hrecorded c.published).snoc
    (e := .rewritten (s.packets p).token p) rfl (by simp) (by simp)
  refine settled_act (h.act _ _ rfl rfl ⟨l.captured hopen.1, ?_, hhome⟩ lr (.inr ⟨hopen.1, hopen.2.1, hrecorded⟩)) rfl
  intro hquarantined
  rw [l.quarantine hquarantined] at hq
  cases hq

/-- A packet of the pool, with its budget and texture as they may be. -/
theorem settles_pooled (hfree : (s.packets p).assigned = false)
    (hs : gpu.state = .empty ∨ gpu.state = .idle) (description : SceneCaptureD3D12.Description)
    (device_key bytes : Nat) :
    Settles s { s.set_packet p { s.packets p with gpu, description, device_key } with bytes } := by
  intro h
  have l := h.packet p
  have hloose : s.Loose p := h.loose fun ho => by simp [Packet.Open, hfree] at ho
  have hchange := h.change (p := p) { s.packets p with gpu, description, device_key } rfl
    (l.pooled hfree hs description device_key) (.inl hloose)
  exact ⟨hchange.of_same rfl rfl rfl rfl rfl rfl, rfl, rfl, rfl⟩

/-- A step on a packet of the pool that leaves it there. -/
structure Provides (s s' : PacketPool) (p : Slot) : Prop where
  settles : Settles s s'
  lists : s'.lists = s.lists
  assigned : (s'.packets p).assigned = (s.packets p).assigned
  quarantined : (s'.packets p).quarantined = (s.packets p).quarantined

theorem provides_release_other (key : Nat) (desc : SceneCaptureD3D12.Description)
    (hfree : (s.packets p).assigned = false) : Provides s (s.release_other key desc p) p := by
  unfold release_other
  dsimp only
  split
  · rename_i hidle
    have hempty : (s.packets p).gpu.release_idle.1.state = .empty := by
      simp [SceneCaptureD3D12.release_idle, hidle.1]
    exact ⟨settles_pooled hfree (.inl hempty) _ _ _, rfl, by simp, by simp⟩
  · exact ⟨settles_refl s, rfl, rfl, rfl⟩

theorem provides_allocate (key device : Nat) (desc : SceneCaptureD3D12.Description)
    (native : SceneCaptureD3D12.Native) (hfree : (s.packets p).assigned = false) :
    Provides s (s.allocate key device desc native p).1 p := by
  unfold allocate
  dsimp only
  split
  · exact ⟨settles_refl s, rfl, rfl, rfl⟩
  rename_i hempty
  rw [not_not] at hempty
  split
  · exact ⟨settles_refl s, rfl, rfl, rfl⟩
  rcases (s.packets p).gpu.initialize_packet_cases native device desc with ⟨hno, hstate⟩ | ⟨hyes, hstate⟩
  · rw [hno, if_neg (by decide)]
    exact ⟨settles_pooled hfree (.inl (hstate.trans hempty)) _ _ s.bytes, rfl, by simp, by simp⟩
  rw [if_pos hyes]
  exact ⟨settles_pooled hfree (.inr hstate) _ _ _, rfl, by simp, by simp⟩

/-! ### A new recording -/

/-- The packet that `assign` leaves. -/
def assigned_packet (s : PacketPool) (c : Capture) (session_generation : Nat)
    (gpu : SceneCaptureD3D12) (p : Slot) : Packet :=
  { s.packets p with
    gpu, published := c.published, token := s.next_token + 1, session_generation, submitted := 0
    order := {}, producer := 0, in_flight := 0, assigned := true, retired := false, leased := false }

section
variable (c : Capture) (r : Recording) (generation : Nat) (gpu : SceneCaptureD3D12)

theorem assign_packets : (s.assign c r generation gpu p).packets =
    Function.update s.packets p (s.assigned_packet c generation gpu p) := by
  unfold assign
  dsimp only
  split <;> rfl

theorem assign_transaction : (s.assign c r generation gpu p).transaction = s.transaction := by
  unfold assign
  dsimp only
  split <;> rfl

theorem assign_next_token : (s.assign c r generation gpu p).next_token = s.next_token + 1 := by
  unfold assign
  dsimp only
  split <;> rfl

theorem assign_next_receipt : (s.assign c r generation gpu p).next_receipt = s.next_receipt := by
  unfold assign
  dsimp only
  split <;> rfl

theorem assign_history : (s.assign c r generation gpu p).history = s.history ++ [.captured (s.next_token + 1) p] := by
  unfold assign
  dsimp only
  split <;> rfl

variable {item : CommandList}

/-- The packet is new to its recording, and the lists have what they had. -/
theorem assign_lists {r' : Recording} {q : Slot}
    (hitem : (s.assign c r generation gpu p).lists r' = some item) (hq : item.packets q = true) :
    (r' = r ∧ q = p) ∨ ∃ old, s.lists r' = some old ∧ old.packets q = true := by
  unfold assign at hitem
  dsimp only at hitem
  split at hitem
  · rename_i old hold
    change Function.update s.lists r _ r' = some item at hitem
    by_cases hr : r' = r
    · rw [hr, update_self] at hitem
      cases hitem
      dsimp only at hq
      by_cases hqp : q = p
      · exact .inl ⟨hr, hqp⟩
      rw [update_of_ne hqp] at hq
      exact .inr ⟨old, hr ▸ hold, hq⟩
    rw [update_of_ne hr] at hitem
    exact .inr ⟨item, hitem, hq⟩
  · exact .inr ⟨item, hitem, hq⟩

theorem assign_listed (hitem : s.lists r = some item) :
    ∃ item, (s.assign c r generation gpu p).lists r = some item ∧ item.packets p = true := by
  unfold assign
  have htaken : ({ s.set_packet p (s.assigned_packet c generation gpu p) with
      next_token := s.next_token + 1 } : PacketPool).lists r = some item := hitem
  dsimp only
  split
  · exact ⟨_, set_list_self .., update_self ..⟩
  rename_i hnone
  exact absurd (hnone.symm.trans htaken) (by simp)

end

/-- A new token, in a packet of the pool that was just recorded. -/
theorem Lawful.assign (h : s.Lawful) (c : Capture) (r : Recording) (generation : Nat) (hfree : (s.packets p).assigned = false)
    (hs : gpu.state = .recorded) : (s.assign c r generation gpu p).Lawful := by
  have l := h.packet p
  have hnew : ∀ q, .captured (s.next_token + 1) q ∉ s.history := fun q hq =>
    absurd (h.tokens_le _ q hq) (by omega)
  have hquarantined : .quarantined p ∉ s.history := fun hq => by
    have hflag := l.quarantine hq
    rw [(l.free hfree).1] at hflag
    cases hflag
  have hhome : loan p s.history = .home := by
    rcases (l.free hfree).2 with hold | hold
    · exact l.home (.inl (.inl hold))
    · exact l.home (.inl (.inr (.inl hold)))
  have hcarried : carried s.transaction p = false := by
    by_contra hc
    rw [Bool.not_eq_false] at hc
    exact absurd (hfree.symm.trans (l.flying hc).1) (by decide)
  have hunlisted : s.Loose p := h.loose fun ho => by simp [Packet.Open, hfree] at ho
  have lp : (s.assigned_packet c generation gpu p).Lawful
      (s.history ++ [.captured (s.next_token + 1) p]) s.transaction p :=
    { free := nofun
      flight := by rw [hcarried]; rfl
      flying := fun hc => absurd (hcarried.symm.trans hc) (by decide)
      captured := fun _ => mem_snoc.mpr (.inr rfl)
      retirement := nofun
      late := fun hlate => by simp [assigned_packet, hs] at hlate
      lease := nofun
      signalled := fun hsignal => by simp [assigned_packet, hs] at hsignal
      produced := fun hready => by simp [assigned_packet, hs] at hready
      once := fun _ hr => absurd (h.returned_captured _ p (mem_of_mem_snoc hr (by simp))) (hnew p)
      home := fun _ => by rw [loan_snoc]; exact hhome
      reading := fun hreading => by simp [assigned_packet, hs] at hreading
      quarantine := fun hq => absurd (mem_of_mem_snoc hq (by simp)) hquarantined }
  have hpackets := s.assign_packets (p := p) c r generation gpu
  constructor
  case explained =>
    rw [assign_history]
    exact explained_snoc h.explained ⟨hnew, hquarantined, hhome⟩
  case packet =>
    intro q
    rw [hpackets, assign_history, assign_transaction]
    by_cases hq : q = p
    · rw [hq, update_self]
      exact lp
    rw [update_of_ne hq]
    exact (h.packet q).snoc rfl (by simp) (by simp)
  case tokens_le =>
    intro token q hc
    rw [assign_history] at hc
    rw [assign_next_token]
    rcases mem_snoc.mp hc with hold | hcap
    · exact Nat.le_succ_of_le (h.tokens_le token q hold)
    cases hcap
    exact Nat.le_refl _
  case one_slot =>
    intro token q q' hc hc'
    rw [assign_history] at hc hc'
    rcases mem_snoc.mp hc with hold | hcap <;> rcases mem_snoc.mp hc' with hold' | hcap'
    · exact h.one_slot token q q' hold hold'
    · cases hcap'
      exact absurd hold (hnew q)
    · cases hcap
      exact absurd hold' (hnew q')
    · cases hcap
      cases hcap'
      rfl
  case returned_captured =>
    intro token q hr
    rw [assign_history] at hr ⊢
    exact mem_append_left _ (h.returned_captured token q (mem_of_mem_snoc hr (by simp)))
  case receipts =>
    intro receipt token hc
    rw [assign_history] at hc ⊢
    rw [assign_transaction, hpackets]
    rcases h.receipts receipt token (mem_of_mem_snoc hc (by simp)) with
      hclosed | ⟨t, q, ht, hid, hq, htoken⟩
    · exact .inl (mem_append_left _ hclosed)
    refine .inr ⟨t, q, ht, hid, hq, ?_⟩
    have hqp : q ≠ p := by
      rintro rfl
      rw [ht] at hcarried
      exact absurd (hcarried.symm.trans hq) (by decide)
    rw [update_of_ne hqp]
    exact htoken
  case closed_le =>
    intro receipt hc
    rw [assign_history] at hc
    rw [assign_next_receipt]
    exact h.closed_le receipt (mem_of_mem_snoc hc (by simp))
  case open_receipt =>
    intro t ht
    rw [assign_transaction] at ht
    rw [assign_history, assign_next_receipt]
    obtain ⟨hle, hclosed⟩ := h.open_receipt t ht
    exact ⟨hle, fun hc => hclosed (mem_of_mem_snoc hc (by simp))⟩
  case lists =>
    intro r' item q hitem hq
    rw [hpackets]
    by_cases hqp : q = p
    · rw [hqp, update_self]
      exact ⟨rfl, rfl, hs⟩
    rw [update_of_ne hqp]
    rcases assign_lists c r generation gpu hitem hq with ⟨-, heq⟩ | ⟨old, hold, hbit⟩
    · exact absurd heq hqp
    · exact h.lists r' old q hold hbit
  case one_list =>
    intro r' other item rival q hitem hrival hq hq'
    rcases assign_lists c r generation gpu hitem hq with ⟨hr, heq⟩ | ⟨old, hold, hbit⟩ <;>
      rcases assign_lists c r generation gpu hrival hq' with ⟨hr', heq'⟩ | ⟨old', hold', hbit'⟩
    · exact hr.trans hr'.symm
    · rw [heq, hunlisted other old' hold'] at hbit'
      cases hbit'
    · rw [heq', hunlisted r' old hold] at hbit
      cases hbit
    · exact h.one_list r' other old old' q hold hold' hbit hbit'

/-- A packet that was just captured, in the recording that asked for it. -/
structure Took (c : Capture) (r : Recording) (s : PacketPool) (p : Slot) : Prop where
  required : c.required_packet.any (· ≠ p) = false
  opened : (s.packets p).Open
  in_flight : (s.packets p).in_flight = 0
  listed : ∃ item, s.lists r = some item ∧ item.packets p = true

/-- A capture keeps the invariant and the open receipt; one for a private recording that succeeds
took a packet. -/
structure Captures (c : Capture) (r : Recording) (s : PacketPool) (answer : PacketPool × Bool) :
    Prop where
  lawful : answer.1.Lawful
  transaction : answer.1.transaction = s.transaction
  took : r = .private_recording → (s.lists r).isSome → answer.2 = true → ∃ p, Took c r answer.1 p

theorem captures_refused (c : Capture) (r : Recording) (h : Settled s s') : Captures c r s (s', false) :=
  ⟨h.lawful, h.transaction, nofun⟩

theorem Captures.after {c : Capture} {answer : PacketPool × Bool}
    (hs : Settled s s') (h : Captures c r s' answer) : Captures c r s answer := by
  refine ⟨h.lawful, h.transaction.trans hs.transaction, fun hr hsome => h.took hr ?_⟩
  rw [hr] at hsome ⊢
  rw [hs.private_recording]
  exact hsome

theorem captures_into (c : Capture) (r : Recording) (key : Nat) (owner : PacketPool.Device)
    (list : Nat) (order : List Slot) (s : PacketPool) (h : s.Lawful) :
    Captures c r s (capture_into c r key owner list order s) := by
  induction order generalizing s with
  | nil => exact captures_refused c r (settles_refl s h)
  | cons p rest ih =>
    unfold capture_into
    split
    · exact ih s h
    rename_i hopen
    rw [Bool.or_eq_true, Bool.or_eq_true, not_or, not_or, Bool.not_eq_true, Bool.not_eq_true,
      Bool.not_eq_true] at hopen
    obtain ⟨⟨hrequired, hfree⟩, -⟩ := hopen
    split
    · exact captures_refused c r (settles_refl s h)
    have hrelease := provides_release_other key c.desc hfree
    have hprovide := provides_allocate key owner.native c.desc (c.allocations p)
      (s := s.release_other key c.desc p) (hrelease.assigned.trans hfree)
    have hsettled := hrelease.settles.trans hprovide.settles h
    split
    · rename_i provided heq
      rw [heq] at hsettled
      exact (ih provided hsettled.lawful).after hsettled
    rename_i provided heq
    rw [heq] at hsettled hprovide
    dsimp only
    rcases record_into_records c list p (provided.packets p).gpu with
      ⟨hno, -⟩ | ⟨hyes, -, hrecorded⟩
    · rw [hno, if_neg (by decide)]
      exact (ih provided hsettled.lawful).after hsettled
    rw [if_pos hyes]
    have hfree' := hprovide.assigned.trans (hrelease.assigned.trans hfree)
    have htaken := hsettled.lawful.assign c r owner.session_generation hfree' hrecorded
    have htransaction : (provided.assign c r owner.session_generation
        (record_into c list p (provided.packets p).gpu).1 p).transaction = s.transaction := by
      rw [assign_transaction]
      exact hsettled.transaction
    cases r with
    | listed native =>
      have hpublish := spares_publish_list _ c.found htaken
      exact ⟨hpublish.lawful, hpublish.transaction.trans htransaction, nofun⟩
    | private_recording =>
      refine ⟨htaken, htransaction, fun _ hsome _ => ⟨p, hrequired, ?_, ?_, ?_⟩⟩
      · rw [assign_packets, update_self]
        exact ⟨rfl, rfl, hrecorded⟩
      · rw [assign_packets, update_self]
        rfl
      · rw [← hsettled.private_recording] at hsome
        obtain ⟨item, hitem⟩ := Option.isSome_iff_exists.mp hsome
        exact assign_listed c _ _ _ hitem

theorem captures_source (c : Capture) (r : Recording)
    (hr : r = .private_recording → ∀ item, s.lists r = some item → item.feeds c.published.feed = false)
    (h : s.Lawful) : Captures c r s (s.capture_source c r) := by
  unfold capture_source
  split
  · exact captures_refused c r (settles_refl s h)
  rename_i item hitem
  split
  · exact captures_refused c r (settles_refl s h)
  split
  · exact captures_refused c r (settles_refl s h)
  split
  · rename_i hfeed
    have hrewrite := settles_rewrite c hitem h
    refine ⟨hrewrite.lawful, hrewrite.transaction, fun hp _ _ => ?_⟩
    rw [hr hp item hitem] at hfeed
    cases hfeed
  split
  · exact captures_refused c r (settles_refl s h)
  have hcollect := settles_collect s c.sight h
  dsimp only
  split
  · exact captures_refused c r hcollect
  split
  · exact captures_refused c r hcollect
  · exact (captures_into c r _ _ _ _ _ hcollect.lawful).after hcollect

theorem Lawful.capture_listed (h : s.Lawful) (c : Capture) (native : Nat) :
    (s.capture_source c (.listed native)).1.Lawful :=
  (captures_source c (.listed native) nofun h).lawful

theorem Lawful.record_render_target_before_transition (h : s.Lawful) (native generation : Nat)
    (work : List Entry) (c : Capture) :
    (s.record_render_target_before_transition native generation work c).1.Lawful := by
  have hlocked := (spares_apply_deferred_work s work h).lawful
  unfold PacketPool.record_render_target_before_transition
  dsimp only
  split
  · exact hlocked
  · exact hlocked.capture_listed _ _

theorem Lawful.record_copy (h : s.Lawful) (native : Nat) (generation : Option Nat)
    (work : List Entry) (matches_ : scene.SceneCopyObservation) (same : Bool) (c : Capture) :
    (s.record_copy native generation work matches_ same c).1.Lawful := by
  have hlocked := (spares_apply_deferred_work s work h).lawful
  unfold PacketPool.record_copy
  dsimp only
  split
  · exact hlocked
  split <;> split
  · exact hlocked
  · exact hlocked.capture_listed _ _
  · exact hlocked
  · exact hlocked.capture_listed _ _

end

end PacketPool

end taxi_camera.SceneCaptureManager
