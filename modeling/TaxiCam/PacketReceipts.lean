-- Receipts carry capture packets: they are reserved, waited for, given their
-- tails and ended, and keep the invariant of the pool.
import TaxiCam.PacketSteps

namespace taxi_camera.SceneCaptureManager

open histories List
open Function (update_of_ne update_self)
open Function (update)

namespace PacketPool

section
variable {s s' : PacketPool} {p : Slot}

/-! ## Receipts -/

/-- A packet that a receipt can contain. -/
def Boards (s : PacketPool) (p : Slot) : Prop :=
  (s.packets p).assigned = true ∧ (s.packets p).gpu.state = .recorded

theorem Spared.boards (h : Spared s s') (hp : s.Boards p) : s'.Boards p :=
  ⟨(h.assigned p).trans hp.1, (congrArg _ (h.gpu p)).trans hp.2⟩

/-- A recorded packet was not returned under its token. -/
theorem Lawful.unreturned (h : s.Lawful) (hp : s.Boards p) (q : Slot) :
    .returned (s.packets p).token q ∉ s.history := by
  intro hr
  have l := h.packet p
  have hq := h.one_slot _ _ _ (h.returned_captured _ _ hr) (l.captured hp.1)
  subst hq
  exact l.not_returned hp.1 (l.unleased hp.1 (by simp [hp.2])) (.inl hp.2) hr

/-- The state that `begin_transaction` leaves where it reserves a receipt. -/
def reserved (s : PacketPool) (t : PacketPool.Transaction) : PacketPool :=
  { s with
    next_receipt := t.id
    transaction := some t
    packets := fun p =>
      if t.packets p then { s.packets p with in_flight := (s.packets p).in_flight + 1 }
      else s.packets p
    history := s.history ++
      ((slots.filter t.packets).map fun p => .contained t.id (s.packets p).token) }

variable {t : PacketPool.Transaction}

theorem Lawful.reserved (h : s.Lawful) (hnone : s.transaction = none)
    (hid : t.id = s.next_receipt + 1) (hmask : ∀ p, t.packets p = true → s.Boards p) :
    (s.reserved t).Lawful := by
  have hevents : (slots.filter t.packets).map (fun p => Event.contained t.id (s.packets p).token) =
      ((slots.filter t.packets).map fun p => (s.packets p).token).map (.contained t.id) := by
    rw [map_map]
    rfl
  have hnew : .closed t.id ∉ s.history := fun hc => by
    have hle := h.closed_le _ hc
    omega
  have hfree : ∀ p, (s.packets p).in_flight = 0 := fun p => by
    rw [(h.packet p).flight, hnone]
    rfl
  have hold : ∀ x : Event, (∀ token, x ≠ .contained t.id token) →
      x ∈ (s.reserved t).history → x ∈ s.history := fun x hne hx => by
    unfold PacketPool.reserved at hx
    rw [hevents] at hx
    exact mem_contained hx hne
  have hgrow : ∀ x : Event, x ∈ s.history → x ∈ (s.reserved t).history := fun x hx => mem_append_left _ hx
  have hpacket : ∀ p, (s.reserved t).packets p = { s.packets p with in_flight := if t.packets p then 1 else 0 } := by
    intro p
    have hzero := hfree p
    unfold PacketPool.reserved
    dsimp only
    split
    · rw [hzero]
      rfl
    · rw [← hzero]
  constructor
  case explained =>
    unfold PacketPool.reserved
    rw [hevents]
    refine explained_contained h.explained hnew fun token htoken => ?_
    obtain ⟨p, hp, rfl⟩ := mem_map.mp htoken
    exact h.unreturned (hmask p (mem_filter.mp hp).2)
  case packet =>
    intro p
    rw [hpacket]
    have l := (h.packet p).contained t.id ((slots.filter t.packets).map fun p => (s.packets p).token)
    rw [← hevents] at l
    exact @Packet.Lawful.travel _ _ _ _ l (some t) _ rfl (fun hc => hmask p hc) _ _ _
  case tokens_le => exact fun token p hc => h.tokens_le token p (hold _ (by simp) hc)
  case one_slot =>
    exact fun token p q hc hc' => h.one_slot token p q (hold _ (by simp) hc) (hold _ (by simp) hc')
  case returned_captured =>
    exact fun token p hr => hgrow _ (h.returned_captured token p (hold _ (by simp) hr))
  case receipts =>
    intro receipt token hc
    rcases mem_append.mp hc with hbefore | hnow
    · rcases h.receipts receipt token hbefore with hclosed | ⟨t', -, ht', -⟩
      · exact .inl (hgrow _ hclosed)
      rw [hnone] at ht'
      cases ht'
    obtain ⟨p, hp, heq⟩ := mem_map.mp hnow
    cases heq
    refine .inr ⟨t, p, rfl, rfl, (mem_filter.mp hp).2, ?_⟩
    rw [hpacket]
  case closed_le =>
    intro receipt hc
    change receipt ≤ t.id
    have hle := h.closed_le receipt (hold _ (by simp) hc)
    omega
  case open_receipt =>
    rintro t' ⟨rfl⟩
    exact ⟨Nat.le_refl _, fun hc => hnew (hold _ (by simp) hc)⟩
  case lists =>
    intro r item p hitem hp
    rw [hpacket]
    exact h.lists r item p hitem hp
  case one_list => exact h.one_list

theorem Lawful.begin_transaction (h : s.Lawful) (hnone : s.transaction = none) (key queue : Nat)
    (packets : Slot → Bool) (private_work compatible : Bool) (drained : Drained)
    (hmask : ∀ p, packets p = true → s.Boards p) :
    (s.begin_transaction key queue packets private_work compatible drained).1.Lawful := by
  have hspared := spares_apply_deferred s drained h
  unfold PacketPool.begin_transaction
  dsimp only
  split
  · exact hspared.lawful
  rename_i owner howner
  split
  · exact (spares_fail_device _ key hspared.lawful).lawful
  exact hspared.lawful.reserved (hspared.transaction.trans hnone)
    (t := { id := (s.apply_deferred drained).next_receipt + 1, device := key, queue
            value := owner.last_signal + 1, packets, private_work
            session_generation := owner.session_generation })
    rfl fun p hp => hspared.boards (hmask p hp)

/-- The packets of a batch are recorded by its lists. -/
theorem read_lists_boards (h : s.Lawful) {natives : List Nat} {batch answer : Batch}
    (hbatch : ∀ p, batch.mask p = true → s.Boards p)
    (hok : s.read_lists natives batch = .ok answer) : ∀ p, answer.mask p = true → s.Boards p := by
  induction natives generalizing batch with
  | nil =>
    cases hok
    exact hbatch
  | cons native rest ih =>
    unfold read_lists at hok
    split at hok
    · exact @ih { batch with unknown_lists := true } hbatch hok
    rename_i item hitem
    split at hok
    · exact @ih { batch with unknown_lists := true } hbatch hok
    split at hok
    · exact ih hbatch hok
    split at hok
    · cases hok
    split at hok
    · cases hok
    refine ih ?_ hok
    intro p hp
    rw [Bool.or_eq_true] at hp
    rcases hp with hold | hnew
    · exact hbatch p hold
    have hopen := h.lists _ item p hitem hnew
    exact ⟨hopen.1, hopen.2.2⟩

/-- What is known of a receipt beside its packets is not part of the invariant. -/
theorem Lawful.amend (h : s.Lawful) (f : PacketPool.Transaction → PacketPool.Transaction)
    (hid : ∀ t, (f t).id = t.id) (hpackets : ∀ t, (f t).packets = t.packets) :
    Lawful { s with transaction := s.transaction.map f } where
  explained := h.explained
  packet p := by
    have hc : carried (s.transaction.map f) p = carried s.transaction p := by
      cases s.transaction with
      | none => rfl
      | some t => simp [carried, hpackets]
    have l := h.packet p
    exact l.travel (by rw [hc]; exact l.flight) (by rw [hc]; exact l.flying) _ _ _
  tokens_le := h.tokens_le
  one_slot := h.one_slot
  returned_captured := h.returned_captured
  receipts receipt token hc := by
    rcases h.receipts receipt token hc with hclosed | ⟨t, p, ht, htid, hp, htoken⟩
    · exact .inl hclosed
    refine .inr ⟨f t, p, ?_, (hid t).trans htid, by rw [hpackets]; exact hp, htoken⟩
    rw [ht]
    rfl
  closed_le := h.closed_le
  open_receipt t ht := by
    obtain ⟨old, hold, rfl⟩ := Option.map_eq_some_iff.mp ht
    rw [hid]
    exact h.open_receipt old hold
  lists := h.lists
  one_list := h.one_list

theorem Lawful.before_submission (h : s.Lawful) (queue : Nat) (natives : List Nat)
    (found : Submitting) : (s.before_submission queue natives found).Lawful := by
  unfold PacketPool.before_submission
  split
  · exact h
  rename_i hfree
  have hnone : s.transaction = none := by
    simp only [Bool.or_eq_true, not_or, Bool.not_eq_true, Option.isSome_eq_false_iff,
      Option.isNone_iff_eq_none] at hfree
    exact hfree.1.1
  have hspared := spares_apply_deferred s found.drained h
  dsimp only
  split
  · exact (spares_foldl spares_fail_device _ _ hspared.lawful).lawful
  rename_i batch hbatch
  split
  · exact hspared.lawful
  rename_i key hkey
  split
  · exact hspared.lawful
  have hbegun := hspared.lawful.begin_transaction (hspared.transaction.trans hnone) key queue
    batch.mask false found.compatible found.reserved
    (read_lists_boards hspared.lawful (fun p hp => by cases hp) hbatch)
  split
  · exact hbegun.amend _ (fun _ => rfl) (fun _ => rfl)
  · exact hbegun

theorem Lawful.begin_private_submission (h : s.Lawful) (key queue : Nat) (compatible : Bool)
    (drained : Drained) : (s.begin_private_submission key queue compatible drained).Lawful := by
  unfold PacketPool.begin_private_submission
  split
  · exact h
  rename_i hfree
  rw [Bool.not_eq_true, Option.isSome_eq_false_iff, Option.isNone_iff_eq_none] at hfree
  split
  · exact h
  split
  · exact h
  · exact h.begin_transaction hfree key queue _ true compatible drained fun p hp => by cases hp

/-! ### The end of a receipt -/

/-- What a receipt leaves with its packets. -/
def Marks (settled : Slot → Packet → Packet) : Prop :=
  ∀ p packet, ∃ submitted producer order,
    settled p packet = { packet with submitted, producer, order }

theorem Lawful.end_receipt (h : s.Lawful) (ht : s.transaction = some t)
    {settled : Slot → Packet → Packet} (hsettled : Marks settled) :
    (s.end_receipt t settled).Lawful := by
  have hcarried : ∀ p, carried s.transaction p = t.packets p := fun p => by rw [ht]; rfl
  have hone : ∀ p, t.packets p = true → (s.packets p).in_flight - 1 = 0 := fun p hp => by
    rw [(h.packet p).flight, hcarried, hp]
    rfl
  have hzero : ∀ p, ¬ t.packets p = true → (s.packets p).in_flight = 0 := fun p hp => by
    rw [(h.packet p).flight, hcarried, if_neg hp]
  have hpacket : ∀ p, ∃ submitted producer order, (s.end_receipt t settled).packets p =
      { s.packets p with in_flight := 0, submitted, producer, order } := by
    intro p
    unfold PacketPool.end_receipt
    dsimp only
    split
    · rename_i hp
      obtain ⟨submitted, producer, order, heq⟩ :=
        hsettled p { s.packets p with in_flight := (s.packets p).in_flight - 1 }
      exact ⟨submitted, producer, order, by rw [heq, hone p hp]⟩
    rename_i hp
    exact ⟨_, _, _, by rw [← hzero p hp]⟩
  constructor
  case explained => exact explained_snoc h.explained trivial
  case packet =>
    intro p
    obtain ⟨submitted, producer, order, heq⟩ := hpacket p
    rw [heq]
    have l := (h.packet p).snoc (e := .closed t.id) rfl (by simp) (by simp)
    exact l.travel rfl (fun hc => by cases hc) _ _ _
  case tokens_le => exact fun token p hc => h.tokens_le token p (mem_of_mem_snoc hc (by simp))
  case one_slot =>
    exact fun token p q hc hc' => h.one_slot token p q (mem_of_mem_snoc hc (by simp)) (mem_of_mem_snoc hc' (by simp))
  case returned_captured =>
    exact fun token p hr => mem_append_left _ (h.returned_captured token p (mem_of_mem_snoc hr (by simp)))
  case receipts =>
    intro receipt token hc
    rcases h.receipts receipt token (mem_of_mem_snoc hc (by simp)) with hclosed | ⟨t', -, ht', hid, -⟩
    · exact .inl (mem_append_left _ hclosed)
    rw [ht] at ht'
    cases ht'
    exact .inl (mem_snoc.mpr (.inr (by rw [hid])))
  case closed_le =>
    intro receipt hc
    rcases mem_snoc.mp hc with hold | hnew
    · exact h.closed_le receipt hold
    cases hnew
    exact (h.open_receipt t ht).1
  case open_receipt =>
    intro t' ht'
    cases ht'
  case lists =>
    intro r item p hitem hp
    obtain ⟨submitted, producer, order, heq⟩ := hpacket p
    rw [heq]
    exact h.lists r item p hitem hp
  case one_list => exact h.one_list

theorem Lawful.amend_to (h : s.Lawful) {t' : PacketPool.Transaction} (ht : s.transaction = some t)
    (hid : t'.id = t.id) (hpackets : t'.packets = t.packets) :
    Lawful { s with transaction := some t' } := by
  have hamend := h.amend (fun old => { t' with id := old.id, packets := old.packets }) (fun _ => rfl) (fun _ => rfl)
  rw [ht, Option.map_some, ← hid, ← hpackets] at hamend
  exact hamend

theorem Lawful.queue_transaction_wait (h : s.Lawful) (succeeded : Bool) (drained : Drained) :
    (s.queue_transaction_wait succeeded drained).Lawful := by
  unfold PacketPool.queue_transaction_wait
  split
  · exact h
  rename_i t ht
  split
  · exact h
  split
  · exact h.amend_to ht rfl rfl
  have hfailed := (spares_apply_deferred s drained).trans (spares_fail_device _ t.device) h
  exact hfailed.lawful.end_receipt (hfailed.transaction.trans ht)
    fun p packet => ⟨packet.submitted, packet.producer, packet.order, rfl⟩

/-! ### Tails -/

/-- The receipt is open and has the packets that it had, and more of those that it can contain. -/
structure Underway (s : PacketPool) (t : PacketPool.Transaction) : Prop where
  lawful : s.Lawful
  transaction : s.transaction = some t

theorem Underway.settled (h : s.Underway t) (hs : Settles s s') :
    s'.Underway t := ⟨(hs h.lawful).lawful, (hs h.lawful).transaction.trans h.transaction⟩

theorem Underway.join_receipt (h : s.Underway t) (hp : s.Boards p)
    (hfree : (s.packets p).in_flight = 0) (list : Nat) :
    (s.join_receipt t p list).1.Underway (s.join_receipt t p list).2 := by
  obtain ⟨h, ht⟩ := h
  refine ⟨?_, rfl⟩
  have hclosed := h.open_receipt t ht
  have hcarried : ∀ q, carried s.transaction q = t.packets q := fun q => by rw [ht]; rfl
  constructor
  case explained => exact explained_snoc h.explained ⟨hclosed.2, h.unreturned hp⟩
  case packet =>
    intro q
    have l := (h.packet q).snoc (e := .contained t.id (s.packets p).token) rfl (by simp) (by simp)
    change (update s.packets p _ q).Lawful _ (some _) q
    by_cases hq : q = p
    · subst hq
      rw [update_self]
      refine l.travel ?_ (fun _ => hp) _ _ _
      rw [hfree]
      simp [carried]
    rw [update_of_ne hq]
    have hsame : carried (some { t with
        packets := update t.packets p true
        last_position := t.last_position + 1
        packet_positions := update t.packet_positions p (t.last_position + 1)
        tails := t.tails ++ [list] }) q = carried s.transaction q := by
      rw [hcarried]
      exact update_of_ne hq ..
    exact l.travel (by rw [hsame]; exact l.flight) (by rw [hsame]; exact l.flying) _ _ _
  case tokens_le => exact fun token q hc => h.tokens_le token q (mem_of_mem_snoc hc (by simp))
  case one_slot =>
    exact fun token q q' hc hc' => h.one_slot token q q' (mem_of_mem_snoc hc (by simp))
      (mem_of_mem_snoc hc' (by simp))
  case returned_captured =>
    exact fun token q hr => mem_append_left _ (h.returned_captured token q (mem_of_mem_snoc hr (by simp)))
  case receipts =>
    intro receipt token hc
    have htokens : ∀ q, (update s.packets p { s.packets p with in_flight := (s.packets p).in_flight + 1 } q).token =
        (s.packets q).token := by
      intro q
      by_cases hq : q = p
      · rw [hq, update_self]
      · rw [update_of_ne hq]
    rcases mem_snoc.mp hc with hold | hnew
    · rcases h.receipts receipt token hold with hdone | ⟨t', q, ht', hid, hq, htoken⟩
      · exact .inl (mem_append_left _ hdone)
      rw [ht] at ht'
      cases ht'
      refine .inr ⟨_, q, rfl, hid, ?_, (htokens q).trans htoken⟩
      change update t.packets p true q = true
      by_cases hqp : q = p
      · rw [hqp, update_self]
      rw [update_of_ne hqp]
      exact hq
    cases hnew
    exact .inr ⟨_, p, rfl, rfl, update_self .., htokens p⟩
  case closed_le => exact fun receipt hc => h.closed_le receipt (mem_of_mem_snoc hc (by simp))
  case open_receipt =>
    rintro t' ⟨rfl⟩
    exact ⟨hclosed.1, fun hc => hclosed.2 (mem_of_mem_snoc hc (by simp))⟩
  case lists =>
    intro r item q hitem hq
    change (update s.packets p _ q).Open
    have hopen := h.lists r item q hitem hq
    by_cases hqp : q = p
    · subst hqp
      rw [update_self]
      exact hopen
    rw [update_of_ne hqp]
    exact hopen
  case one_list => exact h.one_list

/-- A tail that was captured is in its packet, which no list has. -/
structure Tailing (s : PacketPool) (t : PacketPool.Transaction) (p : Slot) : Prop where
  underway : s.Underway t
  boards : s.Boards p
  in_flight : (s.packets p).in_flight = 0
  loose : s.Loose p

theorem Underway.capture_tail (h : s.Underway t) (tail : Tail) (p : Slot) (list list7 : Nat) :
    (s.capture_tail t tail p list list7).1.Underway t ∧
      ((s.capture_tail t tail p list list7).2 = true → (s.capture_tail t tail p list list7).1.Tailing t p) := by
  unfold PacketPool.capture_tail
  split
  · exact ⟨h, nofun⟩
  set opened := s.set_list .private_recording _ with hopened
  have hlawful : opened.Lawful := h.lawful.set_list _ _ fun q hq => by cases hq
  have hcapture := captures_source (tail_capture tail p list7) .private_recording (s := opened) (fun _ item hitem => by
    rw [hopened, set_list_self] at hitem
    cases hitem
    rfl) hlawful
  set answer := opened.capture_source (tail_capture tail p list7) .private_recording
  have hunderway : Underway { answer.1 with lists := update answer.1.lists .private_recording none } t :=
    ⟨hcapture.lawful.drop_list _, hcapture.transaction.trans h.transaction⟩
  refine ⟨hunderway, fun hyes => ?_⟩
  obtain ⟨q, htook⟩ := hcapture.took rfl (by rw [hopened, set_list_self]; rfl) hyes
  have hq : q = p := by
    have hrequired := htook.required
    simp only [tail_capture, Option.any_some, decide_eq_false_iff_not, not_not] at hrequired
    exact hrequired.symm
  subst hq
  obtain ⟨item, hitem, hbit⟩ := htook.listed
  refine ⟨hunderway, ⟨htook.opened.1, htook.opened.2.2⟩, htook.in_flight, ?_⟩
  intro r other hother
  dsimp only at hother
  by_cases hr : r = .private_recording
  · rw [hr, update_self] at hother
    cases hother
  rw [update_of_ne hr] at hother
  by_contra hother_bit
  rw [Bool.not_eq_false] at hother_bit
  exact hr (hcapture.lawful.one_list r _ other item q hother hitem hother_bit hbit)

theorem Underway.tail_into (tail : Tail) (order : List Slot) (h : s.Underway t) :
    (tail_into tail t order s).1.Underway (tail_into tail t order s).2.1 := by
  induction order generalizing s with
  | nil => exact h
  | cons p rest ih =>
    unfold tail_into
    split
    · exact ih h
    split
    · exact ih h
    rename_i list list7 _
    have hcapture := h.capture_tail tail p list list7
    split
    · rename_i captured heq
      rw [heq] at hcapture
      exact ih hcapture.1
    rename_i captured heq
    rw [heq] at hcapture
    obtain ⟨hunderway, hboards, hfree, hloose⟩ := hcapture.2 rfl
    have hretired := hunderway.lawful.retire hloose
    set retired := (captured.set_packet p
      { captured.packets p with retired := true }).note (.retired (captured.packets p).token)
      with hdef
    have hsame : retired.packets p = { captured.packets p with retired := true } := update_self ..
    have hunderway' : retired.Underway t := ⟨hretired, hunderway.transaction⟩
    split
    · refine hunderway'.join_receipt ⟨?_, ?_⟩ ?_ list
      · rw [hsame]
        exact hboards.1
      · rw [hsame]
        exact hboards.2
      · rw [hsame]
        exact hfree
    refine hunderway'.settled (spares_quarantine ?_).settles
    rw [hsame]
    exact hboards.1

theorem Underway.record_tails (tails : List Tail) (feeds : Nat → Bool) (h : s.Underway t) : (record_tails tails feeds t s).Lawful := by
  induction tails generalizing s t feeds with
  | nil => exact h.lawful
  | cons tail rest ih =>
    unfold record_tails
    split
    · exact ih feeds h
    · exact ih _ (h.tail_into tail _)

theorem Lawful.record_queue_tail (h : s.Lawful)
    (ht : s.transaction = some t) (operational : Bool) (sight : Sight) (tails : List Tail) :
    (s.record_queue_tail t operational sight tails).Lawful := by
  unfold PacketPool.record_queue_tail
  split
  · exact h
  split
  · exact h
  · exact (Underway.settled ⟨h, ht⟩ (settles_collect s sight)).record_tails _ _

theorem Lawful.begin_finish (h : s.Lawful) (refused : Bool) (found : Finishing) :
    (s.begin_finish refused found).Lawful := by
  unfold PacketPool.begin_finish
  split
  · exact h
  rename_i t ht
  split
  · exact h
  have hspared := spares_apply_deferred s found.drained h
  refine amend ?_ _ (fun _ => rfl) (fun _ => rfl)
  split
  · exact hspared.lawful.record_queue_tail (hspared.transaction.trans ht) _ _ _
  · exact hspared.lawful

/-- The packets of a receipt that is over are assigned still. -/
theorem Lawful.quarantine_receipt (h : s.Lawful)
    (hassigned : ∀ p, t.packets p = true → (s.packets p).assigned = true) :
    (s.quarantine_where fun _ p => t.packets p).Lawful :=
  (spares_quarantine_where (fun p _ hp hc => hp.trans (hassigned p hc)) h).lawful

theorem end_receipt_assigned {settled : Slot → Packet → Packet} (hsettled : Marks settled) (p : Slot) :
    ((s.end_receipt t settled).packets p).assigned = (s.packets p).assigned := by
  unfold end_receipt
  dsimp only
  split
  · obtain ⟨submitted, producer, order, heq⟩ :=
      hsettled p { s.packets p with in_flight := (s.packets p).in_flight - 1 }
    rw [heq]
  · rfl

/-- The packets of the receipt are settled once its fence value is recorded. -/
theorem Lawful.settle_receipt (h : s.Lawful) (ht : s.transaction = some t)
    (fails success refused : Bool) (sight : Sight) :
    let ended := (if fails then s.fail_device t.device else s).end_receipt t fun p packet =>
      if success && !refused then
        { packet with
          producer := t.queue, order := ⟨t.value, t.packet_positions p⟩
          submitted := packet.submitted + 1 }
      else packet
    ((if success && !refused then ended
      else ended.quarantine_where fun _ p => t.packets p).collect sight).Lawful := by
  set failed := if fails = true then s.fail_device t.device else s with hfailed
  have hfail : Spares s failed := by
    rw [hfailed]
    split
    · exact spares_fail_device _ _
    · exact spares_refl _
  have hspared := hfail h
  have htransaction := hspared.transaction.trans ht
  set settled : Slot → Packet → Packet := fun p packet =>
    if success && !refused then
      { packet with
        producer := t.queue, order := ⟨t.value, t.packet_positions p⟩
        submitted := packet.submitted + 1 }
    else packet with hdef
  have hsettled : Marks settled := by
    intro p packet
    rw [hdef]
    split
    · exact ⟨_, _, _, rfl⟩
    · exact ⟨packet.submitted, packet.producer, packet.order, rfl⟩
  have hended := hspared.lawful.end_receipt htransaction hsettled
  refine (settles_collect _ sight ?_).lawful
  split
  · exact hended
  refine hended.quarantine_receipt fun p hp => ?_
  rw [end_receipt_assigned hsettled]
  refine ((hspared.lawful.packet p).flying ?_).1
  rw [htransaction]
  exact hp

theorem Lawful.finish_transaction (h : s.Lawful) (success fatal : Bool) (drained : Drained)
    (sight : Sight) : (s.finish_transaction success fatal drained sight).Lawful := by
  unfold PacketPool.finish_transaction
  split
  · exact h
  rename_i t ht
  split
  · have hdeferred := spares_apply_deferred s drained h
    have hsettle : ∀ signalled : PacketPool, Spares (s.apply_deferred drained) signalled →
        ∀ fails success refused : Bool, _ :=
      fun signalled hsignal fails success refused =>
        settle_receipt (hsignal hdeferred.lawful).lawful
          ((hsignal hdeferred.lawful).transaction.trans (hdeferred.transaction.trans ht)) fails success refused sight
    refine hsettle _ ?_ _ _ _
    split
    · split
      · exact spares_set_device _ _
      · exact spares_refl _
    · exact spares_refl _
  · exact h

end

end PacketPool

end taxi_camera.SceneCaptureManager
