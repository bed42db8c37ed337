-- The rules of a capture packet's life, over what is told of the packets, and
-- the invariant of the pool that the rules follow from. Each packet keeps its
-- part of the invariant; a step changes one packet and tells one event.
import TaxiCam.Histories
import TaxiCam.PacketCalls

namespace taxi_camera.SceneCaptureManager

open histories List
open Function (update_of_ne update_self)

namespace PacketPool

/-! ## The rules -/

/-- Where the snapshot of a slot is: with the manager, out under a token, or with readers that are
done once a fence reaches a value. -/
inductive Loan
  | home
  | out (token : Nat)
  | reading (fence value : Nat)
deriving DecidableEq

/-- A fence that stands at `completed` reached the value. The last value tells of a removed
device. -/
def Reaches (completed value : Nat) : Prop :=
  value ≤ completed ∧ completed ≠ SceneCaptureD3D12.removed

instance (completed value : Nat) : Decidable (Reaches completed value) :=
  inferInstanceAs (Decidable (_ ∧ _))

def lend (p : Slot) (loan : Loan) : Event → Loan
  | .returned token q => if q = p then .out token else loan
  | .consumed q fence value => if q = p ∧ loan ≠ .home then .reading fence value else loan
  | .consumer_read q fence value completed =>
    if q = p ∧ loan = .reading fence value ∧ Reaches completed value then .home else loan
  | _ => loan

/-- The loan of a slot's snapshot, after what was told. -/
def loan (p : Slot) (told : List Event) : Loan := told.foldl (lend p) .home

/-- A read of the producer's fence found the value of the token's Signal. -/
def Produced (past : List Event) (token : Nat) : Prop :=
  ∃ value completed, .signalled token value ∈ past ∧ .producer_read token value completed ∈ past ∧
    Reaches completed value

/-- What may be told after the past. A copy is recorded into a snapshot that is at home, and a
capture takes a token that is new. A receipt contains no token that was returned. A token is
returned once, when its recording was retired, each receipt that contained it is closed, and its
producer's fence was reached. Nothing but the fences is told of a packet in quarantine. -/
def Allowed (past : List Event) : Event → Prop
  | .captured token p =>
    (∀ q, .captured token q ∉ past) ∧ .quarantined p ∉ past ∧ loan p past = .home
  | .rewritten token p => .captured token p ∈ past ∧ .quarantined p ∉ past ∧ loan p past = .home
  | .contained receipt token => .closed receipt ∉ past ∧ ∀ p, .returned token p ∉ past
  | .returned token p =>
    (∀ q, .returned token q ∉ past) ∧ .captured token p ∈ past ∧ .quarantined p ∉ past ∧
      .retired token ∈ past ∧ (∀ receipt, .contained receipt token ∈ past → .closed receipt ∈ past) ∧
      Produced past token
  | .recycled p => .quarantined p ∉ past
  | _ => True

/-- The tokens that were returned, in order. -/
def returns (told : List Event) : List Nat :=
  told.filterMap fun
    | .returned token _ => some token
    | _ => none

/-- The event can be told of the packet of a slot. -/
def Event.of (p : Slot) : Event → Prop
  | .rewritten _ q | .returned _ q | .consumed q _ _ | .consumer_read q _ _ _ | .recycled q
  | .quarantined q => q = p
  | .retired _ | .signalled _ _ | .producer_read _ _ _ => True
  | .captured _ _ | .contained _ _ | .closed _ => False

/-! ## The invariant -/

def carried (t : Option PacketPool.Transaction) (p : Slot) : Bool := t.any fun t => t.packets p

/-- The states in which a packet holds no frame that is ready. -/
def Unready (packet : Packet) : Prop :=
  packet.gpu.state = .empty ∨ packet.gpu.state = .idle ∨ packet.gpu.state = .recorded ∨
    packet.gpu.state = .retiring

/-- What a packet keeps: its flags, its part in the open receipt, and what was told of it. -/
structure Packet.Lawful (told : List Event) (t : Option PacketPool.Transaction) (p : Slot)
    (packet : Packet) : Prop where
  free : packet.assigned = false →
    packet.quarantined = false ∧ (packet.gpu.state = .empty ∨ packet.gpu.state = .idle)
  flight : packet.in_flight = if carried t p then 1 else 0
  flying : carried t p = true → packet.assigned = true ∧ packet.gpu.state = .recorded
  captured : packet.assigned = true → .captured packet.token p ∈ told
  retirement : packet.assigned = true → packet.retired = true → .retired packet.token ∈ told
  late : packet.gpu.state = .retiring ∨ packet.gpu.state = .ready ∨ packet.gpu.state = .consuming →
    packet.retired = true
  lease : packet.assigned = true → packet.leased = true → packet.gpu.state = .ready
  signalled : packet.gpu.state = .retiring → .signalled packet.token packet.gpu.producer_value ∈ told
  produced : packet.gpu.state = .ready → Produced told packet.token
  once : packet.assigned = true → .returned packet.token p ∈ told →
    packet.leased = true ∨ packet.gpu.state = .consuming ∨ packet.gpu.state = .failed
  home : Unready packet ∨ (packet.gpu.state = .ready ∧ packet.leased = false) → loan p told = .home
  reading : packet.gpu.state = .consuming → loan p told = .home ∨
    loan p told = .reading packet.gpu.consumer_fence packet.gpu.consumer_value
  quarantine : .quarantined p ∈ told → packet.quarantined = true

/-- The packet holds a recording of a list that was not retired. -/
def Packet.Open (packet : Packet) : Prop :=
  packet.assigned = true ∧ packet.retired = false ∧ packet.gpu.state = .recorded

structure Lawful (s : PacketPool) : Prop where
  explained : Explained Allowed s.history
  packet : ∀ p, (s.packets p).Lawful s.history s.transaction p
  tokens_le : ∀ token p, .captured token p ∈ s.history → token ≤ s.next_token
  one_slot : ∀ token p q, .captured token p ∈ s.history → .captured token q ∈ s.history → p = q
  returned_captured : ∀ token p, .returned token p ∈ s.history → .captured token p ∈ s.history
  receipts : ∀ receipt token, .contained receipt token ∈ s.history →
    .closed receipt ∈ s.history ∨ ∃ t p, s.transaction = some t ∧ t.id = receipt ∧
      t.packets p = true ∧ (s.packets p).token = token
  closed_le : ∀ receipt, .closed receipt ∈ s.history → receipt ≤ s.next_receipt
  open_receipt : ∀ t, s.transaction = some t → t.id ≤ s.next_receipt ∧ .closed t.id ∉ s.history
  lists : ∀ r item p, s.lists r = some item → item.packets p = true → (s.packets p).Open
  one_list : ∀ r other item rival p, s.lists r = some item → s.lists other = some rival →
    item.packets p = true → rival.packets p = true → r = other

/-! ## Events -/

section
variable {told : List Event} {t : Option PacketPool.Transaction} {p q : Slot} {e : Event}
  {packet : Packet}

theorem loan_snoc : loan p (told ++ [e]) = lend p (loan p told) e := by
  simp [loan, foldl_append]

/-- What is told of another slot leaves the loan. -/
theorem lend_other (he : e.of p) (hq : q ≠ p) (l : Loan) : lend q l e = l := by
  cases e with
  | returned token slot | consumed slot fence value | consumer_read slot fence value completed =>
    cases (show slot = p from he)
    simp [lend, hq.symm]
  | _ => rfl

theorem Produced.snoc (h : Produced told n) : Produced (told ++ [e]) n := by
  obtain ⟨value, completed, hsignal, hread, hreach⟩ := h
  exact ⟨value, completed, mem_append_left _ hsignal, mem_append_left _ hread, hreach⟩

@[simp] theorem returns_append (later : List Event) :
    returns (told ++ later) = returns told ++ returns later := filterMap_append

variable {x : Event}

theorem mem_snoc : x ∈ told ++ [e] ↔ x ∈ told ∨ x = e := by simp

theorem mem_of_mem_snoc (h : x ∈ told ++ [e]) (hne : x ≠ e) : x ∈ told := by
  rcases mem_snoc.mp h with hold | rfl
  · exact hold
  · exact absurd rfl hne

namespace Packet.Lawful

/-- An event that leaves the loan, is no return of the packet's token, and tells of a quarantine
only where there is one. -/
theorem snoc (l : packet.Lawful told t p) (hloan : lend p (loan p told) e = loan p told)
    (hreturn : e ≠ .returned packet.token p)
    (hquarantine : e = .quarantined p → packet.quarantined = true) :
    packet.Lawful (told ++ [e]) t p where
  free := l.free
  flight := l.flight
  flying := l.flying
  captured ha := mem_append_left _ (l.captured ha)
  retirement ha hr := mem_append_left _ (l.retirement ha hr)
  late := l.late
  lease := l.lease
  signalled hs := mem_append_left _ (l.signalled hs)
  produced hs := (l.produced hs).snoc
  once ha hr := l.once ha (mem_of_mem_snoc hr hreturn.symm)
  home hs := by rw [loan_snoc, hloan]; exact l.home hs
  reading hs := by rw [loan_snoc, hloan]; exact l.reading hs
  quarantine hq := by
    rcases mem_snoc.mp hq with hold | hnew
    · exact l.quarantine hold
    · exact hquarantine hnew.symm

/-- What is told of another slot. -/
theorem other (l : packet.Lawful told t q) (he : e.of p) (hq : q ≠ p) : packet.Lawful (told ++ [e]) t q := by
  refine l.snoc (lend_other he hq _) ?_ ?_
  · rintro rfl
    exact hq he
  · rintro rfl
    exact absurd he hq

theorem not_returned (l : packet.Lawful told t p) (ha : packet.assigned = true) (hl : packet.leased = false)
    (hs : packet.gpu.state = .recorded ∨ packet.gpu.state = .retiring ∨ packet.gpu.state = .ready) :
    .returned packet.token p ∉ told := by
  intro hr
  rcases l.once ha hr with hleased | hstate | hstate
  · rw [hl] at hleased
    cases hleased
  · rw [hstate] at hs
    simp at hs
  rw [hstate] at hs
  simp at hs

theorem assigned_of (l : packet.Lawful told t p)
    (hs : packet.gpu.state ≠ .empty) (hs' : packet.gpu.state ≠ .idle) : packet.assigned = true := by
  by_contra ha
  rw [Bool.not_eq_true] at ha
  rcases (l.free ha).2 with h | h
  · exact hs h
  · exact hs' h

theorem unleased (l : packet.Lawful told t p) (ha : packet.assigned = true)
    (hs : packet.gpu.state ≠ .ready) : packet.leased = false := by
  by_contra hl
  rw [Bool.not_eq_false] at hl
  exact hs (l.lease ha hl)

/-- A packet that is not recorded is in no receipt. -/
theorem not_carried (l : packet.Lawful told t p) (hs : packet.gpu.state ≠ .recorded) : carried t p = false := by
  by_contra hc
  rw [Bool.not_eq_false] at hc
  exact hs (l.flying hc).2

/-- A read of the consumer's fence, which can bring the snapshot home. -/
theorem read (l : packet.Lawful told t p) (hs : packet.gpu.state = .consuming) (fence value completed : Nat) :
    packet.Lawful (told ++ [.consumer_read p fence value completed]) t p where
  free := l.free
  flight := l.flight
  flying := l.flying
  captured ha := mem_append_left _ (l.captured ha)
  retirement ha hr := mem_append_left _ (l.retirement ha hr)
  late := l.late
  lease := l.lease
  signalled hsignal := by rw [hs] at hsignal; cases hsignal
  produced hready := by rw [hs] at hready; cases hready
  once _ _ := .inr (.inl hs)
  home hhome := by simp [Unready, hs] at hhome
  reading _ := by
    rw [loan_snoc]
    simp only [lend]
    split
    · exact .inl rfl
    · exact l.reading hs
  quarantine hq := l.quarantine (mem_of_mem_snoc hq (by simp))

variable {gpu : SceneCaptureD3D12}

/-- A packet that fails holds nothing that is told again. -/
theorem fail (l : packet.Lawful told t p) (ha : packet.assigned = true)
    (hleased : packet.leased = false) (hc : carried t p = false)
    (hs : gpu.state = .failed) : Packet.Lawful told t p { packet with gpu } where
  free hf := absurd (ha.symm.trans hf) (by decide)
  flight := l.flight
  flying hcarried := absurd (hc.symm.trans hcarried) (by decide)
  captured := l.captured
  retirement := l.retirement
  late hlate := by simp [hs] at hlate
  lease _ hl := absurd (hleased.symm.trans hl) (by decide)
  signalled hsignal := by simp [hs] at hsignal
  produced hready := by simp [hs] at hready
  once _ _ := .inr (.inr hs)
  home hhome := by simp [Unready, hs] at hhome
  reading hreading := by simp [hs] at hreading
  quarantine := l.quarantine

/-- A packet that goes back to the pool with its snapshot at home. -/
theorem release (l : packet.Lawful told t p) (hc : carried t p = false)
    (hq : packet.quarantined = false) (hhome : loan p told = .home)
    (hs : gpu.state = .idle) (leased : Bool) :
    Packet.Lawful told t p { packet with gpu, assigned := false, leased } where
  free _ := ⟨hq, .inr hs⟩
  flight := l.flight
  flying hcarried := absurd (hc.symm.trans hcarried) (by decide)
  captured ha := by cases ha
  retirement ha := by cases ha
  late hlate := by simp [hs] at hlate
  lease ha := by cases ha
  signalled hsignal := by simp [hs] at hsignal
  produced hready := by simp [hs] at hready
  once ha := by cases ha
  home _ := hhome
  reading hreading := by simp [hs] at hreading
  quarantine := l.quarantine

/-- A recorded packet whose producer's Signal is queued. -/
theorem signal (l : packet.Lawful told t p) (ha : packet.assigned = true)
    (hr : packet.retired = true) (hc : carried t p = false) (hs : packet.gpu.state = .recorded) (hg : gpu.state = .retiring) :
    Packet.Lawful (told ++ [.signalled packet.token gpu.producer_value]) t p { packet with gpu } where
  free hf := absurd (ha.symm.trans hf) (by decide)
  flight := l.flight
  flying hcarried := absurd (hc.symm.trans hcarried) (by decide)
  captured _ := mem_append_left _ (l.captured ha)
  retirement _ _ := mem_append_left _ (l.retirement ha hr)
  late _ := hr
  lease _ hl := absurd ((l.unleased ha (by simp [hs])).symm.trans hl) (by decide)
  signalled _ := mem_snoc.mpr (.inr rfl)
  produced hready := by simp [hg] at hready
  once _ hreturned := absurd (mem_of_mem_snoc hreturned (by simp))
    (l.not_returned ha (l.unleased ha (by simp [hs])) (.inl hs))
  home _ := by
    rw [loan_snoc]
    exact l.home (.inl (.inr (.inr (.inl hs))))
  reading hreading := by simp [hg] at hreading
  quarantine hq := l.quarantine (mem_of_mem_snoc hq (by simp))

/-- A recorded packet that is recorded again. -/
theorem record_again (l : packet.Lawful told t p) (hs : packet.gpu.state = .recorded) (hg : gpu.state = .recorded) (published : scene.SceneCopyMatch) :
    Packet.Lawful told t p { packet with gpu, published } where
  free hf := by simpa [hs] using (l.free hf).2
  flight := l.flight
  flying hc := ⟨(l.flying hc).1, hg⟩
  captured := l.captured
  retirement := l.retirement
  late hlate := by simp [hg] at hlate
  lease ha hl := absurd ((l.unleased ha (by simp [hs])).symm.trans hl) (by decide)
  signalled hsignal := by simp [hg] at hsignal
  produced hready := by simp [hg] at hready
  once ha hr := by simpa [hs, hg] using l.once ha hr
  home _ := l.home (.inl (.inr (.inr (.inl hs))))
  reading hreading := by simp [hg] at hreading
  quarantine := l.quarantine

/-- A packet of the pool, with another texture or none. -/
theorem pooled (l : packet.Lawful told t p) (hf : packet.assigned = false) (hs : gpu.state = .empty ∨ gpu.state = .idle)
    (description : SceneCaptureD3D12.Description) (device_key : Nat) :
    Packet.Lawful told t p { packet with gpu, description, device_key } where
  free _ := ⟨(l.free hf).1, hs⟩
  flight := l.flight
  flying hc := absurd (hf.symm.trans (l.flying hc).1) (by decide)
  captured := l.captured
  retirement := l.retirement
  late hlate := by rcases hs with hs | hs <;> simp [hs] at hlate
  lease ha := absurd (hf.symm.trans ha) (by decide)
  signalled hsignal := by rcases hs with hs | hs <;> simp [hs] at hsignal
  produced hready := by rcases hs with hs | hs <;> simp [hs] at hready
  once ha := absurd (hf.symm.trans ha) (by decide)
  home _ := by
    rcases (l.free hf).2 with hold | hold
    · exact l.home (.inl (.inl hold))
    · exact l.home (.inl (.inr (.inl hold)))
  reading hreading := by rcases hs with hs | hs <;> simp [hs] at hreading
  quarantine := l.quarantine

/-- A packet whose producer is done. -/
theorem finish (l : packet.Lawful told t p) (ha : packet.assigned = true)
    (hleased : packet.leased = false) (hc : carried t p = false)
    (hs : packet.gpu.state = .retiring) (hg : gpu.state = .ready)
    (hproduced : Produced told packet.token) : Packet.Lawful told t p { packet with gpu } where
  free hf := absurd (ha.symm.trans hf) (by decide)
  flight := l.flight
  flying hcarried := absurd (hc.symm.trans hcarried) (by decide)
  captured := l.captured
  retirement := l.retirement
  late _ := l.late (.inl hs)
  lease _ hl := absurd (hleased.symm.trans hl) (by decide)
  signalled hsignal := by simp [hg] at hsignal
  produced _ := hproduced
  once _ hr := absurd hr (l.not_returned ha hleased (.inr (.inl hs)))
  home _ := l.home (.inl (.inr (.inr (.inr hs))))
  reading hreading := by simp [hg] at hreading
  quarantine := l.quarantine

/-- A packet whose readers are done at a value of a fence. -/
theorem consume (l : packet.Lawful told t p) (ha : packet.assigned = true)
    (hc : carried t p = false) (hs : packet.gpu.state = .ready)
    {fence value : Nat} (hg : gpu.state = .consuming) (hfence : gpu.consumer_fence = fence)
    (hvalue : gpu.consumer_value = value) {leased : Bool} (hleased : leased = false) :
    Packet.Lawful (told ++ [.consumed p fence value]) t p { packet with gpu, leased } where
  free hf := absurd (ha.symm.trans hf) (by decide)
  flight := l.flight
  flying hcarried := absurd (hc.symm.trans hcarried) (by decide)
  captured _ := mem_append_left _ (l.captured ha)
  retirement _ hr := mem_append_left _ (l.retirement ha hr)
  late _ := l.late (.inr (.inl hs))
  lease _ hl := absurd (hleased.symm.trans hl) (by decide)
  signalled hsignal := by simp [hg] at hsignal
  produced hready := by simp [hg] at hready
  once _ _ := .inr (.inl hg)
  home hhome := by simp [Unready, hg] at hhome
  reading _ := by
    rw [loan_snoc, hfence, hvalue]
    by_cases hhome : loan p told = .home
    · exact .inl (by simp [lend, hhome])
    · exact .inr (by simp [lend, hhome])
  quarantine hq := l.quarantine (mem_of_mem_snoc hq (by simp))

/-- A packet whose frame is returned. -/
theorem lend_out (l : packet.Lawful told t p) (ha : packet.assigned = true) (hs : packet.gpu.state = .ready) :
    Packet.Lawful (told ++ [.returned packet.token p]) t p { packet with leased := true } where
  free hf := absurd (ha.symm.trans hf) (by decide)
  flight := l.flight
  flying := l.flying
  captured _ := mem_append_left _ (l.captured ha)
  retirement _ hr := mem_append_left _ (l.retirement ha hr)
  late := l.late
  lease _ _ := hs
  signalled hsignal := by simp [hs] at hsignal
  produced hready := (l.produced hready).snoc
  once _ _ := .inl rfl
  home hhome := by simp [Unready, hs] at hhome
  reading hreading := by simp [hs] at hreading
  quarantine hq := l.quarantine (mem_of_mem_snoc hq (by simp))

/-- A packet that joins a receipt or comes back from one. -/
theorem travel (l : packet.Lawful told t p) {t' : Option PacketPool.Transaction} {in_flight : Int}
    (hflight : in_flight = if carried t' p then 1 else 0)
    (hflying : carried t' p = true → packet.assigned = true ∧ packet.gpu.state = .recorded)
    (submitted producer : Nat) (order : FrameOrder) :
    Packet.Lawful told t' p { packet with in_flight, submitted, producer, order } :=
  ⟨l.free, hflight, hflying, l.captured, l.retirement, l.late, l.lease, l.signalled, l.produced,
    l.once, l.home, l.reading, l.quarantine⟩

/-- A receipt contains any tokens but the packet's life goes on. -/
theorem contained (l : packet.Lawful told t p) (receipt : Nat) (tokens : List Nat) :
    packet.Lawful (told ++ tokens.map (.contained receipt)) t p := by
  induction tokens generalizing told with
  | nil => simpa using l
  | cons token rest ih =>
    have hstep := ih (l.snoc (e := .contained receipt token) rfl (by simp) (by simp))
    rw [append_assoc] at hstep
    exact hstep

theorem in_flight_nonneg (l : packet.Lawful told t p) : 0 ≤ packet.in_flight := by
  rw [l.flight]
  split <;> decide

end Packet.Lawful

end

variable {told : List Event} {tokens : List Nat} {receipt : Nat}

theorem mem_contained {x : Event}
    (h : x ∈ told ++ tokens.map (.contained receipt)) (hne : ∀ token, x ≠ .contained receipt token) :
    x ∈ told := by
  rcases mem_append.mp h with hold | hnew
  · exact hold
  obtain ⟨token, -, rfl⟩ := mem_map.mp hnew
  exact absurd rfl (hne token)

/-- A new receipt contains tokens that were not returned. -/
theorem explained_contained (h : Explained Allowed told) (hclosed : .closed receipt ∉ told)
    (htokens : ∀ token ∈ tokens, ∀ p, .returned token p ∉ told) :
    Explained Allowed (told ++ tokens.map (.contained receipt)) := by
  induction tokens generalizing told with
  | nil => simpa using h
  | cons token rest ih =>
    have hallowed : Allowed told (.contained receipt token) := ⟨hclosed, htokens token mem_cons_self⟩
    have hstep := @ih (told ++ [.contained receipt token]) (explained_snoc h hallowed)
      (fun hc => hclosed (mem_of_mem_snoc hc (by simp)))
      (fun other hother p hr => htokens other (mem_cons_of_mem _ hother) p (mem_of_mem_snoc hr (by simp)))
    rw [append_assoc] at hstep
    exact hstep

/-! ## Steps of one packet -/

section
variable {s : PacketPool} {p q : Slot} {e : Event} {packet : Packet}

@[simp] theorem set_packet_self : (s.set_packet p packet).packets p = packet := update_self ..

@[simp] theorem note_packets : (s.note e).packets = s.packets := rfl

theorem set_packet_other (hq : q ≠ p) : (s.set_packet p packet).packets q = s.packets q := update_of_ne hq ..

@[simp] theorem set_list_self (r : Recording) (item : CommandList) :
    (s.set_list r item).lists r = some item := update_self ..

variable {r r' : Recording}

theorem set_list_other (hr : r' ≠ r) (item : CommandList) :
    (s.set_list r item).lists r' = s.lists r' := update_of_ne hr ..

theorem drop_list_other {lists : Recording → Option CommandList}
    (hr : r' ≠ r) : Function.update lists r none r' = lists r' := update_of_ne hr ..

/-- No list has the packet. -/
def Loose (s : PacketPool) (p : Slot) : Prop :=
  ∀ r item, s.lists r = some item → item.packets p = false

theorem Lawful.loose (h : s.Lawful) (ho : ¬ (s.packets p).Open) : s.Loose p := by
  intro r item hitem
  by_contra hp
  rw [Bool.not_eq_false] at hp
  exact ho (h.lists r item p hitem hp)

namespace Lawful

/-- One packet changes and one event is told of it. -/
theorem act (h : s.Lawful) (packet : Packet) (e : Event)
    (htoken : packet.token = (s.packets p).token) (he : e.of p) (hallowed : Allowed s.history e)
    (hpacket : packet.Lawful (s.history ++ [e]) s.transaction p)
    (hlists : s.Loose p ∨ packet.Open) : ((s.set_packet p packet).note e).Lawful where
  explained := explained_snoc h.explained hallowed
  packet q := by
    change (Function.update s.packets p packet q).Lawful (s.history ++ [e]) s.transaction q
    by_cases hq : q = p
    · rw [hq, update_self]
      exact hpacket
    rw [update_of_ne hq]
    exact (h.packet q).other he hq
  tokens_le token q hc := by
    refine h.tokens_le token q (mem_of_mem_snoc hc ?_)
    rintro rfl
    exact he
  one_slot token q q' hc hc' := by
    refine h.one_slot token q q' (mem_of_mem_snoc hc ?_) (mem_of_mem_snoc hc' ?_)
    · rintro rfl
      exact he
    · rintro rfl
      exact he
  returned_captured token q hr := by
    rcases mem_snoc.mp hr with hold | rfl
    · exact mem_append_left _ (h.returned_captured token q hold)
    · exact mem_append_left _ hallowed.2.1
  receipts receipt token hc := by
    have hold := mem_of_mem_snoc hc (by rintro rfl; exact he)
    rcases h.receipts receipt token hold with hclosed | ⟨t, q, ht, hid, hq, htok⟩
    · exact .inl (mem_append_left _ hclosed)
    refine .inr ⟨t, q, ht, hid, hq, ?_⟩
    change (Function.update s.packets p packet q).token = token
    by_cases hqp : q = p
    · rw [hqp, update_self, htoken, ← hqp]
      exact htok
    rw [update_of_ne hqp]
    exact htok
  closed_le receipt hc := h.closed_le receipt (mem_of_mem_snoc hc (by rintro rfl; exact he))
  open_receipt t ht := by
    refine ⟨(h.open_receipt t ht).1, fun hc => (h.open_receipt t ht).2 (mem_of_mem_snoc hc ?_)⟩
    rintro rfl
    exact he
  lists r item q hitem hq := by
    change (Function.update s.packets p packet q).Open
    by_cases hqp : q = p
    · rw [hqp, update_self]
      rcases hlists with hloose | hopen
      · rw [hqp, hloose r item hitem] at hq
        cases hq
      · exact hopen
    rw [update_of_ne hqp]
    exact h.lists r item q hitem hq
  one_list := h.one_list

/-- One packet changes and nothing is told. -/
theorem change (h : s.Lawful) (packet : Packet) (htoken : packet.token = (s.packets p).token)
    (hpacket : packet.Lawful s.history s.transaction p)
    (hlists : s.Loose p ∨ packet.Open) : (s.set_packet p packet).Lawful where
  explained := h.explained
  packet q := by
    by_cases hq : q = p
    · rw [hq, set_packet_self]
      exact hpacket
    rw [set_packet_other hq]
    exact h.packet q
  tokens_le := h.tokens_le
  one_slot := h.one_slot
  returned_captured := h.returned_captured
  receipts receipt token hc := by
    rcases h.receipts receipt token hc with hclosed | ⟨t, q, ht, hid, hq, htok⟩
    · exact .inl hclosed
    refine .inr ⟨t, q, ht, hid, hq, ?_⟩
    by_cases hqp : q = p
    · rw [hqp, set_packet_self, htoken, ← hqp]
      exact htok
    rw [set_packet_other hqp]
    exact htok
  closed_le := h.closed_le
  open_receipt := h.open_receipt
  lists r item q hitem hq := by
    by_cases hqp : q = p
    · rw [hqp, set_packet_self]
      rcases hlists with hloose | hopen
      · rw [hqp, hloose r item hitem] at hq
        cases hq
      · exact hopen
    rw [set_packet_other hqp]
    exact h.lists r item q hitem hq
  one_list := h.one_list

/-- What is told of a packet that stays as it is. -/
theorem tell (h : s.Lawful) (e : Event) (he : e.of p) (hallowed : Allowed s.history e)
    (hpacket : (s.packets p).Lawful (s.history ++ [e]) s.transaction p) : (s.note e).Lawful := by
  have hact := h.act (p := p) (s.packets p) e rfl he hallowed hpacket ?_
  · have hsame : s.set_packet p (s.packets p) = s := by
      unfold set_packet
      rw [Function.update_eq_self]
    rwa [hsame] at hact
  · by_cases ho : (s.packets p).Open
    · exact .inr ho
    · exact .inl (h.loose ho)

/-- Devices, the budget and the switch are not part of the invariant. -/
theorem of_same {s' : PacketPool} (h : s.Lawful) (hpackets : s'.packets = s.packets)
    (hlists : s'.lists = s.lists) (ht : s'.transaction = s.transaction)
    (htoken : s'.next_token = s.next_token) (hreceipt : s'.next_receipt = s.next_receipt)
    (hhistory : s'.history = s.history) : s'.Lawful where
  explained := by rw [hhistory]; exact h.explained
  packet := by rw [hpackets, hhistory, ht]; exact h.packet
  tokens_le := by rw [hhistory, htoken]; exact h.tokens_le
  one_slot := by rw [hhistory]; exact h.one_slot
  returned_captured := by rw [hhistory]; exact h.returned_captured
  receipts := by rw [hpackets, hhistory, ht]; exact h.receipts
  closed_le := by rw [hhistory, hreceipt]; exact h.closed_le
  open_receipt := by rw [hhistory, ht, hreceipt]; exact h.open_receipt
  lists := by rw [hpackets, hlists]; exact h.lists
  one_list := by rw [hlists]; exact h.one_list

theorem set_device (h : s.Lawful) (key : Nat) (owner : PacketPool.Device) :
    (s.set_device key owner).Lawful := h.of_same rfl rfl rfl rfl rfl rfl

/-- Lists with fewer packets, each where it was. -/
theorem fewer {lists : Recording → Option CommandList} (h : s.Lawful)
    (hsub : ∀ r item, lists r = some item → ∀ p, item.packets p = true →
      ∃ old, s.lists r = some old ∧ old.packets p = true) :
    Lawful { s with lists } where
  explained := h.explained
  packet := h.packet
  tokens_le := h.tokens_le
  one_slot := h.one_slot
  returned_captured := h.returned_captured
  receipts := h.receipts
  closed_le := h.closed_le
  open_receipt := h.open_receipt
  lists r item p hitem hp := by
    obtain ⟨old, hold, hbit⟩ := hsub r item hitem p hp
    exact h.lists r old p hold hbit
  one_list r other item rival p hitem hrival hp hp' := by
    obtain ⟨old, hold, hbit⟩ := hsub r item hitem p hp
    obtain ⟨old', hold', hbit'⟩ := hsub other rival hrival p hp'
    exact h.one_list r other old old' p hold hold' hbit hbit'

theorem set_list (h : s.Lawful) (r : Recording) (item : CommandList)
    (hsub : ∀ p, item.packets p = true → ∃ old, s.lists r = some old ∧ old.packets p = true) :
    (s.set_list r item).Lawful := by
  refine h.fewer fun r' item' hitem p hp => ?_
  by_cases hr : r' = r
  · subst hr
    rw [update_self] at hitem
    cases hitem
    exact hsub p hp
  rw [update_of_ne hr] at hitem
  exact ⟨item', hitem, hp⟩

theorem drop_list (h : s.Lawful) (r : Recording) : Lawful { s with lists := Function.update s.lists r none } := by
  refine h.fewer fun r' item hitem p hp => ?_
  by_cases hr : r' = r
  · subst hr
    rw [update_self] at hitem
    cases hitem
  rw [update_of_ne hr] at hitem
  exact ⟨item, hitem, hp⟩

/-! ### Quarantine -/

theorem quarantine (h : s.Lawful) (ha : (s.packets p).assigned = true) : (s.quarantine p).Lawful := by
  unfold PacketPool.quarantine
  split
  · exact h
  have l := h.packet p
  have lq : Packet.Lawful s.history s.transaction p { s.packets p with quarantined := true } :=
    ⟨fun hf => absurd (ha.symm.trans hf) (by decide), l.flight, l.flying, l.captured, l.retirement,
      l.late, l.lease, l.signalled, l.produced, l.once, l.home, l.reading, fun _ => rfl⟩
  refine h.act _ _ rfl rfl trivial (lq.snoc rfl (by simp) fun _ => rfl) ?_
  by_cases ho : (s.packets p).Open
  · exact .inr ho
  · exact .inl (h.loose ho)

end Lawful

end

end PacketPool

end taxi_camera.SceneCaptureManager
