-- Every call of the submission pool keeps its books, over all runs; packets
-- keep what they hold while their copies may still run, and watermarks only
-- rise.
import TaxiCam.PoolAccounting

namespace taxi_camera.pfd_submission

open List
open Function (update_of_ne update_self)
open Pool (at_slot cancel_packet complete create lose raise record service_packet start step submit_packet)

variable {initial : Nat → Nat} {s s' : Pool} {i j : Fin 16}

/-! ## Reports that drop a copy -/

/-- Drops what a live packet may still report, for a reason that is in the history. -/
theorem Books.drop_live (h : Opened initial s i) (source : DropSource)
    (hlive : s.live i = true → s.log.countP (reports (s.packets i).copy) = 0)
    (hcause : s.live i = true → Cause s.log (s.packets i).copy source) :
    Opened initial (if s.live i then s.report_dropped i source else s) i := by
  split
  · rename_i hl
    exact report_dropped h (hlive hl) (hcause hl)
  · exact h

/-- The state of a live packet says that its copy is not reported yet. -/
theorem Sound.live (h : Sound s.log (s.packets i)) (hl : s.live i = true) :
    (s.packets i).copy ≠ 0 ∧ s.log.countP (reports (s.packets i).copy) = 0 :=
  h.unreported (live_iff.mp hl)

theorem Sound.noted (h : Sound s.log (s.packets i)) {e : Event}
    (he : ∀ copy, reports copy e = false) (hl : (s.note e).live i = true) :
    (s.note e).log.countP (reports ((s.note e).packets i).copy) = 0 := by
  show (s.log ++ [e]).countP (reports (s.packets i).copy) = 0
  rw [countP_append, (h.live hl).2, countP_singleton, he]
  rfl

theorem Books.set_state (h : Opened initial s i) (state : State) :
    Opened initial (s.set_state i state) i := Books.packet h (Or.inl rfl)

theorem set_state_packet (state : State) :
    (s.set_state i state).packets i = { s.packets i with state } := update_self ..

/-- A packet that leaves the live states is in order again. -/
theorem Books.retire (h : Opened initial s i) {state : State} (hr : state ≠ .recorded)
    (hs : state ≠ .submitted) : Accounted initial (s.set_state i state) := by
  refine (h.set_state state).closed (sound_idle ?_ ?_) <;> rw [set_state_packet]
  · exact hr
  · exact hs

/-! ## The calls on one packet -/

theorem quarantine_packet_books (h : Accounted initial s) : Accounted initial (s.quarantine_packet i) := by
  have hnote : Opened initial (s.note (.quarantined (s.packets i).copy)) i :=
    (h.opened i).note (.inl rfl) (fun _ => rfl) trivial (fun _ => rfl) nofun
  unfold Pool.quarantine_packet
  exact Books.retire (Books.drop_live hnote .quarantined ((h.sound i trivial).noted fun _ => rfl)
    fun _ => mem_append_right _ mem_cons_self) nofun nofun

theorem cancel_packet_books (h : Accounted initial s) : Accounted initial (s.cancel_packet i) := by
  have hnote : Opened initial (s.note (.cancelled (s.packets i).copy)) i :=
    (h.opened i).note (.inl rfl) (fun _ => rfl) trivial (fun _ => rfl) nofun
  have hdrop := Books.drop_live hnote .cancelled ((h.sound i trivial).noted fun _ => rfl)
    fun _ => mem_append_right _ mem_cons_self
  unfold cancel_packet
  dsimp only
  generalize (if (s.note (.cancelled (s.packets i).copy)).live i then
    (s.note (.cancelled (s.packets i).copy)).report_dropped i .cancelled
    else s.note (.cancelled (s.packets i).copy)) = t at hdrop ⊢
  split
  · exact hdrop.retire nofun nofun
  rename_i hr
  split
  · exact hdrop.retire nofun nofun
  rename_i hs
  exact hdrop.closed (sound_idle hr hs)

theorem submit_packet_books (h : Accounted initial s) (value : Nat) :
    Accounted initial (s.submit_packet i value) := by
  have hsound := h.sound i trivial
  unfold submit_packet
  dsimp only
  split
  · rename_i hrefused
    have hnote : Opened initial (s.note (.covered (s.packets i).copy value)) i :=
      (h.opened i).note (.inl rfl) (fun _ => rfl) trivial (fun _ => rfl) fun _ hc => beq_iff_eq.mp hc
    refine Books.retire (Books.drop_live hnote .unsubmitted (hsound.noted fun _ => rfl) fun hl => ?_) nofun nofun
    -- The value is no fence value, or the copy has one already.
    rcases hrefused with hstate | h0 | hmax
    · have hsub := (live_iff.mp hl).resolve_left hstate
      exact .inr (covered_twice (hsound.submitted hsub))
    · exact .inl ⟨value, mem_append_right _ mem_cons_self, .inl h0⟩
    · exact .inl ⟨value, mem_append_right _ mem_cons_self, .inr hmax⟩
  rename_i haccepted
  simp only [not_or, not_not] at haccepted
  obtain ⟨hstate, -, -⟩ := haccepted
  have hpacket : Opened initial (s.set_packet i
      { s.packets i with covering_value := value, state := .submitted }) i :=
    (h.opened i).packet (.inl rfl)
  refine Books.closed (hpacket.note (.inl ?_) (fun _ => rfl) trivial (fun _ => rfl) fun _ hc => beq_iff_eq.mp hc) ?_
  · rw [set_packet_packets, if_pos rfl]
    rfl
  · show Sound (s.log ++ [_]) ((s.set_packet i _).packets i)
    rw [set_packet_packets, if_pos rfl]
    obtain ⟨hc, hn⟩ := hsound.unreported (.inl hstate)
    refine ⟨fun _ => ⟨hc, ?_⟩, nofun, fun _ => ⟨s.log, [], rfl, hsound.recorded hstate, rfl⟩⟩
    rw [countP_append, hn]
    rfl

/-! ## Recording -/

theorem countP_past {p : Event → Bool} {n : Nat} (h : ∀ e ∈ s.log, e.copy ≤ n)
    (hp : ∀ e, p e = true → e.copy = n + 1) : s.log.countP p = 0 := by
  rw [countP_eq_zero]
  intro e he hpe
  have := h e he
  have := hp e hpe
  omega

theorem take_books (h : Accounted initial s) (copy : Copy) : Accounted initial (s.take i copy) := by
  have hother : ∀ j, j ≠ i → (s.take i copy).packets j = s.packets j := fun j hj => update_of_ne hj ..
  have hself : ((s.take i copy).packets i).copy = s.recordings + 1 ∧
      ((s.take i copy).packets i).state = .recorded := by
    have : (s.take i copy).packets i =
        { s.packets i with target := copy.target, source := copy.source, save := copy.save
                           completed := copy.completed, dropped := copy.dropped
                           drop_sources := copy.drop_sources
                           completed_value := copy.completed_value
                           state := .recorded, copy := s.recordings + 1 } :=
      update_self ..
    rw [this]
    exact ⟨rfl, rfl⟩
  have hlog : (s.take i copy).log = s.log ++ [Event.recorded (s.recordings + 1)] := rfl
  refine ⟨fun j => ?_, fun e he => ?_, fun j k he hne => ?_, fun c => ?_,
    histories.explained_snoc h.explained trivial, ?_, fun j _ => ?_⟩
  · show _ ≤ s.recordings + 1
    by_cases hj : j = i
    · rw [hj, hself.1]
    rw [hother j hj]
    exact Nat.le_succ_of_le (h.bounded j)
  · rw [hlog] at he
    rcases mem_append.mp he with he | he
    · exact Nat.le_succ_of_le (h.past e he)
    rw [mem_singleton] at he
    rw [he]
    exact le_rfl
  · have hbound : ∀ m, m ≠ i → ((s.take i copy).packets m).copy ≠ s.recordings + 1 := by
      intro m hm hcopy
      rw [hother m hm] at hcopy
      have := h.bounded m
      omega
    by_cases hj : j = i <;> by_cases hk : k = i
    · exact hj.trans hk.symm
    · rw [hj, hself.1] at he
      exact absurd he.symm (hbound k hk)
    · rw [hk, hself.1] at he
      exact absurd he (hbound j hj)
    · rw [hother j hj] at he hne
      rw [hother k hk] at he
      exact h.unique j k he hne
  · rw [hlog, countP_append]
    exact h.once c
  · show s.watermarks = (s.log ++ [_]).foldl raised initial
    rw [foldl_append, ← h.marks]
    rfl
  · rw [hlog]
    by_cases hj : j = i
    · rw [hj]
      have hfresh : ∀ p : Event → Bool, (∀ e, p e = true → e.copy = s.recordings + 1) →
          p (.recorded (s.recordings + 1)) = false →
          (s.log ++ [Event.recorded (s.recordings + 1)]).countP p = 0 := by
        intro p hp hnew
        rw [countP_append, countP_past h.past hp, countP_singleton, hnew]
        rfl
      refine ⟨fun _ => ?_, fun _ => ?_, fun hs => ?_⟩
      · rw [hself.1]
        refine ⟨Nat.succ_ne_zero _, hfresh _ (fun e he => ?_) rfl⟩
        cases e <;> first | exact beq_iff_eq.mp he | cases he
      · rw [hself.1]
        refine hfresh _ (fun e he => ?_) rfl
        cases e <;> first | exact beq_iff_eq.mp he | cases he
      · rw [hself.2] at hs
        cases hs
    rw [hother j hj]
    exact (h.sound j trivial).snoc fun _ => ⟨rfl, rfl⟩

theorem record_books (h : Accounted initial s) (natives : Natives) (copy : Copy) (closed : Bool) :
    Accounted initial (s.record natives copy closed).1 := by
  unfold record
  split
  · exact h
  split
  · exact h
  rename_i i _
  have ht := take_books (i := i) h copy
  split
  · have hlive : (s.take i copy).live i = true := by
      refine live_iff.mpr (.inl ?_)
      show (Function.update s.packets i _ i).state = .recorded
      rw [update_self]
    have hzero := ((ht.sound i trivial).live hlive).2
    have hnote : Opened initial (((s.take i copy).set_state i .quarantined).note
        (.close_failed ((s.take i copy).packets i).copy)) i := by
      refine ((ht.opened i).set_state .quarantined).note (.inl ?_) (fun _ => rfl) trivial (fun _ => rfl) nofun
      rw [set_state_packet]
      rfl
    have hpacket : (((s.take i copy).set_state i .quarantined).packets i).copy =
        ((s.take i copy).packets i).copy := by
      rw [set_state_packet]
    refine Books.closed (Books.report_dropped hnote ?_ ?_) ?_
    · show ((s.take i copy).log ++ [_]).countP
        (reports (((s.take i copy).set_state i .quarantined).packets i).copy) = 0
      rw [hpacket, countP_append, hzero]
      rfl
    · show Event.close_failed (((s.take i copy).set_state i .quarantined).packets i).copy ∈ _
      rw [hpacket]
      exact mem_append_right _ mem_cons_self
    · obtain ⟨dropped, drop_sources, hp⟩ := report_dropped_packet
        (s := ((s.take i copy).set_state i .quarantined).note
          (.close_failed ((s.take i copy).packets i).copy)) (i := i) .close_failed
      have hstate : (((((s.take i copy).set_state i .quarantined).note
          (.close_failed ((s.take i copy).packets i).copy)).report_dropped i
            .close_failed).packets i).state = .quarantined := by
        rw [hp]
        show (((s.take i copy).set_state i .quarantined).packets i).state = .quarantined
        rw [set_state_packet]
      refine sound_idle ?_ ?_ <;> rw [hstate] <;> exact nofun
  · exact ht

/-! ## Service -/

theorem lose_books (h : Accounted initial s) (hlost : Event.lost ∈ s.log) :
    Accounted initial (s.lose i) ∧ Event.lost ∈ (s.lose i).log := by
  constructor
  · exact Books.retire (Books.drop_live (h.opened i) .device_lost
      (fun hl => ((h.sound i trivial).live hl).2) fun _ => hlost) nofun nofun
  · show Event.lost ∈ (if s.live i then s.report_dropped i .device_lost else s).log
    split
    · unfold Pool.report_dropped
      dsimp only
      split
      · exact hlost
      · exact mem_append_left _ hlost
    · exact hlost

/-- The packet's covering value may be compared with a value that a service saw. -/
def Seen (s : Pool) (seen : Nat) (i : Fin 16) : Prop :=
  (s.packets i).state = .submitted → Reached s.log (s.packets i).copy (s.packets i).covering_value
    seen

/-- Only one packet changes, and nothing is submitted. -/
structure Alone (s : Pool) (i : Fin 16) (s' : Pool) : Prop where
  others : ∀ j, j ≠ i → s'.packets j = s.packets j
  log : ∃ more, s'.log = s.log ++ more ∧ ∀ e ∈ more, ∀ copy, covers copy e = false

theorem alone_refl (s : Pool) (i : Fin 16) : Alone s i s := ⟨fun _ _ => rfl, [], (append_nil _).symm, nofun⟩

theorem Alone.trans {t : Pool} (h : Alone s i t) (ht : Alone t i s') : Alone s i s' := by
  obtain ⟨more, hlog, hmore⟩ := h.log
  obtain ⟨rest, hrest, hr⟩ := ht.log
  refine ⟨fun j hj => (ht.others j hj).trans (h.others j hj), more ++ rest, ?_, fun e he => ?_⟩
  · rw [hrest, hlog, append_assoc]
  · exact (mem_append.mp he).elim (hmore e) (hr e)

theorem alone_packet (p : Packet) : Alone s i (s.set_packet i p) :=
  ⟨fun _ hj => update_of_ne hj .., [], (append_nil _).symm, nofun⟩

theorem Alone.seen (h : Alone s i s') (hj : j ≠ i) {seen : Nat} (hs : Seen s seen j) :
    Seen s' seen j := by
  obtain ⟨more, hlog, hmore⟩ := h.log
  intro hstate
  rw [h.others j hj] at hstate ⊢
  obtain ⟨before, after, hsplit, hb, ha, hsaw⟩ := hs hstate
  refine ⟨before, after ++ more, ?_, hb, ?_, mem_append_left _ hsaw⟩
  · rw [hlog, hsplit, append_assoc, cons_append]
  · rw [countP_append, ha, countP_eq_zero.mpr]
    intro e he
    rw [hmore e he]
    exact Bool.false_ne_true

theorem complete_alone : Alone s i (s.complete i) := by
  unfold complete
  dsimp only
  split
  · exact alone_packet _
  refine ⟨fun j hj => update_of_ne hj .., [_], rfl, fun e he copy => ?_⟩
  rw [mem_singleton] at he
  rw [he]
  rfl

theorem complete_books (h : Accounted initial s) (hs : (s.packets i).state = .submitted)
    {seen : Nat} (hreached : Seen s seen i) (hle : (s.packets i).covering_value ≤ seen) :
    Accounted initial (s.complete i) := by
  have hopen := h.opened i
  have hzero := ((h.sound i trivial).unreported (.inr hs)).2
  have hidle : ∀ t : Pool, (t.set_packet i
      { s.packets i with dropped := none, state := .retired }).packets i =
        { s.packets i with dropped := none, state := .retired } := by
    intro t
    rw [set_packet_packets, if_pos rfl]
  unfold complete
  dsimp only
  split
  · refine Books.closed (hopen.packet (.inl rfl)) (sound_idle ?_ ?_) <;> rw [hidle] <;>
      exact nofun
  rename_i a _
  have hreport := Books.report (e := Event.completed (s.packets i).copy a
    (s.packets i).completed_value) hopen (w := _) rfl hzero
    (fun copy hc => (beq_iff_eq.mp hc).symm) (fun _ => rfl) ⟨_, seen, hreached hs, hle⟩ rfl
  refine Books.closed (Books.packet hreport (.inl rfl)) (sound_idle ?_ ?_) <;> rw [hidle] <;>
    exact nofun

theorem release_alone : Alone s i (s.release_resources i) := by
  refine ⟨fun j hj => update_of_ne hj .., [_], rfl, fun e he copy => ?_⟩
  rw [mem_singleton] at he
  rw [he]
  rfl

theorem release_books (h : Accounted initial s) : Opened initial (s.release_resources i) i := by
  have hpacket : Opened initial (s.set_packet i
      { s.packets i with target := 0, source := 0, save := 0, completed := none, dropped := none
                         drop_sources := none, completed_value := 0, covering_value := 0
                         copy := 0 }) i := (h.opened i).packet (.inr rfl)
  have hnote := hpacket.bounded
  refine ⟨hpacket.bounded, fun e he => ?_, hpacket.unique, fun copy => ?_,
    histories.explained_snoc h.explained trivial, ?_, fun j hj => ?_⟩
  · rcases mem_append.mp he with he | he
    · exact h.past e he
    rw [mem_singleton] at he
    rw [he]
    exact h.bounded i
  · show (s.log ++ [_]).countP (reports copy) ≤ 1
    rw [countP_append]
    exact h.once copy
  · show s.watermarks = (s.log ++ [_]).foldl raised initial
    rw [foldl_append, ← h.marks]
    rfl
  · exact (hpacket.sound j hj).snoc fun _ => ⟨rfl, rfl⟩

theorem create_books (h : Accounted initial s) (o : Pool.ServiceOutcome) : Accounted initial (s.create o i) := by
  unfold create
  split
  · refine Books.closed ((h.opened i).packet (.inl rfl)) (sound_idle ?_ ?_) <;>
      rw [set_packet_packets, if_pos rfl] <;> exact nofun
  split
  · refine Books.closed ((h.opened i).packet (.inl rfl)) (sound_idle ?_ ?_) <;>
      rw [set_packet_packets, if_pos rfl] <;> exact nofun
  refine Books.closed ((h.opened i).packet (.inl rfl)) (sound_idle ?_ ?_) <;>
    rw [set_packet_packets, if_pos rfl] <;> exact nofun

theorem create_alone (o : Pool.ServiceOutcome) : Alone s i (s.create o i) := by
  unfold create
  split
  · exact alone_packet _
  split
  · exact alone_packet _
  · exact alone_packet _

/-- The second half of a packet's service: a retired packet is released, an empty one gets
its list. -/
def Pool.renew (outcomes : Fin 16 → Pool.ServiceOutcome) (s : Pool) (i : Fin 16) : Pool :=
  if (s.packets i).state = .retired then
    let s := s.release_resources i
    if (outcomes i).reset = false then s.set_state i .quarantined else s.set_state i .ready
  else if (s.packets i).state = .empty then s.create (outcomes i) i
  else s

theorem renew_alone (outcomes : Fin 16 → Pool.ServiceOutcome) : Alone s i (s.renew outcomes i) := by
  unfold Pool.renew
  split
  · dsimp only
    split
    · exact release_alone.trans (alone_packet _)
    · exact release_alone.trans (alone_packet _)
  split
  · exact create_alone _
  · exact alone_refl s i

theorem renew_books (h : Accounted initial s) (outcomes : Fin 16 → Pool.ServiceOutcome) :
    Accounted initial (s.renew outcomes i) := by
  unfold Pool.renew
  split
  · have hr : Opened initial (s.release_resources i) i := release_books h
    split
    · exact hr.retire nofun nofun
    · exact hr.retire nofun nofun
  split
  · exact create_books h _
  · exact h

theorem service_packet_alone (completed : Nat) (outcomes : Fin 16 → Pool.ServiceOutcome) :
    Alone s i (s.service_packet completed outcomes i) := by
  unfold service_packet
  by_cases hdone : (s.packets i).state = .submitted ∧ (s.packets i).covering_value ≤ completed
  · rw [if_pos hdone]
    exact complete_alone.trans (renew_alone outcomes)
  rw [if_neg hdone]
  exact renew_alone outcomes

variable {completed : Nat}

theorem service_packet_books (h : Accounted initial s)
    (hseen : Seen s completed i) (outcomes : Fin 16 → Pool.ServiceOutcome) :
    Accounted initial (s.service_packet completed outcomes i) := by
  unfold service_packet
  by_cases hdone : (s.packets i).state = .submitted ∧ (s.packets i).covering_value ≤ completed
  · rw [if_pos hdone]
    exact renew_books (complete_books h hdone.1 hseen hdone.2) outcomes
  rw [if_neg hdone]
  exact renew_books h outcomes

theorem service_packets_books (h : Accounted initial s)
    (outcomes : Fin 16 → Pool.ServiceOutcome) (rest : List (Fin 16)) (hn : rest.Nodup)
    (hseen : ∀ i ∈ rest, Seen s completed i) :
    Accounted initial (rest.foldl (service_packet completed outcomes) s) := by
  induction rest generalizing s with
  | nil => exact h
  | cons i rest ih =>
    obtain ⟨hi, hn⟩ := nodup_cons.mp hn
    refine ih (service_packet_books h (hseen i mem_cons_self) outcomes) hn fun j hj => ?_
    have hne : j ≠ i := by
      intro he
      rw [he] at hj
      exact hi hj
    exact (service_packet_alone completed outcomes).seen hne (hseen j (mem_cons_of_mem _ hj))

/-- What a service does to the packets. -/
theorem service_cases (s : Pool) (device completed : Nat) (outcomes : Fin 16 → Pool.ServiceOutcome) :
    (s.service device completed outcomes).1 = s ∨
      completed = UINT64_MAX ∧ (s.service device completed outcomes).1 =
        (List.finRange 16).foldl lose (s.note .lost) ∨
      completed ≠ UINT64_MAX ∧ (s.service device completed outcomes).1 =
        (List.finRange 16).foldl (service_packet completed outcomes) (s.see device completed) := by
  unfold Pool.service
  by_cases hdevice : device = 0 ∨ (s.device ≠ 0 ∧ s.device ≠ device)
  · rw [if_pos hdevice]
    exact .inl rfl
  rw [if_neg hdevice]
  by_cases hmax : completed = UINT64_MAX
  · rw [if_pos hmax]
    exact .inr (.inl ⟨hmax, rfl⟩)
  rw [if_neg hmax]
  dsimp only
  exact .inr (.inr ⟨hmax, rfl⟩)

theorem service_books (h : Accounted initial s) (device completed : Nat) (outcomes : Fin 16 → Pool.ServiceOutcome) :
    Accounted initial (s.service device completed outcomes).1 := by
  have hnote : ∀ (t : Pool) (e : Event), Accounted initial t → e.copy = 0 →
      (∀ copy, reports copy e = false ∧ covers copy e = false) → why t.log e →
      (∀ w, raised w e = w) → Accounted initial (t.note e) := by
    intro t e ht h0 hsilent hwhy hraised
    refine Books.closed ((ht.opened 0).note (.inr h0) (fun c => (hsilent c).1) hwhy hraised
      fun c hc => ?_) ((ht.sound 0 trivial).snoc fun _ => hsilent _)
    rw [(hsilent c).2] at hc
    cases hc
  rcases service_cases s device completed outcomes with he | ⟨-, he⟩ | ⟨-, he⟩ <;> rw [he]
  · exact h
  · have hlost : Accounted initial (s.note .lost) := hnote s .lost h rfl (fun _ => ⟨rfl, rfl⟩) trivial fun _ => rfl
    have hfold : ∀ (l : List (Fin 16)) (t : Pool), Accounted initial t → Event.lost ∈ t.log →
        Accounted initial (l.foldl lose t) := by
      intro l
      induction l with
      | nil => exact fun t ht _ => ht
      | cons i rest ih =>
        intro t ht hl
        obtain ⟨hbooks, hin⟩ := lose_books (i := i) ht hl
        exact ih _ hbooks hin
    exact hfold _ _ hlost (mem_append_right _ mem_cons_self)
  · have hnoted := hnote s (.saw completed) h rfl (fun _ => ⟨rfl, rfl⟩) trivial fun _ => rfl
    have hsaw : Accounted initial (s.see device completed) :=
      ⟨hnoted.bounded, hnoted.past, hnoted.unique, hnoted.once, hnoted.explained, hnoted.marks, hnoted.sound⟩
    have hseen : ∀ i, Seen (s.see device completed) completed i :=
      fun i hs => reached_of_covered ((h.sound i trivial).submitted hs) completed
    exact service_packets_books hsaw outcomes _ (nodup_finRange 16) fun i _ => hseen i

/-! ## Runs -/

theorem at_slot_books (h : Accounted initial s) (slot : Nat) (call : Pool → Fin 16 → Pool)
    (hcall : ∀ i, Accounted initial (call s i)) : Accounted initial (s.at_slot slot call) := by
  unfold at_slot
  split
  · exact hcall _
  · exact h

/-- Every call keeps the books. -/
theorem step_books (h : Accounted initial s) (op : Pool.Op) : Accounted initial (s.step op) := by
  cases op with
  | service device completed outcomes => exact service_books h device completed outcomes
  | record natives copy closed => exact record_books h natives copy closed
  | submit slot value =>
    exact at_slot_books h slot (fun s i => s.submit_packet i value) fun _ => submit_packet_books h value
  | cancel slot => exact at_slot_books h slot _ fun _ => cancel_packet_books h
  | quarantine slot => exact at_slot_books h slot _ fun _ => quarantine_packet_books h

theorem start_books (watermarks : Nat → Nat) (drops : Nat → DropSource → Nat) :
    Accounted watermarks (start watermarks drops) where
  bounded _ := le_rfl
  past _ h := by cases h
  unique _ _ _ h := absurd rfl h
  once _ := Nat.zero_le _
  explained := histories.explained_nil
  marks := rfl
  sound _ _ := sound_idle nofun nofun

theorem run_books (watermarks : Nat → Nat) (drops : Nat → DropSource → Nat) (ops : List Pool.Op) :
    Accounted watermarks (runs.run step (start watermarks drops) ops) := by
  have hstep : ∀ t op, Accounted watermarks t → Accounted watermarks (t.step op) := fun _ op h => step_books h op
  exact runs.invariant hstep ops (start_books watermarks drops)

/-! ## What packets hold -/

/-- The copy of a packet, the resources that it references, and its list. -/
def Packet.hold (p : Packet) : Nat × Nat × Nat × Nat × Bool × Bool :=
  (p.copy, p.target, p.source, p.save, p.allocator, p.list)

theorem report_dropped_hold (source : DropSource) :
    ((s.report_dropped i source).packets j).hold = (s.packets j).hold := by
  by_cases hj : j = i
  · obtain ⟨dropped, drop_sources, hp⟩ := report_dropped_packet (s := s) (i := i) source
    rw [hj, hp]
    rfl
  · rw [report_dropped_others source hj]

theorem drop_live_hold (source : DropSource) (live : Bool) :
    ((if live then s.report_dropped i source else s).packets j).hold = (s.packets j).hold := by
  split
  · exact report_dropped_hold source
  · rfl

theorem set_state_hold (state : State) : ((s.set_state i state).packets j).hold = (s.packets j).hold := by
  unfold Pool.set_state
  rw [set_packet_packets]
  split
  · rename_i hj
    rw [hj]
    rfl
  · rfl

theorem submit_packet_hold (value : Nat) : ((s.submit_packet i value).packets j).hold = (s.packets j).hold := by
  unfold submit_packet
  dsimp only
  split
  · rw [set_state_hold]
    exact drop_live_hold (s := s.note _) _ _
  show ((s.set_packet i _).packets j).hold = _
  rw [set_packet_packets]
  split
  · rename_i hj
    rw [hj]
    rfl
  · rfl

theorem cancel_packet_hold : ((s.cancel_packet i).packets j).hold = (s.packets j).hold := by
  have hdrop : ((if (s.note (.cancelled (s.packets i).copy)).live i then
      (s.note (.cancelled (s.packets i).copy)).report_dropped i .cancelled
      else s.note (.cancelled (s.packets i).copy)).packets j).hold = (s.packets j).hold :=
    drop_live_hold (s := s.note _) _ _
  unfold cancel_packet
  dsimp only
  generalize (if (s.note (.cancelled (s.packets i).copy)).live i then
    (s.note (.cancelled (s.packets i).copy)).report_dropped i .cancelled
    else s.note (.cancelled (s.packets i).copy)) = t at hdrop ⊢
  split
  · rw [set_state_hold]
    exact hdrop
  split
  · rw [set_state_hold]
    exact hdrop
  · exact hdrop

theorem quarantine_packet_hold : ((s.quarantine_packet i).packets j).hold = (s.packets j).hold := by
  unfold Pool.quarantine_packet
  rw [set_state_hold]
  exact drop_live_hold (s := s.note _) _ _

theorem lose_hold : ((s.lose i).packets j).hold = (s.packets j).hold := by
  unfold lose
  rw [set_state_hold]
  exact drop_live_hold _ _

theorem loses_hold (l : List (Fin 16)) : ((l.foldl lose s).packets j).hold = (s.packets j).hold := by
  induction l generalizing s with
  | nil => rfl
  | cons i rest ih => exact (ih (s := s.lose i)).trans lose_hold

/-- A packet that a service with this fence value has nothing to do for. -/
def Unserviced (p : Packet) (completed : Nat) : Prop :=
  p.state = .recorded ∨ p.state = .quarantined ∨
    p.state = .submitted ∧ completed < p.covering_value

theorem service_packet_unserviced (outcomes : Fin 16 → Pool.ServiceOutcome) (h : Unserviced (s.packets j) completed) :
    (s.service_packet completed outcomes i).packets j = s.packets j := by
  by_cases hj : j = i
  · subst hj
    have hkeep : s.service_packet completed outcomes j = s := by
      unfold service_packet
      have hdone : ¬((s.packets j).state = .submitted ∧ (s.packets j).covering_value ≤ completed) := by
        rintro ⟨hs, hle⟩
        rcases h with hr | hq | ⟨-, hlt⟩
        · exact nomatch hr.symm.trans hs
        · exact nomatch hq.symm.trans hs
        · omega
      have hstate : (s.packets j).state ≠ .retired ∧ (s.packets j).state ≠ .empty := by
        rcases h with hr | hq | ⟨hs, -⟩
        · simp [hr]
        · simp [hq]
        · simp [hs]
      rw [if_neg hdone, if_neg hstate.1, if_neg hstate.2]
    rw [hkeep]
  · exact (service_packet_alone completed outcomes).others j hj

theorem service_packets_unserviced {outcomes : Fin 16 → Pool.ServiceOutcome}
    (l : List (Fin 16)) (h : Unserviced (s.packets j) completed) :
    (l.foldl (service_packet completed outcomes) s).packets j = s.packets j := by
  induction l generalizing s with
  | nil => rfl
  | cons i rest ih =>
    have hone := service_packet_unserviced (i := i) outcomes h
    exact (ih (by rw [hone]; exact h)).trans hone

/-- The copy of the packet may still run when the call is made: it is recorded or quarantined,
or submitted and the call is no service that sees its fence value reached. -/
def Waits (p : Packet) (op : Pool.Op) : Prop :=
  p.state = .recorded ∨ p.state = .quarantined ∨ p.state = .submitted ∧
    ∀ device completed outcomes, op = .service device completed outcomes →
      completed < p.covering_value ∨ completed = UINT64_MAX

theorem at_slot_hold (slot : Nat) (call : Pool → Fin 16 → Pool)
    (hcall : ∀ i, ((call s i).packets j).hold = (s.packets j).hold) :
    ((s.at_slot slot call).packets j).hold = (s.packets j).hold := by
  unfold at_slot
  split
  · exact hcall _
  · rfl

theorem record_others {natives : Natives} {copy : Copy} {closed : Bool} (h : (s.packets j).state ≠ .ready) :
    ((s.record natives copy closed).1.packets j) = s.packets j := by
  unfold record
  split
  · rfl
  split
  · rfl
  rename_i i hi
  have hready : (s.packets i).state = .ready := by
    have := List.find?_some hi
    simpa using this
  have hj : j ≠ i := by
    intro he
    rw [he] at h
    exact h hready
  have htake : (s.take i copy).packets j = s.packets j := update_of_ne hj ..
  split
  · rw [report_dropped_others _ hj]
    show ((s.take i copy).set_packet i _).packets j = _
    rw [set_packet_packets, if_neg hj, htake]
  · exact htake

/-- A packet whose copy may still run keeps what it holds. -/
theorem waiting_packet_keeps {op : Pool.Op} (h : Waits (s.packets j) op) :
    ((s.step op).packets j).hold = (s.packets j).hold := by
  cases op with
  | service device completed outcomes =>
    show ((s.service device completed outcomes).1.packets j).hold = _
    rcases service_cases s device completed outcomes with he | ⟨-, he⟩ | ⟨hmax, he⟩ <;> rw [he]
    · exact loses_hold (s := s.note .lost) _
    · have hun : Unserviced (s.packets j) completed := by
        rcases h with hr | hq | ⟨hs, hcall⟩
        · exact .inl hr
        · exact .inr (.inl hq)
        · exact .inr (.inr ⟨hs, (hcall _ _ _ rfl).resolve_right hmax⟩)
      rw [service_packets_unserviced (s := s.see device completed) _ hun]
      rfl
  | record natives copy closed =>
    have hready : (s.packets j).state ≠ .ready := by
      rcases h with hr | hq | ⟨hs, -⟩
      · rw [hr]
        exact nofun
      · rw [hq]
        exact nofun
      rw [hs]
      exact nofun
    show ((s.record natives copy closed).1.packets j).hold = _
    rw [record_others hready]
  | submit slot value =>
    exact at_slot_hold slot (fun s i => s.submit_packet i value) fun _ => submit_packet_hold value
  | cancel slot => exact at_slot_hold slot _ fun _ => cancel_packet_hold
  | quarantine slot => exact at_slot_hold slot _ fun _ => quarantine_packet_hold

theorem destroy_keeps (h : (s.packets j).state = .recorded ∨ (s.packets j).state = .submitted ∨
    (s.packets j).state = .quarantined) : s.destroy.packets j = s.packets j := by
  unfold Pool.destroy
  generalize List.finRange 16 = l
  induction l generalizing s with
  | nil => rfl
  | cons i rest ih =>
    rw [foldl_cons]
    have hone : (if (s.packets i).state = .recorded ∨ (s.packets i).state = .submitted ∨
        (s.packets i).state = .quarantined then s
      else (s.release_resources i).set_packet i
        { (s.release_resources i).packets i with allocator := false, list := false }).packets j =
        s.packets j := by
      split
      · rfl
      rename_i hi
      have hj : j ≠ i := by
        intro he
        rw [he] at h
        exact hi h
      rw [set_packet_packets, if_neg hj]
      exact release_alone.others j hj
    exact (ih (by rw [hone]; exact h)).trans hone

/-! ## Watermarks -/

theorem raised_le (log : List Event) (w : Nat → Nat) (a : Nat) : w a ≤ log.foldl raised w a := by
  induction log generalizing w with
  | nil => exact le_rfl
  | cons e rest ih =>
    refine le_trans ?_ (ih (raised w e))
    have hraise : ∀ b value, w a ≤ raise w b value a := by
      intro b value
      unfold raise
      rw [Function.update_apply]
      split
      · rename_i he
        rw [he]
        exact Nat.le_max_left _ _
      · exact le_rfl
    cases e with
    | completed copy b value => exact hraise b value
    | dropped copy source b value => exact hraise b value
    | _ => exact le_rfl

theorem report_dropped_log (source : DropSource) : s.log <+: (s.report_dropped i source).log := by
  unfold Pool.report_dropped
  dsimp only
  split
  · exact prefix_refl _
  · exact prefix_append ..

theorem drop_live_log (source : DropSource) (live : Bool) :
    s.log <+: (if live then s.report_dropped i source else s).log := by
  split
  · exact report_dropped_log source
  · exact prefix_refl _

theorem note_drop_log (e : Event) (source : DropSource) (live : Bool) :
    s.log <+: (if live then (s.note e).report_dropped i source else s.note e).log :=
  (prefix_append ..).trans (drop_live_log (s := s.note e) source live)

theorem foldl_log {step : Pool → Fin 16 → Pool} (hstep : ∀ t i, t.log <+: (step t i).log)
    (l : List (Fin 16)) : s.log <+: (l.foldl step s).log := by
  induction l generalizing s with
  | nil => exact prefix_refl _
  | cons i rest ih => exact (hstep s i).trans ih

/-- No call forgets history. -/
theorem step_log (s : Pool) (op : Pool.Op) : s.log <+: (s.step op).log := by
  have hslot : ∀ slot (call : Pool → Fin 16 → Pool), (∀ i, s.log <+: (call s i).log) →
      s.log <+: (s.at_slot slot call).log := by
    intro slot call hcall
    unfold at_slot
    split
    · exact hcall _
    · exact prefix_refl _
  cases op with
  | service device completed outcomes =>
    show s.log <+: (s.service device completed outcomes).1.log
    rcases service_cases s device completed outcomes with he | ⟨-, he⟩ | ⟨-, he⟩ <;> rewrite [he]
    · exact prefix_refl _
    · refine List.IsPrefix.trans (prefix_append s.log [Event.lost]) (foldl_log (s := s.note .lost) (fun t i => ?_) _)
      exact drop_live_log .device_lost (t.live i)
    · refine List.IsPrefix.trans (prefix_append s.log [Event.saw completed])
        (foldl_log (s := s.see device completed) (fun t i => ?_) _)
      obtain ⟨more, hlog, -⟩ := (service_packet_alone (s := t) (i := i) completed outcomes).log
      exact ⟨more, hlog.symm⟩
  | record natives copy closed =>
    show s.log <+: (s.record natives copy closed).1.log
    unfold record
    split
    · exact prefix_refl _
    split
    · exact prefix_refl _
    rename_i i _
    have htake : s.log <+: (s.take i copy).log := prefix_append ..
    split
    · refine htake.trans (List.IsPrefix.trans ?_ (report_dropped_log _))
      exact prefix_append ..
    · exact htake
  | submit slot value =>
    refine hslot slot _ fun i => ?_
    unfold submit_packet
    dsimp only
    split
    · exact note_drop_log _ _ _
    · exact prefix_append ..
  | cancel slot =>
    refine hslot slot _ fun i => ?_
    have hdrop := note_drop_log (s := s) (i := i) (.cancelled (s.packets i).copy) .cancelled
      ((s.note (.cancelled (s.packets i).copy)).live i)
    unfold cancel_packet
    dsimp only
    generalize (if (s.note (.cancelled (s.packets i).copy)).live i then
      (s.note (.cancelled (s.packets i).copy)).report_dropped i .cancelled
      else s.note (.cancelled (s.packets i).copy)) = t at hdrop ⊢
    split
    · exact hdrop
    split
    · exact hdrop
    · exact hdrop
  | quarantine slot =>
    refine hslot slot _ fun i => ?_
    exact note_drop_log _ _ _

/-- In every run, a copy that may still run is in one packet, under a number that was given out, and
no report names it; before its submission no call of `submit` does. -/
theorem a_copy_in_flight_is_unreported (watermarks : Nat → Nat) (drops : Nat → DropSource → Nat) (ops : List Pool.Op) :
    let s := runs.run step (start watermarks drops) ops
    ∀ i, let p := s.packets i
      p.state = .recorded ∨ p.state = .submitted → 0 < p.copy ∧ p.copy ≤ s.recordings ∧
        (∀ j, (s.packets j).copy = p.copy → j = i) ∧ s.log.countP (reports p.copy) = 0 ∧
        (p.state = .recorded → s.log.countP (covers p.copy) = 0) := by
  intro s i p hi
  have h : Accounted watermarks s := run_books watermarks drops ops
  obtain ⟨hcopy, hunreported⟩ := (h.sound i trivial).unreported hi
  exact ⟨Nat.pos_of_ne_zero hcopy, h.bounded i, fun j hj => h.unique j i hj (hj ▸ hcopy), hunreported,
    (h.sound i trivial).recorded⟩

/-- In every run each copy is reported at most once, as completed only after a service saw the
fence value of its only submission, and as dropped only for a reason that happened to it before. -/
theorem copies_are_accounted_for (watermarks : Nat → Nat) (drops : Nat → DropSource → Nat) (ops : List Pool.Op) :
    let s := runs.run step (start watermarks drops) ops
    (∀ copy, s.log.countP (reports copy) ≤ 1) ∧
    (∀ before copy watermark value after, s.log = before ++ .completed copy watermark value :: after →
      ∃ covering seen, Reached before copy covering seen ∧ covering ≤ seen) ∧
    (∀ before copy source watermark value after, s.log = before ++ .dropped copy source watermark value :: after →
      Cause before copy source) ∧
    (∀ i op, Waits (s.packets i) op → ((s.step op).packets i).hold = (s.packets i).hold) ∧
    (∀ i, (s.packets i).state = .submitted → Covered s.log (s.packets i).copy (s.packets i).covering_value) ∧
    (∀ i, (s.packets i).state = .recorded ∨ (s.packets i).state = .submitted ∨
      (s.packets i).state = .quarantined → s.destroy.packets i = s.packets i) ∧
    s.watermarks = s.log.foldl raised watermarks ∧
    ∀ op a, s.watermarks a ≤ (s.step op).watermarks a := by
  intro s
  have h : Accounted watermarks s := run_books watermarks drops ops
  refine ⟨h.once, fun before copy _ _ after hsplit => h.explained before _ after hsplit,
    fun before copy _ _ _ after hsplit => h.explained before _ after hsplit,
    fun i op hw => waiting_packet_keeps hw, fun i hs => (h.sound i trivial).submitted hs,
    fun i hi => destroy_keeps hi, h.marks, fun op a => ?_⟩
  obtain ⟨more, hmore⟩ := step_log s op
  rw [(step_books h op).marks, ← hmore, foldl_append, ← h.marks]
  exact raised_le more s.watermarks a

end taxi_camera.pfd_submission
