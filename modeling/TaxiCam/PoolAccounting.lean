-- The accounts of the submission pool: every recorded copy is reported at most
-- once, every report has its reason in the history before it, and a packet
-- keeps what it holds while its copy may still run.
import TaxiCam.SubmissionPool

namespace taxi_camera.pfd_submission

open List

/-! ## What a history says about a copy -/

/-- The copy that an event is about. -/
def Event.copy : Event → Nat
  | .recorded copy | .close_failed copy | .covered copy _ | .cancelled copy | .quarantined copy
  | .completed copy _ _ | .dropped copy _ _ _ | .released copy => copy
  | .lost | .saw _ => 0

/-- A report for the copy. -/
def reports (copy : Nat) : Event → Bool
  | .completed c _ _ => c == copy
  | .dropped c _ _ _ => c == copy
  | _ => false

/-- A call of `submit` for the copy. -/
def covers (copy : Nat) : Event → Bool
  | .covered c _ => c == copy
  | _ => false

/-- The watermarks after an event: reports raise them. -/
def raised (watermarks : Nat → Nat) : Event → Nat → Nat
  | .completed _ a value => Pool.raise watermarks a value
  | .dropped _ _ a value => Pool.raise watermarks a value
  | _ => watermarks

/-- The copy was submitted once, under this value. -/
def Covered (log : List Event) (copy value : Nat) : Prop :=
  ∃ before after, log = before ++ .covered copy value :: after ∧
    before.countP (covers copy) = 0 ∧ after.countP (covers copy) = 0

/-- The copy was submitted once, under this value, and a service saw the value reached. -/
def Reached (log : List Event) (copy value seen : Nat) : Prop :=
  ∃ before after, log = before ++ .covered copy value :: after ∧
    before.countP (covers copy) = 0 ∧ after.countP (covers copy) = 0 ∧
    Event.saw seen ∈ after

/-- What has happened to a copy that will not run. -/
def Cause (before : List Event) (copy : Nat) : DropSource → Prop
  | .close_failed => Event.close_failed copy ∈ before
  | .cancelled => Event.cancelled copy ∈ before
  | .quarantined => Event.quarantined copy ∈ before
  | .unsubmitted =>
    (∃ value, Event.covered copy value ∈ before ∧ (value = 0 ∨ value = UINT64_MAX)) ∨
      2 ≤ before.countP (covers copy)
  | .device_lost => Event.lost ∈ before
  | _ => False

/-- Why an event may happen: reports need their reasons. -/
def why (before : List Event) : Event → Prop
  | .completed copy _ _ => ∃ value seen, Reached before copy value seen ∧ value ≤ seen
  | .dropped copy source _ _ => Cause before copy source
  | _ => True

variable {e : Event} {log : List Event} {copy value : Nat} {p : Packet}

theorem covered_snoc (h : Covered log copy value) (he : covers copy e = false) : Covered (log ++ [e]) copy value := by
  obtain ⟨before, after, rfl, hb, ha⟩ := h
  refine ⟨before, after ++ [e], by simp, hb, ?_⟩
  rw [countP_append, ha, countP_singleton, he]
  rfl

theorem reached_of_covered (h : Covered log copy value)
    (seen : Nat) : Reached (log ++ [Event.saw seen]) copy value seen := by
  obtain ⟨before, after, rfl, hb, ha⟩ := h
  refine ⟨before, after ++ [.saw seen], by simp, hb, ?_, by simp⟩
  rw [countP_append, ha]
  rfl

/-- A second call of `submit` is one too many. -/
theorem covered_twice {second : Nat} (h : Covered log copy value) :
    2 ≤ (log ++ [Event.covered copy second]).countP (covers copy) := by
  obtain ⟨before, after, rfl, -, -⟩ := h
  have hcovers : ∀ v, covers copy (.covered copy v) = true := fun _ => beq_self_eq_true _
  rw [countP_append, countP_append, countP_cons, countP_singleton, hcovers, hcovers, if_pos rfl]
  omega

/-! ## The books -/

/-- What the state of a packet says about the history of its copy. -/
structure Sound (log : List Event) (p : Packet) : Prop where
  unreported : p.state = .recorded ∨ p.state = .submitted →
    p.copy ≠ 0 ∧ log.countP (reports p.copy) = 0
  recorded : p.state = .recorded → log.countP (covers p.copy) = 0
  submitted : p.state = .submitted → Covered log p.copy p.covering_value

theorem sound_idle (hr : p.state ≠ .recorded) (hs : p.state ≠ .submitted) : Sound log p :=
  ⟨fun h => absurd h (by simp [hr, hs]), fun h => absurd h hr, fun h => absurd h hs⟩

theorem Sound.snoc (h : Sound log p) (he : p.copy ≠ 0 → reports p.copy e = false ∧ covers p.copy e = false) :
    Sound (log ++ [e]) p := by
  constructor
  · intro hl
    obtain ⟨hc, hn⟩ := h.unreported hl
    refine ⟨hc, ?_⟩
    rw [countP_append, hn, countP_singleton, (he hc).1]
    rfl
  · intro hr
    have hc := (h.unreported (.inl hr)).1
    rw [countP_append, h.recorded hr, countP_singleton, (he hc).2]
    rfl
  · intro hs
    have hc := (h.unreported (.inr hs)).1
    exact covered_snoc (h.submitted hs) (he hc).2

/-- The accounts of a pool, with the packets in `checked` in order. -/
structure Books (initial : Nat → Nat) (s : Pool) (checked : Fin 16 → Prop) : Prop where
  bounded : ∀ i, (s.packets i).copy ≤ s.recordings
  past : ∀ e ∈ s.log, e.copy ≤ s.recordings
  unique : ∀ i j, (s.packets i).copy = (s.packets j).copy → (s.packets i).copy ≠ 0 → i = j
  once : ∀ copy, s.log.countP (reports copy) ≤ 1
  explained : histories.Explained why s.log
  marks : s.watermarks = s.log.foldl raised initial
  sound : ∀ i, checked i → Sound s.log (s.packets i)

variable {initial : Nat → Nat} {s s' : Pool} {i j : Fin 16}

/-- All packets are in order. -/
abbrev Accounted (initial : Nat → Nat) (s : Pool) : Prop := Books initial s fun _ => True

/-- All packets but one are in order. -/
abbrev Opened (initial : Nat → Nat) (s : Pool) (i : Fin 16) : Prop := Books initial s (· ≠ i)

theorem Books.opened (h : Accounted initial s) (i : Fin 16) : Opened initial s i :=
  ⟨h.bounded, h.past, h.unique, h.once, h.explained, h.marks, fun j _ => h.sound j trivial⟩

theorem Books.closed (h : Opened initial s i) (hi : Sound s.log (s.packets i)) :
    Accounted initial s := by
  refine ⟨h.bounded, h.past, h.unique, h.once, h.explained, h.marks, fun j _ => ?_⟩
  by_cases hj : j = i
  · rw [hj]
    exact hi
  · exact h.sound j hj

@[simp] theorem set_packet_packets (p : Packet) :
    (s.set_packet i p).packets j = if j = i then p else s.packets j := by
  exact Function.update_apply ..

/-- An event about the open packet's copy that reports nothing. -/
theorem Books.note (h : Opened initial s i)
    (hcopy : e.copy = (s.packets i).copy ∨ e.copy = 0) (hsilent : ∀ copy, reports copy e = false)
    (hwhy : why s.log e) (hraised : ∀ w, raised w e = w)
    (hcovers : ∀ copy, covers copy e = true → e.copy = copy) : Opened initial (s.note e) i := by
  refine ⟨h.bounded, fun x hx => ?_, h.unique, fun copy => ?_,
    histories.explained_snoc h.explained hwhy, ?_, fun j hj => (h.sound j hj).snoc fun hc => ?_⟩
  · rcases mem_append.mp hx with hx | hx
    · exact h.past x hx
    rw [mem_singleton] at hx
    subst hx
    have := h.bounded i
    show x.copy ≤ s.recordings
    omega
  · show (s.log ++ [e]).countP (reports copy) ≤ 1
    rw [countP_append, countP_singleton, hsilent]
    exact h.once copy
  · show s.watermarks = (s.log ++ [e]).foldl raised initial
    rw [foldl_append, ← h.marks]
    exact (hraised _).symm
  · refine ⟨hsilent _, ?_⟩
    by_contra hcov
    have he := hcovers _ (by simpa using hcov)
    rcases hcopy with hci | h0
    · exact hj (h.unique j i (he.symm.trans hci) hc)
    · exact hc (he.symm.trans h0)

/-- A change of the open packet that keeps or drops its copy. -/
theorem Books.packet (h : Opened initial s i)
    (hcopy : p.copy = (s.packets i).copy ∨ p.copy = 0) : Opened initial (s.set_packet i p) i := by
  have hp : ∀ j, ((s.set_packet i p).packets j).copy ≠ 0 →
      ((s.set_packet i p).packets j).copy = (s.packets j).copy := by
    intro j hne
    rw [set_packet_packets] at hne ⊢
    split
    · rename_i hj
      rw [if_pos hj] at hne
      rw [hj]
      exact hcopy.resolve_right hne
    · rfl
  refine ⟨fun j => ?_, h.past, fun j k he hne => ?_, h.once, h.explained, h.marks, fun j hj => ?_⟩
  · by_cases h0 : ((s.set_packet i p).packets j).copy = 0
    · rw [h0]
      exact Nat.zero_le _
    rw [hp j h0]
    exact h.bounded j
  · have hj := hp j hne
    have hk := hp k (he ▸ hne)
    exact h.unique j k (hj.symm.trans (he.trans hk)) (hj ▸ hne)
  · rw [set_packet_packets, if_neg hj]
    exact h.sound j hj

/-- A report for the open packet's copy, the first one. -/
theorem Books.report (h : Opened initial s i) {w : Nat → Nat}
    (hcopy : e.copy = (s.packets i).copy) (hfirst : s.log.countP (reports e.copy) = 0)
    (hreports : ∀ copy, reports copy e = true → copy = e.copy)
    (hcovers : ∀ copy, covers copy e = false) (hwhy : why s.log e)
    (hw : w = raised s.watermarks e) :
    Opened initial { s with watermarks := w, log := s.log ++ [e] } i := by
  refine ⟨h.bounded, fun x hx => ?_, h.unique, fun copy => ?_,
    histories.explained_snoc h.explained hwhy, ?_, fun j hj => (h.sound j hj).snoc fun hc => ?_⟩
  · rcases mem_append.mp hx with hx | hx
    · exact h.past x hx
    rw [mem_singleton] at hx
    rw [hx, hcopy]
    exact h.bounded i
  · rw [countP_append, countP_singleton]
    by_cases hr : reports copy e = true
    · rw [hreports copy hr, hfirst]
      split <;> omega
    rw [if_neg hr]
    exact h.once copy
  · rw [foldl_append, ← h.marks]
    exact hw
  · refine ⟨?_, hcovers _⟩
    by_contra hr
    have he := hreports _ (by simpa using hr)
    exact hj (h.unique j i (he.trans hcopy) hc)

theorem Books.report_dropped (h : Opened initial s i) {source : DropSource}
    (hfirst : s.log.countP (reports (s.packets i).copy) = 0)
    (hcause : Cause s.log (s.packets i).copy source) :
    Opened initial (s.report_dropped i source) i := by
  unfold Pool.report_dropped
  dsimp only
  split
  · exact h
  rename_i a _
  have hpacket : Opened initial (s.set_packet i
      { s.packets i with dropped := none, drop_sources := none }) i := packet h (.inl rfl)
  have hreport := report (e := Event.dropped (s.packets i).copy source a
    (s.packets i).completed_value) hpacket (w := _) ?_ hfirst ?_ ?_ hcause rfl
  · exact ⟨hreport.bounded, hreport.past, hreport.unique, hreport.once, hreport.explained,
      hreport.marks, hreport.sound⟩
  · rw [set_packet_packets, if_pos rfl]
    rfl
  · intro copy hc
    exact (beq_iff_eq.mp hc).symm
  · exact fun _ => rfl

theorem report_dropped_packet (source : DropSource) :
    ∃ dropped drop_sources, (s.report_dropped i source).packets i = { s.packets i with dropped, drop_sources } := by
  unfold Pool.report_dropped
  dsimp only
  split
  · exact ⟨_, _, rfl⟩
  · exact ⟨none, none, Function.update_self ..⟩

theorem report_dropped_others (source : DropSource) (hj : j ≠ i) :
    (s.report_dropped i source).packets j = s.packets j := by
  unfold Pool.report_dropped
  dsimp only
  split
  · rfl
  · exact Function.update_of_ne hj ..

theorem live_iff : s.live i = true ↔ (s.packets i).state = .recorded ∨ (s.packets i).state = .submitted := by
  unfold Pool.live
  rw [Bool.or_eq_true, beq_iff_eq, beq_iff_eq]

end taxi_camera.pfd_submission
