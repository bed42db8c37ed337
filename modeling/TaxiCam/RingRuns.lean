-- Runs of the ring. While fewer than 2^64 pushes have taken a ticket the ring
-- is lossless; the push that takes the last ticket of the 64 bits may have its
-- slot read before its entry is written.
import TaxiCam.RingOrder
import Mathlib.Data.List.Induction

namespace taxi_camera.DeferredRing

open runs List

variable {T : Type} {capacity : Nat} {s : DeferredRing T}

/-! ## Every step keeps the order -/

theorem pushes_grow (s : DeferredRing T) (a : Op T) : s.pushes <+: (step capacity s a).pushes := by
  cases a with
  | push p value =>
    dsimp only [step, push]
    split <;> exact prefix_rfl
  | produce p spurious =>
    dsimp only [step, produce]
    split
    case h_3 =>
      split <;> exact prefix_rfl
    case h_4 =>
      split
      · exact prefix_append ..
      · exact prefix_rfl
    all_goals exact prefix_rfl
  | peek =>
    dsimp only [step, peek]
    split <;> exact prefix_rfl
  | commit =>
    dsimp only [step, commit]
    split <;> exact prefix_rfl
  | consume =>
    dsimp only [step, consume]
    split <;> exact prefix_rfl

theorem Ordered.consume (h : Ordered capacity s) : Ordered capacity (s.consume capacity) := by
  have hcons := h.consuming
  unfold DeferredRing.consume
  cases hc : s.consumer with
  | idle | peeked value => exact h
  | peek_tail ticket =>
    rw [hc] at hcons
    apply h.turn fun _ _ heq => by rw [hc] at heq; cases heq
    split
    · trivial
    rename_i hne
    obtain rfl : ticket = s.head := hcons
    exact ⟨rfl, Nat.lt_of_le_of_ne h.head_le hne⟩
  | peek_ready ticket =>
    rw [hc] at hcons
    apply h.turn fun _ _ heq => by rw [hc] at heq; cases heq
    obtain ⟨rfl, hlt⟩ := hcons
    split
    · trivial
    rename_i hready
    have hfits := h.fits
    rw [next_of_lt (by omega)] at hready
    exact ⟨rfl, hlt, not_not.mp hready⟩
  | peek_value ticket =>
    rw [hc] at hcons
    apply h.turn fun _ _ heq => by rw [hc] at heq; cases heq
    obtain ⟨rfl, hlt, hready⟩ := hcons
    obtain ⟨⟨p, value⟩, he⟩ : ∃ e, s.pushes[s.head]? = some e := ⟨_, List.getElem?_eq_getElem (h.tail_eq ▸ hlt)⟩
    have hvalue : (s.slot_of capacity s.head).value = value := by
      rcases h.live s.head p value he (Nat.le_refl _) with ⟨_, b⟩ | ⟨_, b, _⟩ | ⟨_, _, c⟩ | ⟨_, b, _⟩
      · omega
      · omega
      · exact c
      · omega
    refine ⟨⟨p, ?_⟩, hready⟩
    rw [he, ← hvalue]
    rfl
  | commit_ready value ticket => exact h.retract hc
  | commit_head value ticket => exact h.advance hc

theorem Ordered.step (h : Ordered capacity s) (a : Op T)
    (hfew : (step capacity s a).pushes.length < 0x10000000000000000) :
    Ordered capacity (step capacity s a) := by
  cases a with
  | push p value =>
    dsimp only [DeferredRing.step, push]
    split
    · rename_i hc
      exact h.move (by rw [hc]; rfl) rfl trivial
    · exact h
  | produce p spurious => exact h.produce p spurious hfew
  | peek =>
    dsimp only [DeferredRing.step, peek]
    split
    · rename_i hc
      exact h.turn (fun _ _ heq => by rw [hc] at heq; cases heq) rfl
    · rename_i hc
      exact h.turn (fun _ _ heq => by rw [hc] at heq; cases heq) rfl
    · exact h
  | commit =>
    dsimp only [DeferredRing.step, commit]
    split
    · rename_i value hc
      have hcons := h.consuming
      rw [hc] at hcons
      exact h.turn (fun _ _ heq => by rw [hc] at heq; cases heq) ⟨rfl, hcons⟩
    · exact h
  | consume => exact h.consume

theorem Ordered.after (h : Ordered capacity s) (ops : List (Op T))
    (hfew : (run (DeferredRing.step capacity) s ops).pushes.length < 0x10000000000000000) :
    Ordered capacity (run (DeferredRing.step capacity) s ops) := by
  induction ops using List.reverseRecOn with
  | nil => exact h
  | append_singleton ops a ih =>
    rw [run_snoc] at hfew ⊢
    exact (ih (Nat.lt_of_le_of_lt (pushes_grow _ a).length_le hfew)).step a hfew

/-! ## Pops -/

/-- A pop commits the head entry, once it is published. -/
theorem Ordered.run_pop (h : Ordered capacity s) (hidle : s.consumer = .idle) {p : Nat} {value : T}
    (he : s.pushes[s.head]? = some (p, value)) (hpublished : ¬ (s.producers p).Holds s.head) :
    run (DeferredRing.step capacity) s pop =
      { s.set_slot (s.head % capacity) { s.slots (s.head % capacity) with ready := 0 } with
        head := s.head + 1
        committed := s.committed ++ [value] } := by
  have hlt := h.ticket_lt he
  have hfits := h.fits
  have hnext : next s.head = s.head + 1 := next_of_lt (by omega)
  obtain ⟨hready, hvalue⟩ : (s.slots (s.head % capacity)).ready = s.head + 1 ∧
      (s.slots (s.head % capacity)).value = value := by
    rcases h.live s.head p value he (Nat.le_refl _) with ⟨a, _⟩ | ⟨a, _⟩ | ⟨_, b, c⟩ | ⟨_, _, _, w, hw⟩
    · exact absurd (by rw [a]; rfl) hpublished
    · exact absurd (by rw [a]; rfl) hpublished
    · exact ⟨b, c⟩
    rw [hidle] at hw
    cases hw
  have hne : s.head ≠ s.tail := by omega
  simp [pop, DeferredRing.step, peek, DeferredRing.consume, commit, hidle, hne, hready, hvalue, hnext, set_slot]

theorem Ordered.run_pops (h : Ordered capacity s) (hidle : s.consumer = .idle) (n : Nat) (hn : s.head + n ≤ s.tail)
    (hpublished : ∀ t, t < s.head + n → ∀ p, ¬ (s.producers p).Holds t) :
    (run (DeferredRing.step capacity) s (pops n)).committed = s.entries.take (s.head + n) := by
  induction n generalizing s with
  | zero => exact h.committed
  | succ n ih =>
    obtain ⟨⟨p, value⟩, he⟩ : ∃ e, s.pushes[s.head]? = some e :=
      ⟨_, List.getElem?_eq_getElem (by have := h.tail_eq; omega)⟩
    have hpop := h.run_pop hidle he (hpublished s.head (by omega) p)
    have hordered : Ordered capacity (run (DeferredRing.step capacity) s pop) := by
      apply h.after
      rw [hpop]
      have hfits := h.fits
      rw [h.tail_eq] at hfits
      exact hfits
    rw [pops, replicate_succ, flatten_cons, run_append, ← pops]
    rw [hpop] at hordered ⊢
    rw [ih hordered hidle (by dsimp only [set_slot]; omega) (fun t ht => hpublished t (by dsimp only at ht; omega))]
    rw [show s.head + 1 + n = s.head + (n + 1) by omega]
    rfl

/-! ## The ring is lossless -/

theorem Ordered.lossless (h : Ordered capacity s) : Lossless capacity s := by
  have hlen : s.committed.length = s.head := by
    have := h.head_le
    rw [h.committed, length_take, entries, length_map, ← h.tail_eq]
    omega
  have hroom := h.tail_le
  have hlength := h.tail_eq
  refine ⟨?_, h.own, fun t p value he ht => ?_, fun p value t hp => ?_, fun n hn hle hpublished hidle => ?_⟩
  · rw [h.committed]
    exact take_prefix ..
  · rcases h.live t p value he (by omega) with ⟨a, _⟩ | ⟨_, _, c⟩ | ⟨_, _, c⟩ | ⟨_, _, c, _⟩
    · exact .inl a
    all_goals exact .inr c
  · have hprod := h.producing p
    rw [hp] at hprod
    obtain ⟨he, hhead⟩ := hprod
    have htail := h.ticket_lt he
    refine ⟨fun u hu hut hne => slots_apart (by omega) (by omega) hhead (by omega) hne, fun u hu hsame => ?_⟩
    have hcons := h.consuming
    rw [hu] at hcons
    obtain ⟨rfl, hlt, hready⟩ := hcons
    have hunready := h.ready_of_holds he hhead (by rw [hp]; rfl)
    by_cases hne : s.head = t
    · subst hne
      omega
    · exact slots_apart (Nat.le_refl _) (by omega) hhead (by omega) hne hsame
  · have hpops := h.run_pops hidle (n - s.committed.length) (by omega) (fun t ht => hpublished t (by omega))
    rw [hpops, hlen, show s.head + (n - s.head) = n by omega]

theorem entries_are_committed_in_push_order [Inhabited T] (capacity : Nat) (ops : List (Op T))
    (hfew : (run (step capacity) initial ops).pushes.length < 0x10000000000000000) :
    Lossless capacity (run (step capacity) initial ops) :=
  (ordered_initial.after ops hfew).lossless

/-- Two producers in a ring of two, with an exchange that fails: the second ticket is published
first, and the consumer waits for the first one. -/
theorem two_producers_are_lossless :
    let ops : List (Op Nat) := [.push 0 7, .push 1 8, .produce 0 false, .produce 1 false,
      .produce 0 false, .produce 1 false, .produce 0 true, .produce 1 false, .produce 0 false,
      .produce 1 false, .produce 1 false, .peek, .consume, .consume, .produce 0 false]
    (run (step 2) initial ops).pushes.length < 0x10000000000000000 ∧ Lossless 2 (run (step 2) initial ops) :=
  ⟨by decide +kernel, entries_are_committed_in_push_order 2 _ (by decide +kernel)⟩

/-! ## The last ticket -/

/-- One push of `false` and its pop. -/
def turn : List (Op Bool) :=
  [.push 0 false, .produce 0 false, .produce 0 false, .produce 0 false, .produce 0 false,
    .produce 0 false] ++ pop

def turns (n : Nat) : List (Op Bool) := (List.replicate n turn).flatten

/-- `n` entries, and a push of `true` that has taken its ticket while the consumer pops. -/
def overrun (n : Nat) : List (Op Bool) :=
  turns n ++ [.push 0 true, .produce 0 false, .produce 0 false, .produce 0 false] ++ pop

def turned (n : Nat) : DeferredRing Bool :=
  { (initial : DeferredRing Bool) with
    head := n
    tail := n
    pushes := List.replicate n (0, false)
    returned := Function.update (fun _ => []) 0 (List.replicate n false)
    committed := List.replicate n false }

theorem run_turn (n : Nat) (h : n + 1 < 0x10000000000000000) : run (step 64) (turned n) turn = turned (n + 1) := by
  have hnext : next n = n + 1 := next_of_lt h
  have hnear : distance n n = 0 := by
    rw [distance_of_le (Nat.le_refl n) (by omega), Nat.sub_self]
  simp [turn, pop, turned, initial, step, push, produce, peek, consume, commit, at_point, set_slot,
    hnext, hnear, replicate_succ']

theorem run_turns (n : Nat) (h : n < 0x10000000000000000) : run (step 64) initial (turns n) = turned n := by
  induction n with
  | zero => simp [turns, turned, initial]
  | succ n ih =>
    rw [turns, replicate_succ', flatten_append, run_append, ← turns, ih (by omega),
      flatten_cons, flatten_nil, append_nil]
    exact run_turn n h

theorem overrun_reads_the_slot_first (n : Nat) (h : n + 1 = 0x10000000000000000) :
    (run (step 64) initial (overrun n)).committed = List.replicate (n + 1) false ∧
      (run (step 64) initial (overrun n)).entries = List.replicate n false ++ [true] := by
  have hnext : next n = 0 := by
    unfold next
    omega
  have hnear : distance n n = 0 := by
    rw [distance_of_le (Nat.le_refl n) (by omega), Nat.sub_self]
  have hne : n ≠ 0 := by omega
  rw [overrun, append_assoc, run_append, run_turns n (by omega)]
  simp [pop, turned, initial, step, push, produce, peek, consume, commit, at_point, set_slot,
    hnext, hnear, hne, entries, replicate_succ']

/-- After the last ticket the sequence number of a slot is the one of an empty slot. -/
theorem last_ticket_is_read_before_its_write :
    ¬ Lossless 64 (run (step 64) initial (overrun 0xFFFFFFFFFFFFFFFF)) := by
  intro h
  obtain ⟨hcommitted, hentries⟩ := overrun_reads_the_slot_first 0xFFFFFFFFFFFFFFFF (by decide)
  have hprefix := h.in_order
  rw [hcommitted, hentries] at hprefix
  have heq := hprefix.eq_of_length (by rw [length_replicate, length_append, length_replicate, length_singleton])
  rw [replicate_succ'] at heq
  exact absurd (append_inj' heq rfl).2 (by decide)

end taxi_camera.DeferredRing
