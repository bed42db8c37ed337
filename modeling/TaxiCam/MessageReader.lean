-- What the reader yields: slots of the log above the last serial seen, in the
-- order of their serials, each once. With room and fresh slots it leaves none
-- of them.
import TaxiCam.SimMessages
import Mathlib.Data.List.Induction

namespace taxi_camera.sim_messages.NotificationReader

open List

/-! ## The next slot -/

/-- The least slot of a log above a serial. -/
structure Least (last : Nat) (log : List NotificationSlot) (n : NotificationSlot) : Prop where
  mem : n ∈ log
  above : last < n.serial
  least : ∀ slot ∈ log, last < slot.serial → n.serial ≤ slot.serial

theorem next_slot_snoc (last : Nat) (log : List NotificationSlot) (slot : NotificationSlot) :
    next_slot last (log ++ [slot]) =
      if slot.serial > last ∧ ((next_slot last log).all fun n => slot.serial < n.serial) = true then
        some slot
      else next_slot last log := by
  unfold next_slot
  rw [foldl_append]
  rfl

theorem next_slot_spec (last : Nat) (log : List NotificationSlot) :
    (next_slot last log = none ∧ ∀ slot ∈ log, ¬last < slot.serial) ∨
      ∃ n, next_slot last log = some n ∧ Least last log n := by
  induction log using List.reverseRecOn with
  | nil => exact .inl ⟨rfl, fun slot hmem => nomatch hmem⟩
  | append_singleton log slot ih =>
    rw [next_slot_snoc]
    rcases ih with ⟨hnone, hle⟩ | ⟨n, hsome, hn⟩
    · rw [hnone]
      by_cases h : last < slot.serial
      · rw [if_pos ⟨h, rfl⟩]
        refine .inr ⟨slot, rfl, by simp, h, fun other hmem habove => ?_⟩
        rcases mem_append.mp hmem with hold | hnew
        · exact absurd habove (hle other hold)
        · rw [mem_singleton.mp hnew]
      rw [if_neg fun hc => h hc.1]
      refine .inl ⟨rfl, fun other hmem => ?_⟩
      rcases mem_append.mp hmem with hold | hnew
      · exact hle other hold
      rw [mem_singleton.mp hnew]
      exact h
    rw [hsome]
    simp only [Option.all_some, decide_eq_true_eq]
    by_cases h : last < slot.serial ∧ slot.serial < n.serial
    · rw [if_pos h]
      refine .inr ⟨slot, rfl, by simp, h.1, fun other hmem habove => ?_⟩
      rcases mem_append.mp hmem with hold | hnew
      · have := hn.least other hold habove
        omega
      · rw [mem_singleton.mp hnew]
    rw [if_neg h]
    refine .inr ⟨n, rfl, mem_append_left _ hn.mem, hn.above, fun other hmem habove => ?_⟩
    rcases mem_append.mp hmem with hold | hnew
    · exact hn.least other hold habove
    rw [mem_singleton.mp hnew] at habove ⊢
    omega

/-! ## Yielded slots -/

/-- What a call of `take` yields, from the last serial before it to the one after. -/
structure Yields (log : List NotificationSlot) (last last' : Nat) (taken : List NotificationSlot) :
    Prop where
  grows : last ≤ last'
  mem : ∀ e ∈ taken, e ∈ log ∧ last < e.serial ∧ e.serial ≤ last'
  ordered : taken.Pairwise fun a b => a.serial < b.serial
  seen : last' = last ∨ ∃ slot ∈ log, slot.serial = last'

theorem yields_nil (log : List NotificationSlot) (last : Nat) : Yields log last last [] :=
  ⟨le_rfl, fun _ h => (nomatch h), List.Pairwise.nil, .inl rfl⟩

variable {log : List NotificationSlot} {next : NotificationSlot}

/-- One turn, and the turns after it. -/
theorem Yields.turn {last last' : Nat} {taken : List NotificationSlot} (hn : Least last log next)
    (h : Yields log next.serial last' taken) (keep : Bool) :
    Yields log last last' ((if keep then [next] else []) ++ taken) := by
  have hlast := hn.above
  refine ⟨hlast.le.trans h.grows, fun e he => ?_, ?_, ?_⟩
  · rcases mem_append.mp he with he | he
    · cases keep with
      | false => cases he
      | true =>
        rw [mem_singleton.mp he]
        exact ⟨hn.mem, hlast, h.grows⟩
    obtain ⟨hmem, habove, hle⟩ := h.mem e he
    exact ⟨hmem, hlast.trans habove, hle⟩
  · rw [pairwise_append]
    refine ⟨?_, h.ordered, fun a ha b hb => ?_⟩
    · cases keep with
      | false => exact List.Pairwise.nil
      | true => exact pairwise_singleton _ _
    · cases keep with
      | false => cases ha
      | true =>
        rw [mem_singleton.mp ha]
        exact (h.mem b hb).2.1
  · rcases h.seen with heq | hseen
    · exact .inr ⟨next, hn.mem, heq.symm⟩
    · exact .inr hseen

theorem take_loop_yields (log : List NotificationSlot) (now_ms capacity fuel last : Nat)
    (events : List NotificationSlot) :
    ∃ taken, (take_loop log now_ms capacity fuel last events).2 = events ++ taken ∧
      Yields log last (take_loop log now_ms capacity fuel last events).1 taken := by
  induction fuel generalizing last events with
  | zero => exact ⟨[], by simp [take_loop], yields_nil log last⟩
  | succ fuel ih =>
    unfold take_loop
    rcases next_slot_spec last log with ⟨hnone, -⟩ | ⟨next, hsome, hn⟩
    · rw [hnone]
      exact ⟨[], (append_nil events).symm, yields_nil log last⟩
    rw [hsome]
    dsimp only
    split
    · exact ⟨[], (append_nil events).symm, yields_nil log last⟩
    obtain ⟨taken, hevents, hyields⟩ := ih next.serial (if fresh now_ms next then events ++ [next] else events)
    refine ⟨_, ?_, hyields.turn hn (fresh now_ms next)⟩
    rw [hevents]
    split <;> simp

theorem take_yields (last : Nat) (log : List NotificationSlot) (now_ms capacity : Nat) :
    Yields log last (take last log now_ms capacity).1 (take last log now_ms capacity).2 := by
  obtain ⟨taken, hevents, hyields⟩ := take_loop_yields log now_ms capacity (log.length + 1) last []
  rw [nil_append] at hevents
  unfold take
  rw [hevents]
  exact hyields

/-! ## With room for every slot -/

/-- The slots of a log above a serial. -/
def above (last : Nat) (log : List NotificationSlot) : List NotificationSlot :=
  log.filter fun slot => last < slot.serial

theorem above_lt {last : Nat}
    (hn : Least last log next) : (above next.serial log).length < (above last log).length := by
  have hlast := hn.above
  have hsub : above next.serial log = (above last log).filter fun slot => next.serial < slot.serial := by
    unfold above
    rw [filter_filter]
    refine filter_congr fun slot _ => ?_
    simp only [← Bool.decide_and, decide_eq_decide]
    omega
  rw [hsub, length_filter_lt_length_iff_exists]
  refine ⟨next, mem_filter.mpr ⟨hn.mem, by simpa using hlast⟩, ?_⟩
  simp

/-- Every slot above the last serial is yielded, when all are fresh and there is room. -/
theorem take_loop_all (log : List NotificationSlot) (now_ms capacity : Nat)
    (hfresh : ∀ slot ∈ log, slot.serial ≠ 0 → fresh now_ms slot = true) (fuel last : Nat)
    (events : List NotificationSlot) (hfuel : (above last log).length < fuel)
    (hroom : events.length + (above last log).length ≤ capacity) :
    ∀ slot ∈ log, last < slot.serial →
      ∃ e ∈ (take_loop log now_ms capacity fuel last events).2, e.serial = slot.serial := by
  induction fuel generalizing last events with
  | zero => omega
  | succ fuel ih =>
    intro slot hmem habove
    unfold take_loop
    rcases next_slot_spec last log with ⟨-, hle⟩ | ⟨next, hsome, hn⟩
    · exact absurd habove (hle slot hmem)
    have hlt := above_lt hn
    have hnext : fresh now_ms next = true := hfresh next hn.mem (by have := hn.above; omega)
    rw [hsome]
    dsimp only
    rw [if_neg (by omega), if_pos hnext]
    rcases Nat.lt_or_ge next.serial slot.serial with hlater | hsame
    · refine ih next.serial (events ++ [next]) (by omega) ?_ slot hmem hlater
      rw [length_append, length_singleton]
      omega
    obtain ⟨taken, hevents, -⟩ := take_loop_yields log now_ms capacity fuel next.serial (events ++ [next])
    refine ⟨next, ?_, Nat.le_antisymm (hn.least slot hmem habove) hsame⟩
    rw [hevents]
    simp

theorem above_le (last : Nat) (log : List NotificationSlot) : (above last log).length ≤ log.length :=
  length_filter_le _ log

theorem take_all (last : Nat) {now_ms capacity : Nat}
    (hfresh : ∀ slot ∈ log, slot.serial ≠ 0 → fresh now_ms slot = true)
    (hroom : log.length ≤ capacity) :
    ∀ slot ∈ log, last < slot.serial → ∃ e ∈ (take last log now_ms capacity).2, e.serial = slot.serial := by
  have hle := above_le last log
  refine take_loop_all log now_ms capacity hfresh _ last [] (Nat.lt_succ_of_le hle) ?_
  rw [length_nil, Nat.zero_add]
  exact hle.trans hroom

/-! ## One reader, again and again -/

/-- What a reader yields over its calls, each with its log, the time and the room. -/
def yielded : Nat → List (List NotificationSlot × Nat × Nat) → List NotificationSlot
  | _, [] => []
  | last, (log, now_ms, capacity) :: rest =>
    (take last log now_ms capacity).2 ++ yielded (take last log now_ms capacity).1 rest

/-- Whatever becomes of the log between the calls, what a reader yields gets newer, and a log held it. -/
theorem a_reader_never_goes_back (last : Nat) (calls : List (List NotificationSlot × Nat × Nat)) :
    ((yielded last calls).Pairwise fun a b => a.serial < b.serial) ∧
      ∀ e ∈ yielded last calls, last < e.serial ∧ ∃ call ∈ calls, e ∈ call.1 := by
  induction calls generalizing last with
  | nil => exact ⟨List.Pairwise.nil, fun _ h => nomatch h⟩
  | cons call rest ih =>
    obtain ⟨log, now_ms, capacity⟩ := call
    have hfirst := take_yields last log now_ms capacity
    obtain ⟨hordered, hlater⟩ := ih (take last log now_ms capacity).1
    rw [yielded]
    refine ⟨pairwise_append.mpr ⟨hfirst.ordered, hordered, fun a ha b hb => ?_⟩, fun e he => ?_⟩
    · exact Nat.lt_of_le_of_lt (hfirst.mem a ha).2.2 (hlater b hb).1
    rcases mem_append.mp he with he | he
    · obtain ⟨hlog, habove, -⟩ := hfirst.mem e he
      exact ⟨habove, _, mem_cons_self, hlog⟩
    · obtain ⟨habove, found, hfound, hin⟩ := hlater e he
      exact ⟨Nat.lt_of_le_of_lt hfirst.grows habove, found, mem_cons_of_mem _ hfound, hin⟩

end taxi_camera.sim_messages.NotificationReader
