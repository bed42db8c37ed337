-- For any packets of one stream, two companions that poll different states of
-- it, both the first one and the last, end with the displays the same: unless a
-- reading turned so often that both its counters came around.
import TaxiCam.LvarCommands

namespace taxi_camera.standalone

open List

section
variable (to_float : Rat → Rat) {s : LvarStream} {packets : List LvarPacket} {i : Nat}
  {generation : Nat} {bindings : Nat → LvarBinding} {t t' : LvarBindingTracker}
  {polls polls' : List (Nat → LvarBindingState)}

/-! ## One companion -/

/-- The presses in the states between the first and the last. -/
def presses_of (s : LvarStream) (i : Nat) (packets : List LvarPacket) : Nat :=
  let states := packets.inits.tail.map (state_of to_float s i)
  (states.headD {}).rises + (states.getLastD {}).rises

theorem toggles_of_polls (hfresh : Fresh s) (hcounted : ∀ p ∈ packets, Counted to_float s p)
    (hi : i < LvarBindingCount) (hunseen : t.Unseen generation)
    (hpolled : Polled polls (published to_float s packets))
    (hmomentary : (bindings i).trigger = LvarTrigger.momentary.value) :
    (commands_of i (poll bindings generation t polls)).count .toggle % 2 =
      if Silent s i generation (bindings i) then 0 else presses_of to_float s i packets % 2 := by
  by_cases hsilent : Silent s i generation (bindings i)
  · rw [if_pos hsilent, commands_of_silent to_float hfresh hcounted hi hpolled hsilent]
    rfl
  obtain ⟨first, rest, hsub, hhead, hlast, hcommands⟩ :=
    commands_of_read to_float hfresh hcounted hi hunseen hpolled hsilent
  have hbounds : ∀ state ∈ (first :: rest).map (state_of to_float s i), state.rises < 0x100000000 := by
    intro state hstate
    obtain ⟨q, hq, rfl⟩ := mem_map.mp hstate
    have hpre := (mem_inits_tail (hsub.subset hq)).1
    exact state_of_rises to_float hfresh (fun p hp => hcounted p (hpre.subset hp)) hi
  rw [if_neg hsilent, hcommands, emits_parity hmomentary hbounds]
  have hheadD : (packets.inits.tail.map (state_of to_float s i)).headD {} =
      state_of to_float s i first := by
    rw [headD_eq_head?_getD, List.head?_map, hhead]
    rfl
  have hlastD : (packets.inits.tail.map (state_of to_float s i)).getLastD {} =
      state_of to_float s i (rest.getLastD first) := by
    rw [getLastD_eq_getLast?, List.getLast?_map, hlast]
    rfl
  unfold presses_of
  dsimp only
  rw [hheadD, hlastD, getLastD_map]

/-- Whether anything turned between the first state and the last. -/
def Turned (s : LvarStream) (i : Nat) (packets : List LvarPacket) : Prop :=
  let first := tally s i (packets.inits.tail.headD [])
  let last := tally s i packets
  ¬ (first.rises = last.rises ∧ first.falls = last.falls)

instance : Decidable (Turned s i packets) := by
  unfold Turned
  infer_instance

theorem inits_last (packets : List LvarPacket) : packets.inits.getLast? = some packets := by
  induction packets with
  | nil => rfl
  | cons p rest ih =>
    rw [inits_cons, List.getLast?_cons, List.getLast?_map, ih]
    rfl

theorem inits_tail_last {last : List LvarPacket} (h : packets.inits.tail.getLast? = some last) : last = packets := by
  cases packets with
  | nil => cases h
  | cons p rest =>
    rw [inits_cons, tail_cons, List.getLast?_map] at h
    obtain ⟨q, hq, rfl⟩ := Option.map_eq_some_iff.mp h
    rw [inits_last] at hq
    cases hq
    rfl

theorem last_of_polls (hfresh : Fresh s) (hcounted : ∀ p ∈ packets, Counted to_float s p)
    (hi : i < LvarBindingCount) (hunseen : t.Unseen generation)
    (hpolled : Polled polls (published to_float s packets))
    (htrigger : s.lvar_triggers i = (bindings i).trigger)
    (hlatched : (bindings i).trigger ≠ LvarTrigger.momentary.value)
    (hfew : turns true (switched s i packets) < 0x100000000 ∨ turns false (switched s i packets) < 0x100000000) :
    (commands_of i (poll bindings generation t polls)).getLast? =
      if Silent s i generation (bindings i) ∨ ¬ Turned s i packets then none
      else some (switch (lvar_active (bindings i).trigger (state_of to_float s i packets).value)) := by
  by_cases hsilent : Silent s i generation (bindings i)
  · rw [if_pos (.inl hsilent), commands_of_silent to_float hfresh hcounted hi hpolled hsilent]
    rfl
  obtain ⟨first, rest, hsub, hhead, hlast, hcommands⟩ :=
    commands_of_read to_float hfresh hcounted hi hunseen hpolled hsilent
  have hslot : Slotted s i := by
    by_contra hno
    exact hsilent (.inr (.inr hno))
  have hmem : ∀ q ∈ first :: rest, q <+: packets ∧ q ≠ [] := fun q hq => mem_inits_tail (hsub.subset hq)
  have hshows : ∀ q ∈ first :: rest, (tally s i q).Shows (bindings i) (state_of to_float s i q) := by
    intro q hq
    obtain ⟨hpre, hne⟩ := hmem q hq
    exact state_of_shows to_float hfresh (fun p hp => hcounted p (hpre.subset hp)) hi htrigger
      hlatched (all_readings_ne_nil to_float hcounted hslot hpre hne)
  have hend := inits_tail_last hlast
  have hlastmem : packets ∈ first :: rest := hend ▸ getLastD_mem_cons
  have hemits := emits_last hlatched (tally s i) (state_of to_float s i) hshows
    (fun q hq => tally_balanced to_float hcounted hslot (hmem q hq).1 (hmem q hq).2)
    (fun q hq => by
      obtain ⟨hrises, hfalls⟩ := tally_le (s := s) (i := i) (hmem q hq).1
      exact hfew.imp (Nat.lt_of_le_of_lt hrises) (Nat.lt_of_le_of_lt hfalls))
    (((pairwise_inits packets).sublist (tail_sublist _)).sublist hsub |>.imp tally_le)
  rw [hcommands, hemits, hend, (hshows packets hlastmem).on]
  have hfirst : packets.inits.tail.headD [] = first := by
    rw [headD_eq_head?_getD, hhead]
    rfl
  have hturned : Turned s i packets ↔ ¬ ((tally s i first).rises = (tally s i packets).rises ∧
      (tally s i first).falls = (tally s i packets).falls) := by
    unfold Turned
    rw [hfirst]
  by_cases hsame : (tally s i first).rises = (tally s i packets).rises ∧
      (tally s i first).falls = (tally s i packets).falls
  · rw [if_pos hsame, if_pos (.inr fun h => hturned.mp h hsame)]
  rw [if_neg hsame, if_neg]
  rintro (h | h)
  · exact hsilent h
  · exact h (hturned.mpr hsame)

theorem published_last (states : Nat → LvarBindingState) (h : (published to_float s packets).getLast? = some states) :
    states i = state_of to_float s i packets := by
  rw [published_eq, List.getLast?_map] at h
  obtain ⟨q, hq, rfl⟩ := Option.map_eq_some_iff.mp h
  rw [inits_tail_last hq]
  rfl

end

/-! ## Streams of chosen values -/

section
variable (to_float : Rat → Rat) (s : LvarStream)

theorem published_append (packets later : List LvarPacket) :
    published to_float s (packets ++ later) =
      published to_float s packets ++ published to_float (after to_float s packets) later := by
  induction packets generalizing s with
  | nil => rfl
  | cons p rest ih =>
    rw [cons_append, published, ih]
    rfl

/-- The states that are polled at the two ends. -/
def first_and_last (a : LvarPacket) (more : List LvarPacket) (b : LvarPacket) :
    List (Nat → LvarBindingState) :=
  [(after to_float s [a]).lvar, (after to_float s (a :: (more ++ [b]))).lvar]

theorem first_and_last_polled (a : LvarPacket) (more : List LvarPacket) (b : LvarPacket) :
    Polled (first_and_last to_float s a more b) (published to_float s (a :: (more ++ [b]))) := by
  rw [published, published_append]
  have hlast : after to_float s (a :: (more ++ [b])) =
      (accept_lvar_packet to_float (after to_float (accept_lvar_packet to_float s a).2 more) b).2 := by
    unfold after
    rw [foldl_cons, foldl_append]
    rfl
  unfold first_and_last
  rw [hlast]
  exact Polled.more _ _ (nil_sublist _)

/-- The states that are polled at the two ends, and the second. -/
def first_second_and_last (a c : LvarPacket) (more : List LvarPacket) (b : LvarPacket) :
    List (Nat → LvarBindingState) :=
  [(after to_float s [a]).lvar, (after to_float s [a, c]).lvar,
    (after to_float s (a :: (c :: more ++ [b]))).lvar]

theorem first_second_and_last_polled (a c : LvarPacket) (more : List LvarPacket) (b : LvarPacket) :
    Polled (first_second_and_last to_float s a c more b) (published to_float s (a :: (c :: more ++ [b]))) := by
  rw [published, cons_append, published, published_append]
  have hlast : after to_float s (a :: (c :: more ++ [b])) =
      (accept_lvar_packet to_float
        (after to_float (accept_lvar_packet to_float (accept_lvar_packet to_float s a).2 c).2 more)
        b).2 := by
    unfold after
    rw [foldl_cons, cons_append, foldl_cons, foldl_append]
    rfl
  unfold first_second_and_last
  rw [hlast]
  exact Polled.more _ _ ((nil_sublist _).cons_cons _)

end

/-- A packet of the stream with the values. -/
def reading_packet (lvar_define : Nat) (values : List Rat) : LvarPacket where
  bytes := 40 + 8 * values.length
  header
    | 0 => 40 + 8 * values.length
    | 2 => 8
    | 3 => lvar_define
    | 5 => lvar_define
    | 9 => values.length
    | _ => 0
  values k := values[k]?
  sample_ms := 1

variable {on was : Bool} {values : List Rat} {before now : LvarBindingState}
variable {falls falls' rises : Nat}

theorem reading_packet_counted {s : LvarStream} (hdefine : s.lvar_define ≠ 0)
    (hcount : s.lvar_count = values.length) (hsome : values ≠ []) :
    Counted id s (reading_packet s.lvar_define values) := by
  refine ⟨?_, ?_, ?_, ?_⟩
  · simp [reading_packet]
  · simp [LvarStream.current, reading_packet, hdefine]
  · simp [LvarStream.laid_out, reading_packet, hcount, hsome]
  · intro k hk
    rw [hcount] at hk
    exact ⟨values[k], List.getElem?_eq_getElem hk, rfl⟩

/-- The name "A" and the trigger. -/
def bound (trigger : LvarTrigger) : LvarBinding :=
  { name := 65 :: List.replicate 63 0, trigger := trigger.value }

/-! ## Two companions -/

/-- Two companions that poll the same stream toggle alike, and the last of their on and off commands
is the same: the reading of the last state. -/
theorem commands_do_not_depend_on_polling (to_float : Rat → Rat) (lvar_define : Nat)
    (lvar_slots : Nat → Nat) (lvar_count : Nat) (bindings : Nat → LvarBinding) (generation : Nat)
    (packets : List LvarPacket)
    (hcounted : ∀ p ∈ packets, Counted to_float (begin_lvar_stream lvar_define lvar_slots lvar_count bindings) p)
    (t t' : LvarBindingTracker) (hunseen : t.Unseen generation) (hunseen' : t'.Unseen generation)
    (polls polls' : List (Nat → LvarBindingState))
    (hpolled : Polled polls
      (published to_float (begin_lvar_stream lvar_define lvar_slots lvar_count bindings) packets))
    (hpolled' : Polled polls'
      (published to_float (begin_lvar_stream lvar_define lvar_slots lvar_count bindings) packets))
    (i : Nat) (hi : i < LvarBindingCount) :
    let s := begin_lvar_stream lvar_define lvar_slots lvar_count bindings
    let commands := commands_of i (poll bindings generation t polls)
    let commands' := commands_of i (poll bindings generation t' polls')
    ((bindings i).trigger = LvarTrigger.momentary.value → commands.count .toggle % 2 = commands'.count .toggle % 2) ∧
    ((bindings i).trigger ≠ LvarTrigger.momentary.value →
      turns true (switched s i packets) < 0x100000000 ∨ turns false (switched s i packets) < 0x100000000 →
      commands.getLast? = commands'.getLast? ∧
        ∀ kind, commands.getLast? = some kind →
          ∀ states, (published to_float s packets).getLast? = some states →
            kind = switch (lvar_active (bindings i).trigger (states i).value)) := by
  have hfresh := begin_lvar_stream_fresh lvar_define lvar_slots lvar_count bindings
  intro s commands commands'
  refine ⟨?_, ?_⟩
  · intro hmomentary
    rw [toggles_of_polls to_float hfresh hcounted hi hunseen hpolled hmomentary,
      toggles_of_polls to_float hfresh hcounted hi hunseen' hpolled' hmomentary]
  · intro hlatched hfew
    have hone := last_of_polls to_float hfresh hcounted hi hunseen hpolled rfl hlatched hfew
    have htwo := last_of_polls to_float hfresh hcounted hi hunseen' hpolled' rfl hlatched hfew
    refine ⟨hone.trans htwo.symm, ?_⟩
    intro kind hkind states hstates
    rw [published_last to_float states hstates]
    have hkind := hone.symm.trans hkind
    split at hkind
    · cases hkind
    cases hkind
    rfl

/-- A button, and then switches. -/
def button_and_switches (i : Nat) : LvarBinding := bound (if i = 0 then .momentary else .latched)

/-- A press and a switch on, with two polls or three. -/
theorem button_and_switch_agree :
    let s := begin_lvar_stream 3 id 2 button_and_switches
    let a := reading_packet 3 [0, 0]
    let c := reading_packet 3 [1, 1]
    let more := [reading_packet 3 [0, 1], reading_packet 3 [0, 0]]
    let b := reading_packet 3 [0, 1]
    let commands := poll button_and_switches 7 {} (first_and_last id s a (c :: more) b)
    let commands' := poll button_and_switches 7 {} (first_second_and_last id s a c more b)
    (commands_of 0 commands).count .toggle % 2 = (commands_of 0 commands').count .toggle % 2 ∧
      (commands_of 1 commands).getLast? = (commands_of 1 commands').getLast? := by
  intro s a c more b commands commands'
  have hcounted : ∀ p ∈ a :: (c :: more ++ [b]), Counted id s p := by
    intro p hp
    simp only [more, cons_append, nil_append, mem_cons, not_mem_nil, or_false] at hp
    rcases hp with rfl | rfl | rfl | rfl | rfl <;>
      exact reading_packet_counted (s := s) (by decide) rfl (cons_ne_nil _ _)
  have hboth := commands_do_not_depend_on_polling id 3 id 2 button_and_switches 7
    (a :: (c :: more ++ [b])) hcounted {} {} (fun h => h.symm) (fun h => h.symm)
    (first_and_last id s a (c :: more) b) (first_second_and_last id s a c more b)
    (first_and_last_polled id s a (c :: more) b) (first_second_and_last_polled id s a c more b)
  refine ⟨(hboth 0 (by decide)).1 rfl, ?_⟩
  exact ((hboth 1 (by decide)).2 (by decide) (Or.inl (by decide +kernel))).1

/-- The values of a switch that turns on and off `n` times. -/
def flips (n : Nat) : List Rat := (List.replicate n [0, 1]).flatten

theorem turns_flips (onto : Bool) (n : Nat) : turns onto ((flips (n + 1) ++ [0]).map lvar_on) = n + 1 := by
  unfold flips
  induction n with
  | zero => cases onto <;> decide +kernel
  | succ n ih =>
    have hoff : lvar_on 0 = false := by decide +kernel
    have hon : lvar_on 1 = true := by decide +kernel
    rw [replicate_succ, flatten_cons] at ih ⊢
    rw [replicate_succ, flatten_cons]
    simp only [cons_append, nil_append, map_cons, hoff, hon, turns] at ih ⊢
    cases onto <;> simp at ih ⊢ <;> omega

/-- One switch, in a stream of its own. -/
def one_switch : LvarStream := begin_lvar_stream 3 id 1 fun _ => bound .latched

def switch_packet (value : Rat) : LvarPacket := reading_packet 3 [value]

theorem one_switch_counted (values : List Rat) : ∀ p ∈ values.map switch_packet, Counted id one_switch p := by
  intro p hp
  obtain ⟨v, -, rfl⟩ := mem_map.mp hp
  exact reading_packet_counted (s := one_switch) (by decide) rfl (cons_ne_nil _ _)

/-- A state of the switch: its counters, and its reading. -/
structure Switched (state : LvarBindingState) (rises falls : Nat) (on : Bool) : Prop where
  rises : state.rises = rises
  falls : state.falls = falls
  on : lvar_on state.value = on
  read : state.read = true

theorem one_switch_shows (hsome : values ≠ []) :
    Switched (state_of id one_switch 0 (values.map switch_packet))
      (turns true (values.map lvar_on) % 0x100000000) (turns false (values.map lvar_on) % 0x100000000)
      ((values.map lvar_on).getLastD false) := by
  have hreadings : all_readings one_switch 0 (values.map switch_packet) = values := by
    unfold all_readings
    rw [flatMap_map]
    exact flatMap_singleton' values
  have hactive : lvar_active (one_switch.lvar_triggers 0) = lvar_on := rfl
  have hfresh : Fresh one_switch := begin_lvar_stream_fresh ..
  have hcounted := one_switch_counted values
  have hnonempty := hsome
  rw [← hreadings] at hnonempty
  have hshows : (tally one_switch 0 (values.map switch_packet)).Shows (bound .latched) _ :=
    state_of_shows id hfresh hcounted (by decide) rfl (by decide) hnonempty
  have hread := (state_of_read id hfresh hcounted (i := 0) (by decide)).mpr hnonempty
  have htally : tally one_switch 0 (values.map switch_packet) =
      ⟨turns true (values.map lvar_on), turns false (values.map lvar_on), (values.map lvar_on).getLastD false⟩ := by
    unfold tally switched
    rw [hreadings, hactive]
  rw [htally] at hshows
  exact ⟨hshows.rises, hshows.falls, hshows.on, hread⟩

theorem emit_same (binding : LvarBinding) (hbefore : Switched before rises falls was) (hnow : Switched now rises falls on) :
    emit binding before now = none := by
  unfold emit
  rw [hbefore.rises, hbefore.falls, hnow.rises, hnow.falls, if_pos]
  unfold counted
  omega

theorem emit_off (hbefore : Switched before 1 falls was) (hnow : Switched now 0 falls' false) :
    emit (bound .latched) before now = some .off := by
  have hactive : lvar_active (bound .latched).trigger now.value = false := hnow.on
  unfold emit
  rw [hbefore.rises, hnow.rises, hactive, if_neg, if_neg (by decide)]
  · rfl
  · rintro ⟨hrises, -⟩
    cases hrises

/-- What a new companion makes of polls of the switch that are read. -/
theorem one_switch_commands {first : Nat → LvarBindingState} {rest : List (Nat → LvarBindingState)}
    (hread : ∀ states ∈ first :: rest, (states 0).read = true) :
    commands_of 0 (poll (fun _ => bound .latched) 7 {} (first :: rest)) =
      emits (bound .latched) (first 0) (rest.map fun states => states 0) := by
  rw [commands_of_poll (by decide), map_cons]
  apply kinds_first (by decide) (by decide) rfl
  intro state hstate
  rw [← map_cons (f := fun states : Nat → LvarBindingState => states 0)] at hstate
  obtain ⟨states, hstates, rfl⟩ := mem_map.mp hstate
  exact hread states hstates

theorem two_polls {x y : Nat → LvarBindingState}
    (hx : Switched (x 0) rises falls was) (hy : Switched (y 0) rises falls on) :
    (commands_of 0 (poll (fun _ => bound .latched) 7 {} [x, y])).getLast? = none := by
  have hread : ∀ states ∈ [x, y], (states 0).read = true := by
    simp only [mem_cons, not_mem_nil, or_false]
    rintro states (rfl | rfl)
    · exact hx.read
    · exact hy.read
  rw [one_switch_commands hread]
  simp only [map_cons, map_nil, emits]
  rw [emit_same _ hx hy]
  rfl

theorem three_polls {x z y : Nat → LvarBindingState} {falls'' : Nat} (hx : Switched (x 0) rises falls was) (hz : Switched (z 0) 1 falls' on)
    (hy : Switched (y 0) 0 falls'' false) :
    (commands_of 0 (poll (fun _ => bound .latched) 7 {} [x, z, y])).getLast? = some .off := by
  have hread : ∀ states ∈ [x, z, y], (states 0).read = true := by
    simp only [mem_cons, not_mem_nil, or_false]
    rintro states (rfl | rfl | rfl)
    · exact hx.read
    · exact hz.read
    · exact hy.read
  rw [one_switch_commands hread]
  simp only [map_cons, map_nil, emits]
  rw [emit_off hz hy]
  exact List.getLast?_concat

/-- A switch that turns on and off 2^32 times is as it was for one companion, and off for another
that also polled it on. -/
theorem two_polls_miss_what_three_see :
    ∃ (packets : List LvarPacket) (polls polls' : List (Nat → LvarBindingState)),
      let bindings := fun _ => bound .latched
      let s := begin_lvar_stream 3 id 1 bindings
      (∀ p ∈ packets, Counted id s p) ∧ Polled polls (published id s packets) ∧
      Polled polls' (published id s packets) ∧
      (commands_of 0 (poll bindings 7 {} polls)).getLast? = none ∧
      (commands_of 0 (poll bindings 7 {} polls')).getLast? = some .off := by
  obtain ⟨n, hn⟩ : ∃ n, n + 1 = 0x100000000 := ⟨0xffffffff, rfl⟩
  have hall : (flips (n + 1) ++ [0]).map switch_packet =
      switch_packet 0 :: (switch_packet 1 :: (flips n).map switch_packet ++ [switch_packet 0]) := by
    unfold flips
    rw [replicate_succ, flatten_cons]
    simp
  have hcounted := one_switch_counted (flips (n + 1) ++ [0])
  have hsome : flips (n + 1) ++ [0] ≠ [] := append_ne_nil_of_right_ne_nil _ (cons_ne_nil _ _)
  have hlast := one_switch_shows hsome
  have hvalues : ([0, 1] : List Rat).map lvar_on = [false, true] := by decide +kernel
  have hfirst := one_switch_shows (cons_ne_nil (0 : Rat) [])
  have hsecond := one_switch_shows (cons_ne_nil (0 : Rat) [1])
  rw [hvalues] at hsecond
  have hends : ((flips (n + 1) ++ [0]).map lvar_on).getLastD false = false := by
    rw [map_append, map_singleton, getLastD_concat]
    decide +kernel
  rw [turns_flips, turns_flips, hends, hall, hn] at hlast
  rw [hall] at hcounted
  refine ⟨_, _, _, hcounted, first_and_last_polled .., first_second_and_last_polled .., ?_, ?_⟩
  · exact two_polls hfirst hlast
  · exact three_polls hfirst hsecond hlast

end taxi_camera.standalone
