-- What the counters of a stream say: each binding counts its own readings, one
-- after the other, and the counters of a latched or equals binding are the
-- times that its reading turned on and off.
import TaxiCam.LvarBindings
import Mathlib.Data.List.Infix

namespace taxi_camera.standalone

open List

/-! ## Turns of a reading -/

/-- The times that a list of readings turns to `onto`. -/
def turns (onto : Bool) : List Bool → Nat
  | a :: b :: rest => (if a ≠ b ∧ b = onto then 1 else 0) + turns onto (b :: rest)
  | _ => 0

theorem turns_snoc (onto : Bool) (l : List Bool) (a b : Bool) :
    turns onto (l ++ [a] ++ [b]) = turns onto (l ++ [a]) + if a ≠ b ∧ b = onto then 1 else 0 := by
  induction l with
  | nil => simp [turns]
  | cons x rest ih =>
    cases rest with
    | nil => simp [turns]
    | cons y rest =>
      simp only [cons_append, turns] at ih ⊢
      rw [ih, Nat.add_assoc]

theorem turns_le_of_longer (onto : Bool) {l l' : List Bool} (h : l <+: l') : turns onto l ≤ turns onto l' := by
  obtain ⟨rest, rfl⟩ := h
  induction rest using List.reverseRecOn with
  | nil => simp
  | append_singleton rest b ih =>
    apply Nat.le_trans ih
    rw [← append_assoc]
    rcases eq_nil_or_concat (l ++ rest) with hnil | ⟨before, a, hlast⟩
    · rw [hnil]
      simp [turns]
    rw [concat_eq_append] at hlast
    rw [hlast, turns_snoc]
    omega

/-- The turns to on and to off are as many, or one apart. -/
theorem turns_balance (first : Bool) (rest : List Bool) :
    turns true (first :: rest) + first.toNat =
      turns false (first :: rest) + ((first :: rest).getLast (cons_ne_nil _ _)).toNat := by
  induction rest generalizing first with
  | nil => simp [turns]
  | cons b rest ih =>
    have hnext := ih b
    rw [getLast_cons (cons_ne_nil _ _)]
    simp only [turns] at hnext ⊢
    cases first <;> cases b <;> simp at hnext ⊢ <;> omega

/-! ## The readings of one binding -/

section
variable (to_float : Rat → Rat) {s : LvarStream} {p : LvarPacket} {i : Nat}

/-- The values of a packet for one binding. -/
def readings (s : LvarStream) (i : Nat) (p : LvarPacket) (indices : List Nat) : List Rat :=
  indices.filterMap fun k => if s.lvar_slots k = i then p.values k else none

/-- The counters of a binding after some values. -/
def count_values (trigger : Nat) (counters : LvarBindingState × Bool)
    (values : List Rat) : LvarBindingState × Bool :=
  values.foldl (fun c v => count_value to_float trigger c.1 c.2 v) counters

theorem count_values_append (trigger : Nat) (counters : LvarBindingState × Bool) (vs ws : List Rat) :
    count_values to_float trigger counters (vs ++ ws) =
      count_values to_float trigger (count_values to_float trigger counters vs) ws :=
  foldl_append

/-- What no packet changes. -/
structure SameStream (s s' : LvarStream) : Prop where
  define : s'.lvar_define = s.lvar_define
  count : s'.lvar_count = s.lvar_count
  slots : s'.lvar_slots = s.lvar_slots
  triggers : s'.lvar_triggers = s.lvar_triggers

theorem SameStream.trans {s s' s'' : LvarStream} (h : SameStream s s') (h' : SameStream s' s'') : SameStream s s'' :=
  ⟨h'.define.trans h.define, h'.count.trans h.count, h'.slots.trans h.slots, h'.triggers.trans h.triggers⟩

def counters (s : LvarStream) (i : Nat) : LvarBindingState × Bool := (s.lvar i, s.lvar_was_on i)

/-- One value is a reading of its binding, and of no other. -/
theorem accept_value_spec (k : Nat) (hi : i < LvarBindingCount) :
    SameStream s (accept_value to_float p s k) ∧
      counters (accept_value to_float p s k) i =
        count_values to_float (s.lvar_triggers i) (counters s i) (readings s i p [k]) := by
  unfold accept_value readings
  rcases hvalue : p.values k with _ | value
  · refine ⟨⟨rfl, rfl, rfl, rfl⟩, ?_⟩
    simp [hvalue, count_values, counters]
  dsimp only
  split
  · rename_i hout
    refine ⟨⟨rfl, rfl, rfl, rfl⟩, ?_⟩
    have hother : s.lvar_slots k ≠ i := by omega
    simp [hother, count_values, counters]
  refine ⟨⟨rfl, rfl, rfl, rfl⟩, ?_⟩
  by_cases hself : s.lvar_slots k = i
  · subst hself
    simp [hvalue, count_values, counters]
  have hother : i ≠ s.lvar_slots k := Ne.symm hself
  simp [hself, hother, count_values, counters]

theorem accept_values_spec (indices : List Nat) (hi : i < LvarBindingCount) :
    SameStream s (indices.foldl (accept_value to_float p) s) ∧
      counters (indices.foldl (accept_value to_float p) s) i =
        count_values to_float (s.lvar_triggers i) (counters s i) (readings s i p indices) := by
  induction indices generalizing s with
  | nil => exact ⟨⟨rfl, rfl, rfl, rfl⟩, rfl⟩
  | cons k rest ih =>
    obtain ⟨hsame, hfirst⟩ := accept_value_spec to_float (s := s) (p := p) k hi
    obtain ⟨hlater, hrest⟩ := ih (s := accept_value to_float p s k)
    refine ⟨hsame.trans hlater, ?_⟩
    rw [foldl_cons, hrest, hfirst, hsame.triggers, ← count_values_append to_float]
    congr 1
    unfold readings
    rw [hsame.slots, ← filterMap_append]
    rfl

/-- A packet that is counted, with values that are finite and that a float holds. -/
structure Counted (s : LvarStream) (p : LvarPacket) : Prop where
  whole : ¬ (p.bytes < 40 ∨ p.sample_ms = 0)
  current : s.current p = true
  laid_out : s.laid_out p = true
  held : ∀ k, k < s.lvar_count → ∃ value, p.values k = some value ∧ to_float value = value

/-- The readings of a binding in one packet of the stream. -/
def readings_of (s : LvarStream) (i : Nat) (p : LvarPacket) : List Rat :=
  readings s i p (List.range s.lvar_count)

theorem accept_lvar_packet_spec (h : Counted to_float s p) (hi : i < LvarBindingCount) :
    SameStream s (accept_lvar_packet to_float s p).2 ∧
      counters (accept_lvar_packet to_float s p).2 i =
        count_values to_float (s.lvar_triggers i) (counters s i) (readings_of s i p) := by
  have hspec := accept_values_spec to_float (s := { s with lvar_error := "" }) (p := p) (List.range s.lvar_count) hi
  unfold accept_lvar_packet
  rw [if_neg h.whole, h.current, h.laid_out]
  exact ⟨⟨hspec.1.define, hspec.1.count, hspec.1.slots, hspec.1.triggers⟩, hspec.2⟩

theorem Counted.same {s' : LvarStream} (h : Counted to_float s p) (hsame : SameStream s s') :
    Counted to_float s' p := by
  have hcurrent := h.current
  have hlaid := h.laid_out
  have hheld := h.held
  unfold LvarStream.current at hcurrent
  unfold LvarStream.laid_out at hlaid
  rw [← hsame.define] at hcurrent hlaid
  rw [← hsame.count] at hlaid hheld
  exact ⟨h.whole, hcurrent, hlaid, hheld⟩

/-! ## Streams -/

/-- The stream after some packets. -/
def after (s : LvarStream) (packets : List LvarPacket) : LvarStream :=
  packets.foldl (fun s p => (accept_lvar_packet to_float s p).2) s

theorem published_eq (packets : List LvarPacket) :
    published to_float s packets = packets.inits.tail.map fun q => (after to_float s q).lvar := by
  induction packets generalizing s with
  | nil => rfl
  | cons p rest ih =>
    rw [published, ih, inits_cons, tail_cons, map_map]
    cases rest <;> simp [after]

/-- The readings of a binding, in the order of the packets. -/
def all_readings (s : LvarStream) (i : Nat) (packets : List LvarPacket) : List Rat :=
  packets.flatMap (readings_of s i)

theorem after_spec {packets : List LvarPacket} (h : ∀ p ∈ packets, Counted to_float s p) (hi : i < LvarBindingCount) :
    counters (after to_float s packets) i =
      count_values to_float (s.lvar_triggers i) (counters s i) (all_readings s i packets) := by
  induction packets generalizing s with
  | nil => rfl
  | cons p rest ih =>
    obtain ⟨hsame, hfirst⟩ := accept_lvar_packet_spec to_float (h p mem_cons_self) hi
    have hrest := ih fun q hq => (h q (mem_cons_of_mem _ hq)).same to_float hsame
    have hreadings : readings_of (accept_lvar_packet to_float s p).2 i = readings_of s i := by
      funext q
      unfold readings_of readings
      rw [hsame.slots, hsame.count]
    unfold all_readings at *
    rw [hreadings, hfirst, hsame.triggers, ← count_values_append] at hrest
    exact hrest

/-- Whether the stream has a value for the binding. -/
def Slotted (s : LvarStream) (i : Nat) : Prop := ∃ k, k < s.lvar_count ∧ s.lvar_slots k = i

instance : Decidable (Slotted s i) := by
  unfold Slotted
  infer_instance

theorem readings_of_slotted (h : Counted to_float s p) (hslot : Slotted s i) : readings_of s i p ≠ [] := by
  obtain ⟨k, hk, hslot⟩ := hslot
  obtain ⟨value, hvalue, _⟩ := h.held k hk
  apply ne_nil_of_mem (a := value)
  unfold readings_of readings
  rw [mem_filterMap]
  refine ⟨k, mem_range.mpr hk, ?_⟩
  rw [if_pos hslot]
  exact hvalue

theorem readings_of_unslotted (hslot : ¬ Slotted s i) : readings_of s i p = [] := by
  unfold readings_of readings
  rw [filterMap_eq_nil_iff]
  intro k hk
  rw [if_neg fun heq => hslot ⟨k, mem_range.mp hk, heq⟩]

theorem readings_of_held (h : Counted to_float s p) {value : Rat} (hv : value ∈ readings_of s i p) :
    to_float value = value := by
  unfold readings_of readings at hv
  rw [mem_filterMap] at hv
  obtain ⟨k, hk, hvalue⟩ := hv
  split at hvalue
  · obtain ⟨v, hv, hheld⟩ := h.held k (mem_range.mp hk)
    rw [hv] at hvalue
    cases hvalue
    exact hheld
  · cases hvalue

/-! ## Counters -/

/-- The counters stay in 32 bits, and a value is read for good. -/
theorem count_value_bounds (trigger : Nat) {read : LvarBindingState} (was_on : Bool) (value : Rat)
    (h : read.rises < 0x100000000 ∧ read.falls < 0x100000000) :
    (count_value to_float trigger read was_on value).1.rises < 0x100000000 ∧
      (count_value to_float trigger read was_on value).1.falls < 0x100000000 ∧
      (count_value to_float trigger read was_on value).1.read = true := by
  unfold count_value
  split
  · split
    · exact ⟨h.1, h.2, rfl⟩
    · exact ⟨Nat.mod_lt _ (by decide), Nat.mod_lt _ (by decide), rfl⟩
  refine ⟨?_, ?_, rfl⟩ <;> dsimp only <;> split
  · exact Nat.mod_lt _ (by decide)
  · exact h.1
  · exact Nat.mod_lt _ (by decide)
  · exact h.2

theorem count_values_bounds (trigger : Nat) (values : List Rat) :
    (count_values to_float trigger ({}, false) values).1.rises < 0x100000000 ∧
      (count_values to_float trigger ({}, false) values).1.falls < 0x100000000 ∧
      ((count_values to_float trigger ({}, false) values).1.read = true ↔ values ≠ []) := by
  induction values using List.reverseRecOn with
  | nil => simp [count_values]
  | append_singleton values v ih =>
    rw [count_values_append]
    have h := count_value_bounds to_float trigger
      (count_values to_float trigger ({}, false) values).2 v ⟨ih.1, ih.2.1⟩
    exact ⟨h.1, h.2.1, fun _ => by simp, fun _ => h.2.2⟩

/-- The counters of a latched or equals binding count its turns. -/
theorem count_values_turns {trigger : Nat} (htrigger : trigger ≠ LvarTrigger.momentary.value)
    (before : List Rat) (v : Rat) (hheld : ∀ x ∈ before ++ [v], to_float x = x) :
    let counted := count_values to_float trigger ({}, false) (before ++ [v])
    let on := (before ++ [v]).map (lvar_active trigger)
    counted.1.rises = turns true on % 0x100000000 ∧ counted.1.falls = turns false on % 0x100000000 ∧
      counted.2 = lvar_active trigger v ∧ counted.1.value = v ∧ counted.1.read = true := by
  dsimp only
  induction before using List.reverseRecOn generalizing v with
  | nil =>
    have hv := hheld v mem_cons_self
    simp [count_values, count_value, htrigger, turns, hv]
  | append_singleton before u ih =>
    have hv : to_float v = v := hheld v (by simp)
    obtain ⟨hrises, hfalls, hwas, _, hread⟩ := ih u fun x hx => hheld x (mem_append_left _ hx)
    rw [count_values_append]
    generalize count_values to_float trigger ({}, false) (before ++ [u]) = c at *
    have hturns (onto : Bool) : turns onto ((before ++ [u] ++ [v]).map (lvar_active trigger)) =
        turns onto ((before ++ [u]).map (lvar_active trigger)) +
          if lvar_active trigger u ≠ lvar_active trigger v ∧ lvar_active trigger v = onto then 1
          else 0 := by
      simp only [map_append, map_cons, map_nil]
      exact turns_snoc ..
    rw [hturns, hturns]
    simp only [count_values, foldl_cons, foldl_nil, count_value, if_neg htrigger, hread, hwas, hv, hrises, hfalls]
    generalize turns true _ = r
    generalize turns false _ = f
    cases lvar_active trigger u <;> cases lvar_active trigger v <;> simp

end

end taxi_camera.standalone
