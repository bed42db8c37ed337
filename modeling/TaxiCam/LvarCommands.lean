-- Button commands do not depend on which states of a stream the companion
-- polls: it differences the counters of the two states that it has, and the
-- counters of all the states between them add up.
import TaxiCam.LvarCounting

namespace taxi_camera.standalone

open List
open LvarTrigger (momentary)

/-! ## Polls -/

section
variable {σ τ : Type}

/-- Some of the states, in order, and among them the first and the last. -/
inductive Polled : List σ → List σ → Prop
  | one (state : σ) : Polled [state] [state]
  | more (first last : σ) {middle interior : List σ} (h : middle.Sublist interior) :
      Polled (first :: (middle ++ [last])) (first :: (interior ++ [last]))

variable {polls states : List σ}

/-- Polls of images are images of polls. -/
theorem Polled.of_map {f : τ → σ} {l : List τ} (h : Polled polls (l.map f)) : ∃ q, Polled q l ∧ polls = q.map f := by
  generalize hl : l.map f = states at h
  cases h with
  | one state =>
    obtain ⟨x, rfl, rfl⟩ := map_eq_singleton_iff.mp hl
    exact ⟨[x], .one x, rfl⟩
  | more first last h =>
    obtain ⟨a, rest, rfl, rfl, hrest⟩ := map_eq_cons_iff.mp hl
    obtain ⟨inside, tail, rfl, rfl, htail⟩ := map_eq_append_iff.mp hrest
    obtain ⟨b, rfl, rfl⟩ := map_eq_singleton_iff.mp htail
    obtain ⟨middle, hmiddle, rfl⟩ := sublist_map_iff.mp h
    exact ⟨a :: (middle ++ [b]), .more a b hmiddle, by simp⟩

theorem Polled.sublist (h : Polled polls states) : polls.Sublist states := by
  cases h with
  | one state => exact List.Sublist.refl _
  | more first last h => exact (h.append_right [last]).cons_cons first

/-- The first state, the later ones that are polled, and the last of all. -/
theorem Polled.cases_head (h : Polled polls states) :
    ∃ first rest, polls = first :: rest ∧ states.head? = some first ∧
      states.getLast? = some (rest.getLastD first) := by
  cases h with
  | one state => exact ⟨state, [], rfl, rfl, rfl⟩
  | more first last h =>
    refine ⟨first, _, rfl, rfl, ?_⟩
    rw [List.getLast?_cons, List.getLast?_concat, getLastD_concat]
    rfl

end

/-! ## One binding -/

section
variable {generation : Nat} {binding : LvarBinding} {t : Tracked}

/-- The kinds of the commands that the tracker makes of the states of one binding. -/
def kinds (generation : Nat) (binding : LvarBinding) : Tracked → List LvarBindingState →
    List LvarCommandKind
  | _, [] => []
  | t, state :: rest =>
    let updated := update_binding generation binding state t
    updated.2.toList ++ kinds generation binding updated.1 rest

theorem restart_generation (t : LvarBindingTracker) (generation : Nat) :
    (t.restart generation).generation = generation := by
  unfold LvarBindingTracker.restart
  split
  · rfl
  rename_i h
  exact (not_not.mp h).symm

theorem restart_same {t : LvarBindingTracker} (h : t.generation = generation) :
    t.restart generation = t := if_neg (not_not.mpr h.symm)

theorem commands_of_append (i : Nat) (l l' : List LvarCommand) :
    commands_of i (l ++ l') = commands_of i l ++ commands_of i l' := by
  unfold commands_of
  rw [filter_append, map_append]

theorem commands_of_range (i n : Nat) (f : Nat → Option LvarCommandKind) :
    commands_of i ((List.range n).filterMap fun j => (f j).map fun kind => ⟨j, kind⟩) =
      if i < n then (f i).toList else [] := by
  induction n with
  | zero => rfl
  | succ n ih =>
    rw [range_succ, filterMap_append, commands_of_append, ih]
    by_cases hlast : i = n
    · subst hlast
      rcases hf : f i with _ | kind <;> simp [commands_of, hf]
    have hnone : commands_of i ([n].filterMap fun j => (f j).map fun kind => ⟨j, kind⟩) = [] := by
      rcases hf : f n with _ | kind <;> simp [commands_of, hf, Ne.symm hlast]
    rw [hnone, append_nil]
    by_cases hlt : i < n
    · rw [if_pos hlt, if_pos (Nat.lt_succ_of_lt hlt)]
    · rw [if_neg hlt, if_neg (by omega)]

/-- Each binding of the tracker makes its commands by itself. -/
theorem commands_of_poll {i : Nat} (hi : i < LvarBindingCount) (bindings : Nat → LvarBinding)
    (generation : Nat) (t : LvarBindingTracker) (polls : List (Nat → LvarBindingState)) :
    commands_of i (poll bindings generation t polls) =
      kinds generation (bindings i) ((t.restart generation).tracked i) (polls.map fun s => s i) := by
  induction polls generalizing t with
  | nil => rfl
  | cons states rest ih =>
    have hnext : ((t.update bindings generation states).1.restart generation).tracked i =
        (update_binding generation (bindings i) (states i) ((t.restart generation).tracked i)).1 := by
      have hsame : (t.update bindings generation states).1.restart generation =
          (t.update bindings generation states).1 := restart_same (restart_generation t generation)
      rw [hsame]
      exact if_pos hi
    have hnow : commands_of i (t.update bindings generation states).2 =
        (update_binding generation (bindings i) (states i) ((t.restart generation).tracked i)).2.toList := by
      unfold LvarBindingTracker.update
      rw [commands_of_range i LvarBindingCount, if_pos hi]
    rw [poll, commands_of_append, ih, hnext, hnow]
    rfl

/-- A tracker that has made nothing of the stream; generation 0 is no stream. -/
def LvarBindingTracker.Unseen (t : LvarBindingTracker) (generation : Nat) : Prop :=
  t.generation = generation → generation = 0

theorem restart_unseen {t : LvarBindingTracker} (h : t.Unseen generation) (hgen : generation ≠ 0)
    (i : Nat) : ((t.restart generation).tracked i).known = false := by
  unfold LvarBindingTracker.restart
  rw [if_pos]
  intro heq
  exact hgen (h heq.symm)

variable {first : Bool} {states : List LvarBindingState} {before now : LvarBindingState}
variable {g g' : Tally}

/-- A binding that is never read makes no command. -/
theorem kinds_unread (h : generation = 0 ∨ binding.name.headD 0 = 0 ∨ ∀ state ∈ states, state.read = false) :
    kinds generation binding t states = [] := by
  induction states generalizing t with
  | nil => rfl
  | cons state rest ih =>
    have hskip : generation = 0 ∨ binding.name.headD 0 = 0 ∨ state.read = false := by
      rcases h with h | h | h
      · exact .inl h
      · exact .inr (.inl h)
      · exact .inr (.inr (h state mem_cons_self))
    have hrest := ih (t := (update_binding generation binding state t).1) (by
      rcases h with h | h | h
      · exact .inl h
      · exact .inr (.inl h)
      · exact .inr (.inr fun x hx => h x (mem_cons_of_mem _ hx)))
    rw [kinds, hrest]
    unfold update_binding
    rw [if_pos hskip]
    rfl

/-- What the tracker makes of two states of a binding. -/
def emit (binding : LvarBinding) (before now : LvarBindingState) : Option LvarCommandKind :=
  let rises := counted now.rises before.rises
  let falls := counted now.falls before.falls
  if rises = 0 ∧ falls = 0 then none
  else if binding.trigger = momentary.value then
    if rises % 2 ≠ 0 then some .toggle else none
  else some (if lvar_active binding.trigger now.value then .on else .off)

def emits (binding : LvarBinding) : LvarBindingState → List LvarBindingState → List LvarCommandKind
  | _, [] => []
  | before, now :: rest => (emit binding before now).toList ++ emits binding now rest

/-- The tracker after it has read a state. -/
def tracking (binding : LvarBinding) (state : LvarBindingState) : Tracked :=
  { name := binding.name, known := true, rises := state.rises, falls := state.falls }

theorem update_known (hgen : generation ≠ 0) (hname : binding.name.headD 0 ≠ 0) (hread : now.read = true) :
    update_binding generation binding now (tracking binding before) =
      (tracking binding now, emit binding before now) := by
  have hgo : ¬ (generation = 0 ∨ binding.name.headD 0 = 0 ∨ now.read = false) := by
    rintro (h | h | h)
    · exact hgen h
    · exact hname h
    · exact Bool.noConfusion (h.symm.trans hread)
  unfold update_binding tracking emit
  rw [if_neg (not_not.mpr rfl), if_neg hgo]
  dsimp only
  rw [if_neg (by decide)]
  split
  · rfl
  · split <;> rfl

theorem kinds_known (hgen : generation ≠ 0) (hname : binding.name.headD 0 ≠ 0)
    (hread : ∀ state ∈ states, state.read = true) :
    kinds generation binding (tracking binding before) states = emits binding before states := by
  induction states generalizing before with
  | nil => rfl
  | cons now rest ih =>
    rw [kinds, update_known hgen hname (hread now mem_cons_self), emits]
    rw [ih fun x hx => hread x (mem_cons_of_mem _ hx)]

/-- The first state only records the counters. -/
theorem kinds_first (hgen : generation ≠ 0) (hname : binding.name.headD 0 ≠ 0)
    (hunknown : t.known = false) {first : LvarBindingState} {rest : List LvarBindingState}
    (hread : ∀ state ∈ first :: rest, state.read = true) :
    kinds generation binding t (first :: rest) = emits binding first rest := by
  have hgo : ¬ (generation = 0 ∨ binding.name.headD 0 = 0 ∨ first.read = false) := by
    rintro (h | h | h)
    · exact hgen h
    · exact hname h
    · exact Bool.noConfusion (h.symm.trans (hread first mem_cons_self))
  have hupdate : update_binding generation binding first t = (tracking binding first, none) := by
    unfold update_binding tracking
    rw [if_neg hgo]
    by_cases heq : binding.name = t.name
    · rw [if_neg (not_not.mpr heq), if_pos hunknown, heq]
    rw [if_pos heq]
    rw [if_pos rfl]
  rw [kinds, hupdate]
  exact kinds_known hgen hname fun x hx => hread x (mem_cons_of_mem _ hx)

/-! ## Momentary bindings -/

theorem counted_parity {now before : Nat} (h : before < 0x100000000) :
    counted now before % 2 = (before + now) % 2 := by
  unfold counted
  omega

/-- The toggles have the parity of all the presses between the first state and the last. -/
theorem emits_parity (hmomentary : binding.trigger = momentary.value)
    (hbounds : ∀ state ∈ before :: states, state.rises < 0x100000000) :
    (emits binding before states).count .toggle % 2 = (before.rises + (states.getLastD before).rises) % 2 := by
  induction states generalizing before with
  | nil =>
    simp only [emits, count_nil, getLastD_nil]
    omega
  | cons now rest ih =>
    have hrest := ih fun x hx => hbounds x (mem_cons_of_mem _ hx)
    have hparity : counted now.rises before.rises % 2 = (before.rises + now.rises) % 2 :=
      counted_parity (hbounds before mem_cons_self)
    have hone : ((emit binding before now).toList.count .toggle) % 2 = counted now.rises before.rises % 2 := by
      unfold emit
      dsimp only
      split
      · rename_i hnone
        rw [hnone.1]
        rfl
      split
      · rename_i hodd
        rw [Nat.mod_two_ne_zero.mp hodd]
        rfl
      rename_i heven
      rw [not_not.mp heven]
      rfl
    rw [emits, count_append, getLastD_cons]
    omega

/-! ## Latched and equals bindings -/

/-- The turns so far, and the reading. -/
structure Tally where
  rises : Nat
  falls : Nat
  on : Bool

/-- The state that the tally is published as. -/
structure Tally.Shows (g : Tally) (binding : LvarBinding) (state : LvarBindingState) : Prop where
  rises : state.rises = g.rises % 0x100000000
  falls : state.falls = g.falls % 0x100000000
  on : lvar_active binding.trigger state.value = g.on

/-- Every turn to on is followed by one to off: from the reading `first` on. -/
def Tally.Balanced (first : Bool) (g : Tally) : Prop :=
  g.rises + first.toNat = g.falls + g.on.toNat

/-- The turns of `g` are among those of `g'`. -/
def Tally.Le (g g' : Tally) : Prop := g.rises ≤ g'.rises ∧ g.falls ≤ g'.falls

def switch (on : Bool) : LvarCommandKind := if on then .on else .off

theorem Tally.on_eq (hg : g.Balanced first) (hg' : g'.Balanced first)
    (hrises : g.rises = g'.rises) (hfalls : g.falls = g'.falls) : g.on = g'.on := by
  unfold Tally.Balanced at hg hg'
  have hbit : g.on.toNat = g'.on.toNat := by omega
  cases hgon : g.on <;> cases hgon' : g'.on <;> rw [hgon, hgon'] at hbit <;> first | rfl | cases hbit

theorem Tally.eq_of_counted (hle : g.Le g') (hg : g.Balanced first) (hg' : g'.Balanced first)
    (hfew : g'.rises < 0x100000000 ∨ g'.falls < 0x100000000)
    (hrises : counted (g'.rises % 0x100000000) (g.rises % 0x100000000) = 0)
    (hfalls : counted (g'.falls % 0x100000000) (g.falls % 0x100000000) = 0) :
    g.rises = g'.rises ∧ g.falls = g'.falls ∧ g.on = g'.on := by
  obtain ⟨hr, hf⟩ := hle
  have hon := Bool.toNat_le g.on
  have hon' := Bool.toNat_le g'.on
  have hrises' : g.rises = g'.rises ∧ g.falls = g'.falls := by
    unfold Tally.Balanced at hg hg'
    unfold counted at hrises hfalls
    omega
  exact ⟨hrises'.1, hrises'.2, on_eq hg hg' hrises'.1 hrises'.2⟩

/-- Two polled states: no command when nothing turned, else the reading of the later one. -/
theorem emit_tally (hlatched : binding.trigger ≠ momentary.value) (hshows : g.Shows binding before)
    (hshows' : g'.Shows binding now) (hle : g.Le g') (hg : g.Balanced first)
    (hg' : g'.Balanced first) (hfew : g'.rises < 0x100000000 ∨ g'.falls < 0x100000000) :
    emit binding before now = if g.rises = g'.rises ∧ g.falls = g'.falls then none else some (switch g'.on) := by
  unfold emit
  dsimp only
  rw [hshows.rises, hshows.falls, hshows'.rises, hshows'.falls, hshows'.on, if_neg hlatched]
  by_cases hsame : g.rises = g'.rises ∧ g.falls = g'.falls
  · rw [if_pos hsame, if_pos]
    rw [hsame.1, hsame.2]
    unfold counted
    omega
  rw [if_neg hsame, if_neg]
  · rfl
  · intro hzero
    obtain ⟨hr, hf, -⟩ := Tally.eq_of_counted hle hg hg' hfew hzero.1 hzero.2
    exact hsame ⟨hr, hf⟩

/-- The last command of the polls is the last reading, and there is none when nothing turned. -/
theorem emits_last (hlatched : binding.trigger ≠ momentary.value)
    {α : Type} (g : α → Tally) (state : α → LvarBindingState) {before : α} {rest : List α}
    (hshows : ∀ x ∈ before :: rest, (g x).Shows binding (state x))
    (hbalanced : ∀ x ∈ before :: rest, (g x).Balanced first)
    (hfew : ∀ x ∈ before :: rest, (g x).rises < 0x100000000 ∨ (g x).falls < 0x100000000)
    (hmono : (before :: rest).Pairwise fun x y => (g x).Le (g y)) :
    (emits binding (state before) (rest.map state)).getLast? =
      if (g before).rises = (g (rest.getLastD before)).rises ∧
          (g before).falls = (g (rest.getLastD before)).falls then none
      else some (switch (g (rest.getLastD before)).on) := by
  induction rest generalizing before with
  | nil => simp [emits]
  | cons now rest ih =>
    have hnow : now ∈ before :: now :: rest := by simp
    obtain ⟨hfirst, hlater⟩ := pairwise_cons.mp hmono
    have hle := hfirst now mem_cons_self
    have hrest := ih (fun x hx => hshows x (mem_cons_of_mem _ hx)) (fun x hx => hbalanced x (mem_cons_of_mem _ hx))
      (fun x hx => hfew x (mem_cons_of_mem _ hx)) hlater
    rw [map_cons, emits, List.getLast?_append, hrest, getLastD_cons,
      emit_tally hlatched (hshows before mem_cons_self) (hshows now hnow) hle
        (hbalanced before mem_cons_self) (hbalanced now hnow) (hfew now hnow)]
    have hlast : rest.getLastD now ∈ now :: rest := getLastD_mem_cons
    have hmore : (g now).rises ≤ (g (rest.getLastD now)).rises ∧ (g now).falls ≤ (g (rest.getLastD now)).falls := by
      rcases mem_cons.mp hlast with heq | hin
      · rw [heq]
        exact ⟨Nat.le_refl _, Nat.le_refl _⟩
      · exact (pairwise_cons.mp hlater).1 _ hin
    have hnowbalanced := hbalanced now hnow
    have hlastbalanced := hbalanced _ (mem_cons_of_mem _ hlast)
    generalize g (rest.getLastD now) = l at *
    generalize g now = n at *
    generalize g before = b at *
    obtain ⟨hbr, hbf⟩ := hle
    by_cases hsame : n.rises = l.rises ∧ n.falls = l.falls
    · have hon := Tally.on_eq hnowbalanced hlastbalanced hsame.1 hsame.2
      rw [if_pos hsame, Option.none_or, ← hsame.1, ← hsame.2, ← hon]
      split <;> rfl
    have hdiffer : ¬ (b.rises = l.rises ∧ b.falls = l.falls) := by omega
    rw [if_neg hsame, if_neg hdiffer]
    rfl

end

/-! ## Streams -/

section
variable (to_float : Rat → Rat) {s : LvarStream} {packets : List LvarPacket} {i : Nat}

/-- The readings of a binding, on or off. -/
def switched (s : LvarStream) (i : Nat) (packets : List LvarPacket) : List Bool :=
  (all_readings s i packets).map (lvar_active (s.lvar_triggers i))

def tally (s : LvarStream) (i : Nat) (packets : List LvarPacket) : Tally where
  rises := turns true (switched s i packets)
  falls := turns false (switched s i packets)
  on := (switched s i packets).getLastD false

variable {q q' : List LvarPacket}

/-- A prefix of the packets, not empty. -/
theorem mem_inits_tail (hq : q ∈ packets.inits.tail) : q <+: packets ∧ q ≠ [] := by
  cases packets with
  | nil => cases hq
  | cons p rest =>
    rw [inits_cons, tail_cons, mem_map] at hq
    obtain ⟨q, hq, rfl⟩ := hq
    exact ⟨cons_prefix_cons.mpr ⟨rfl, (mem_inits _ _).mp hq⟩, cons_ne_nil _ _⟩

theorem pairwise_inits (packets : List LvarPacket) : packets.inits.Pairwise (fun q q' => q <+: q') := by
  induction packets with
  | nil => simp
  | cons p rest ih =>
    rw [inits_cons, pairwise_cons]
    refine ⟨fun q _ => nil_prefix, ?_⟩
    rw [pairwise_map]
    exact ih.imp fun h => cons_prefix_cons.mpr ⟨rfl, h⟩

theorem switched_grows (h : q <+: q') : switched s i q <+: switched s i q' := by
  obtain ⟨rest, rfl⟩ := h
  unfold switched all_readings
  rw [flatMap_append, map_append]
  exact prefix_append ..

theorem tally_le (h : q <+: q') : (tally s i q).Le (tally s i q') :=
  ⟨turns_le_of_longer true (switched_grows h), turns_le_of_longer false (switched_grows h)⟩

theorem all_readings_ne_nil (hcounted : ∀ p ∈ packets, Counted to_float s p)
    (hslot : Slotted s i) (hq : q <+: packets) (hne : q ≠ []) :
    all_readings s i q ≠ [] := by
  obtain ⟨p, rest, rfl⟩ := exists_cons_of_ne_nil hne
  have hp := hcounted p (hq.subset mem_cons_self)
  unfold all_readings
  rw [flatMap_cons]
  exact append_ne_nil_of_left_ne_nil (readings_of_slotted to_float hp hslot) _

theorem tally_balanced (hcounted : ∀ p ∈ packets, Counted to_float s p) (hslot : Slotted s i) (hq : q <+: packets) (hne : q ≠ []) :
    (tally s i q).Balanced ((switched s i packets).headD false) := by
  obtain ⟨first, rest, hfirst⟩ : ∃ first rest, switched s i q = first :: rest := by
    apply exists_cons_of_ne_nil
    intro hnil
    exact all_readings_ne_nil to_float hcounted hslot hq hne (map_eq_nil_iff.mp hnil)
  have hhead : (switched s i packets).headD false = first := by
    obtain ⟨later, hlater⟩ := switched_grows (s := s) (i := i) hq
    rw [← hlater, hfirst]
    rfl
  have hbalance := turns_balance first rest
  unfold Tally.Balanced tally
  rw [hhead, hfirst]
  rw [getLastD_cons]
  rw [getLast_eq_getLastD] at hbalance
  exact hbalance

/-- The state of a binding after some packets. -/
def state_of (s : LvarStream) (i : Nat) (packets : List LvarPacket) : LvarBindingState :=
  (after to_float s packets).lvar i

/-- Nothing has been counted. -/
structure Fresh (s : LvarStream) : Prop where
  lvar : ∀ i, s.lvar i = {}
  was_on : ∀ i, s.lvar_was_on i = false

theorem Fresh.counters (h : Fresh s) (i : Nat) : counters s i = ({}, false) := Prod.ext (h.lvar i) (h.was_on i)

theorem begin_lvar_stream_fresh (lvar_define : Nat) (lvar_slots : Nat → Nat) (lvar_count : Nat)
    (bindings : Nat → LvarBinding) :
    Fresh (begin_lvar_stream lvar_define lvar_slots lvar_count bindings) :=
  ⟨fun _ => rfl, fun _ => rfl⟩

theorem state_of_eq (hfresh : Fresh s) (hcounted : ∀ p ∈ q, Counted to_float s p) (hi : i < LvarBindingCount) :
    state_of to_float s i q = (count_values to_float (s.lvar_triggers i) ({}, false) (all_readings s i q)).1 := by
  have hspec := after_spec to_float hcounted hi
  rw [hfresh.counters] at hspec
  exact congrArg Prod.fst hspec

theorem state_of_rises (hfresh : Fresh s) (hcounted : ∀ p ∈ q, Counted to_float s p) (hi : i < LvarBindingCount) :
    (state_of to_float s i q).rises < 0x100000000 := by
  rw [state_of_eq to_float hfresh hcounted hi]
  exact (count_values_bounds to_float _ _).1

theorem state_of_read (hfresh : Fresh s) (hcounted : ∀ p ∈ q, Counted to_float s p) (hi : i < LvarBindingCount) :
    (state_of to_float s i q).read = true ↔ all_readings s i q ≠ [] := by
  rw [state_of_eq to_float hfresh hcounted hi]
  exact (count_values_bounds to_float _ _).2.2

theorem all_readings_held (hcounted : ∀ p ∈ q, Counted to_float s p)
    {value : Rat} (hv : value ∈ all_readings s i q) : to_float value = value := by
  obtain ⟨p, hp, hv⟩ := mem_flatMap.mp hv
  exact readings_of_held to_float (hcounted p hp) hv

/-- The published counters of a latched or equals binding are its turns. -/
theorem state_of_shows (hfresh : Fresh s) (hcounted : ∀ p ∈ q, Counted to_float s p) (hi : i < LvarBindingCount)
    {binding : LvarBinding} (htrigger : s.lvar_triggers i = binding.trigger)
    (hlatched : binding.trigger ≠ momentary.value)
    (hread : all_readings s i q ≠ []) :
    (tally s i q).Shows binding (state_of to_float s i q) := by
  have hheld : ∀ v ∈ all_readings s i q, to_float v = v := fun _ hv => all_readings_held to_float hcounted hv
  rw [state_of_eq to_float hfresh hcounted hi]
  unfold tally switched
  rw [htrigger]
  rcases eq_nil_or_concat (all_readings s i q) with hnil | ⟨before, v, hlast⟩
  · exact absurd hnil hread
  rw [concat_eq_append] at hlast
  rw [hlast] at hheld ⊢
  obtain ⟨hrises, hfalls, -, hvalue, -⟩ := count_values_turns to_float hlatched before v hheld
  refine ⟨hrises, hfalls, ?_⟩
  rw [hvalue, map_append, map_cons, map_nil, getLastD_concat]

/-- No command, whatever is polled. -/
def Silent (s : LvarStream) (i : Nat) (generation : Nat) (binding : LvarBinding) : Prop :=
  generation = 0 ∨ binding.name.headD 0 = 0 ∨ ¬ Slotted s i

instance (generation : Nat) (binding : LvarBinding) : Decidable (Silent s i generation binding) := by
  unfold Silent
  infer_instance

section
variable {generation : Nat} {bindings : Nat → LvarBinding} {t : LvarBindingTracker}
  {polls : List (Nat → LvarBindingState)}

theorem commands_of_silent (hfresh : Fresh s) (hcounted : ∀ p ∈ packets, Counted to_float s p)
    (hi : i < LvarBindingCount) (hpolled : Polled polls (published to_float s packets))
    (hsilent : Silent s i generation (bindings i)) :
    commands_of i (poll bindings generation t polls) = [] := by
  rw [commands_of_poll hi]
  apply kinds_unread
  rcases hsilent with hgen | hname | hslot
  · exact .inl hgen
  · exact .inr (.inl hname)
  refine .inr (.inr ?_)
  intro state hstate
  obtain ⟨states, hstates, rfl⟩ := mem_map.mp hstate
  have hpublished := hpolled.sublist.subset hstates
  rw [published_eq, mem_map] at hpublished
  obtain ⟨q, hq, rfl⟩ := hpublished
  have hpre := (mem_inits_tail hq).1
  have hread := state_of_read to_float hfresh (fun p hp => hcounted p (hpre.subset hp)) hi
  have hnone : all_readings s i q = [] := by
    unfold all_readings
    rw [flatMap_eq_nil_iff]
    exact fun p _ => readings_of_unslotted hslot
  exact Bool.eq_false_iff.mpr fun hyes => hread.mp hyes hnone

/-- What a tracker that polls makes of a binding that is read. -/
theorem commands_of_read (hfresh : Fresh s) (hcounted : ∀ p ∈ packets, Counted to_float s p)
    (hi : i < LvarBindingCount) (hunseen : t.Unseen generation)
    (hpolled : Polled polls (published to_float s packets))
    (hsilent : ¬ Silent s i generation (bindings i)) :
    ∃ first rest, (first :: rest).Sublist packets.inits.tail ∧ packets.inits.tail.head? = some first ∧
      packets.inits.tail.getLast? = some (rest.getLastD first) ∧
      commands_of i (poll bindings generation t polls) =
        emits (bindings i) (state_of to_float s i first) (rest.map (state_of to_float s i)) := by
  unfold Silent at hsilent
  push Not at hsilent
  obtain ⟨hgen, hname, hslot⟩ := hsilent
  rw [published_eq] at hpolled
  obtain ⟨chosen, hchosen, rfl⟩ := hpolled.of_map
  obtain ⟨first, rest, rfl, hhead, hlast⟩ := hchosen.cases_head
  refine ⟨first, rest, hchosen.sublist, hhead, hlast, ?_⟩
  have hread : ∀ state ∈ (first :: rest).map (state_of to_float s i), state.read = true := by
    intro state hstate
    obtain ⟨q, hq, rfl⟩ := mem_map.mp hstate
    obtain ⟨hpre, hne⟩ := mem_inits_tail (hchosen.sublist.subset hq)
    apply (state_of_read to_float hfresh (fun p hp => hcounted p (hpre.subset hp)) hi).mpr
    exact all_readings_ne_nil to_float hcounted hslot hpre hne
  rw [commands_of_poll hi, map_map]
  exact kinds_first hgen hname (restart_unseen hunseen hgen i) hread

end

end

end taxi_camera.standalone
