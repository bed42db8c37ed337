-- What the ring holds at every moment, while fewer than 2^64 tickets are
-- taken: the tickets from head to tail are the uncommitted entries, each with a
-- slot of its own, and the consumer commits them in the order of the tickets.
import TaxiCam.DeferredRing

namespace taxi_camera.DeferredRing

open runs List
open Function (update_of_ne update_self)
open Function (update)

variable {T : Type} {capacity : Nat} {s : DeferredRing T} {p : Nat}

/-! ## Tickets -/

variable {s' : DeferredRing T} {head q t ticket u : Nat} {point : Producer T} {value : T}

theorem distance_of_le (h : head ≤ ticket)
    (hfits : ticket < 0x10000000000000000) : distance ticket head = ticket - head := by
  unfold distance
  omega

theorem next_of_lt (h : ticket + 1 < 0x10000000000000000) : next ticket = ticket + 1 := Nat.mod_eq_of_lt h

/-- Tickets of one turn around the ring have different slots. -/
theorem slots_apart (ht : head ≤ t) (htc : t < head + capacity) (hu : head ≤ u)
    (huc : u < head + capacity) (hne : t ≠ u) : t % capacity ≠ u % capacity := by
  intro heq
  have hapart {a b : Nat} (hlt : a < b) (hfar : b - a < capacity) (hmod : a % capacity = b % capacity) : False := by
    have hzero := Nat.sub_mod_eq_zero_of_mod_eq hmod.symm
    rw [Nat.mod_eq_of_lt hfar] at hzero
    omega
  rcases Nat.lt_or_gt_of_ne hne with hlt | hlt
  · exact hapart hlt (by omega) heq
  · exact hapart hlt (by omega) heq.symm

/-! ## The invariant -/

/-- The slot of a ticket. -/
def slot_of (capacity : Nat) (s : DeferredRing T) (ticket : Nat) : Slot T :=
  s.slots (ticket % capacity)

def Producing (capacity : Nat) (s : DeferredRing T) (p : Nat) : Producer T → Prop
  | .idle | .load_tail _ | .overflow _ => True
  | .load_head _ ticket => ticket ≤ s.tail
  | .exchange _ ticket => ticket ≤ s.tail ∧ (ticket = s.tail → s.tail < s.head + capacity)
  | .write value ticket | .publish value ticket =>
    s.pushes[ticket]? = some (p, value) ∧ s.head ≤ ticket

def Consuming (capacity : Nat) (s : DeferredRing T) : Consumer T → Prop
  | .idle => True
  | .peek_tail ticket => ticket = s.head
  | .peek_ready ticket => ticket = s.head ∧ s.head < s.tail
  | .peek_value ticket =>
    ticket = s.head ∧ s.head < s.tail ∧ (s.slot_of capacity s.head).ready = s.head + 1
  | .peeked value =>
    (∃ p, s.pushes[s.head]? = some (p, value)) ∧ (s.slot_of capacity s.head).ready = s.head + 1
  | .commit_ready value ticket =>
    ticket = s.head ∧ (∃ p, s.pushes[s.head]? = some (p, value)) ∧
      (s.slot_of capacity s.head).ready = s.head + 1
  | .commit_head value ticket =>
    ticket = s.head ∧ (∃ p, s.pushes[s.head]? = some (p, value) ∧ ¬ (s.producers p).Holds s.head) ∧
      (s.slot_of capacity s.head).ready = 0

/-- An uncommitted entry: not written, not published, queued, or being committed. -/
inductive Live (capacity : Nat) (s : DeferredRing T) (ticket p : Nat) (value : T) : Prop
  | writing (hpoint : s.producers p = .write value ticket)
      (hready : (s.slot_of capacity ticket).ready = 0)
  | written (hpoint : s.producers p = .publish value ticket)
      (hready : (s.slot_of capacity ticket).ready = 0)
      (hvalue : (s.slot_of capacity ticket).value = value)
  | queued (hpoint : ¬ (s.producers p).Holds ticket)
      (hready : (s.slot_of capacity ticket).ready = ticket + 1)
      (hvalue : (s.slot_of capacity ticket).value = value)
  | leaving (hpoint : ¬ (s.producers p).Holds ticket)
      (hready : (s.slot_of capacity ticket).ready = 0)
      (hvalue : (s.slot_of capacity ticket).value = value)
      (hconsumer : ∃ w, s.consumer = .commit_head w ticket)

structure Ordered (capacity : Nat) (s : DeferredRing T) : Prop where
  head_le : s.head ≤ s.tail
  tail_le : s.tail ≤ s.head + capacity
  tail_eq : s.tail = s.pushes.length
  fits : s.tail < 0x10000000000000000
  committed : s.committed = s.entries.take s.head
  producing : ∀ p, Producing capacity s p (s.producers p)
  consuming : Consuming capacity s s.consumer
  live : ∀ t p value, s.pushes[t]? = some (p, value) → s.head ≤ t → Live capacity s t p value
  free : ∀ t, s.tail ≤ t → t < s.head + capacity → (s.slot_of capacity t).ready = 0
  own : ∀ p, s.pushes_of p = s.returned p ++ (s.producers p).under_way

theorem ordered_initial [Inhabited T] : Ordered capacity (initial : DeferredRing T) where
  head_le := Nat.le_refl 0
  tail_le := Nat.zero_le _
  tail_eq := rfl
  fits := Nat.zero_lt_succ _
  committed := rfl
  producing _ := trivial
  consuming := trivial
  live _ _ _ h := by cases h
  free _ _ _ := rfl
  own _ := rfl

theorem Ordered.ticket_lt (h : Ordered capacity s) {e : Nat × T} (he : s.pushes[t]? = some e) : t < s.tail := by
  rw [h.tail_eq]
  exact (List.getElem?_eq_some_iff.mp he).1

/-- The slot of a held ticket is not published. -/
theorem Ordered.ready_of_holds (h : Ordered capacity s)
    (he : s.pushes[t]? = some (p, value)) (ht : s.head ≤ t) (hholds : (s.producers p).Holds t) :
    (s.slot_of capacity t).ready = 0 := by
  rcases h.live t p value he ht with ⟨_, hready⟩ | ⟨_, hready, _⟩ | ⟨hnot, _⟩ | ⟨hnot, _⟩
  · exact hready
  · exact hready
  · exact absurd hholds hnot
  · exact absurd hholds hnot

/-! ## What a step leaves -/

/-- An entry stays what it is while its slot stays, the point of a producer that holds it, and the
consumer in the middle of its commit. -/
theorem Live.keeps {v : T} (h : Live capacity s t q v)
    (hpoint : (s.producers q).Holds t → s'.producers q = s.producers q)
    (hholds : ¬ (s.producers q).Holds t → ¬ (s'.producers q).Holds t)
    (hready : (s'.slot_of capacity t).ready = (s.slot_of capacity t).ready)
    (hvalue : (s'.slot_of capacity t).value = (s.slot_of capacity t).value)
    (hconsumer : ∀ w, s.consumer = .commit_head w t → s'.consumer = .commit_head w t) :
    Live capacity s' t q v := by
  rcases h with ⟨hq, hr⟩ | ⟨hq, hr, hv⟩ | ⟨hq, hr, hv⟩ | ⟨hq, hr, hv, w, hc⟩
  · exact .writing ((hpoint (by rw [hq]; rfl)).trans hq) (hready.trans hr)
  · exact .written ((hpoint (by rw [hq]; rfl)).trans hq) (hready.trans hr) (hvalue.trans hv)
  · exact .queued (hholds hq) (hready.trans hr) (hvalue.trans hv)
  · exact .leaving (hholds hq) (hready.trans hr) (hvalue.trans hv) ⟨w, hconsumer w hc⟩

/-- The consumer stays where it is while the front entry stays, published or being committed. -/
theorem Consuming.keeps {point : Consumer T} (h : Consuming capacity s point)
    (hhead : s'.head = s.head) (htail : s.tail ≤ s'.tail)
    (hpushes : ∀ e, s.pushes[s.head]? = some e → s'.pushes[s.head]? = some e)
    (hshown : (s.slot_of capacity s.head).ready = s.head + 1 → (s'.slot_of capacity s.head).ready = s.head + 1)
    (hhidden : ∀ q v, s.pushes[s.head]? = some (q, v) → ¬ (s.producers q).Holds s.head →
      ¬ (s'.producers q).Holds s.head ∧
        ((s.slot_of capacity s.head).ready = 0 → (s'.slot_of capacity s.head).ready = 0)) :
    Consuming capacity s' point := by
  cases point <;> simp only [Consuming, hhead] at h ⊢
  case peek_tail => exact h
  case peek_ready => exact ⟨h.1, Nat.lt_of_lt_of_le h.2 htail⟩
  case peek_value => exact ⟨h.1, Nat.lt_of_lt_of_le h.2.1 htail, hshown h.2.2⟩
  case peeked =>
    obtain ⟨⟨q, hq⟩, hr⟩ := h
    exact ⟨⟨q, hpushes _ hq⟩, hshown hr⟩
  case commit_ready =>
    obtain ⟨ht, ⟨q, hq⟩, hr⟩ := h
    exact ⟨ht, ⟨q, hpushes _ hq⟩, hshown hr⟩
  case commit_head =>
    obtain ⟨ht, ⟨q, hq, hn⟩, hr⟩ := h
    obtain ⟨hnot, hzero⟩ := hhidden q _ hq hn
    exact ⟨ht, ⟨q, hpushes _ hq, hnot⟩, hzero hr⟩

/-! ## Steps that only move a producer -/

theorem at_point_self (point : Producer T) : (s.at_point p point).producers p = point := update_self ..

theorem at_point_other (point : Producer T) (h : q ≠ p) :
    (s.at_point p point).producers q = s.producers q := update_of_ne h ..

theorem not_holds (h : point.under_way = []) (t : Nat) : ¬ point.Holds t := by
  cases point <;> first | exact id | cases h

/-- A producer without a ticket moves to a point without one. -/
theorem Ordered.move (h : Ordered capacity s) (hold : (s.producers p).under_way = []) (hnew : point.under_way = [])
    (hpoint : Producing capacity s p point) : Ordered capacity (s.at_point p point) := by
  have hholds (q t : Nat) : ((s.at_point p point).producers q).Holds t ↔ (s.producers q).Holds t := by
    by_cases hq : q = p
    · subst hq
      rw [at_point_self]
      exact iff_of_false (not_holds hnew t) (not_holds hold t)
    · rw [at_point_other point hq]
  refine ⟨h.head_le, h.tail_le, h.tail_eq, h.fits, h.committed, fun q => ?_, ?_, ?_, h.free, fun q => ?_⟩
  · by_cases hq : q = p
    · subst hq
      rw [at_point_self]
      exact hpoint
    rw [at_point_other point hq]
    exact h.producing q
  · exact h.consuming.keeps rfl (Nat.le_refl _) (fun _ he => he) id fun q v _ hn =>
      ⟨fun hh => hn ((hholds q _).mp hh), id⟩
  · intro t q value he ht
    refine (h.live t q value he ht).keeps (fun hh => at_point_other _ ?_) (fun hn hh => hn ((hholds q t).mp hh)) rfl rfl
      fun _ hc => hc
    rintro rfl
    exact not_holds hold t hh
  · have hown := h.own q
    by_cases hq : q = p
    · subst hq
      rw [at_point_self, hnew]
      rwa [hold] at hown
    rw [at_point_other point hq]
    exact hown

/-! ## The exchange that takes a ticket -/

theorem Ordered.reserve (h : Ordered capacity s) (hpoint : s.producers p = .exchange value s.tail)
    (hfits : s.tail + 1 < 0x10000000000000000) :
    Ordered capacity { s.at_point p (.write value s.tail) with
      tail := next s.tail
      pushes := s.pushes ++ [(p, value)] } := by
  have hroom : s.tail < s.head + capacity := by
    have hp := h.producing p
    rw [hpoint] at hp
    exact hp.2 rfl
  rw [next_of_lt hfits]
  have hself : (update s.producers p (.write value s.tail)) p = .write value s.tail := update_self ..
  have hother (q : Nat) (hq : q ≠ p) : (update s.producers p (.write value s.tail)) q = s.producers q :=
    update_of_ne hq ..
  have hnot (t : Nat) : ¬ (s.producers p).Holds t := by
    rw [hpoint]
    exact id
  have hkept {t : Nat} {e : Nat × T} (he : s.pushes[t]? = some e) : (s.pushes ++ [(p, value)])[t]? = some e := by
    rw [List.getElem?_append_left (List.getElem?_eq_some_iff.mp he).1]
    exact he
  have hlast : (s.pushes ++ [(p, value)])[s.tail]? = some (p, value) := by
    rw [h.tail_eq, List.getElem?_concat_length]
  have hholds (q t : Nat) (hq : ¬ (s.producers q).Holds t) (ht : t < s.tail) :
      ¬ ((update s.producers p (.write value s.tail)) q).Holds t := by
    by_cases hqp : q = p
    · subst hqp
      rw [hself]
      intro heq
      have : s.tail = t := heq
      omega
    · rwa [hother q hqp]
  refine ⟨by have := h.head_le; dsimp only [at_point]; omega, by dsimp only [at_point]; omega,
    ?_, hfits, ?_, fun q => ?_, ?_, fun t q v he ht => ?_, fun t ht htc => ?_, fun q => ?_⟩ <;>
    dsimp only [at_point] at *
  · rw [List.length_append, h.tail_eq]
    rfl
  · have hlen : s.head ≤ (s.pushes.map (·.2)).length := by
      rw [List.length_map, ← h.tail_eq]
      exact h.head_le
    unfold entries
    rw [List.map_append, List.take_append_of_le_length hlen]
    exact h.committed
  · by_cases hq : q = p
    · subst hq
      rw [hself]
      exact ⟨hlast, h.head_le⟩
    rw [hother q hq]
    have hp := h.producing q
    cases hc : s.producers q with
    | idle | load_tail _ | overflow _ => trivial
    | load_head v t =>
      rw [hc] at hp
      exact Nat.le_succ_of_le hp
    | exchange v t =>
      rw [hc] at hp
      exact ⟨Nat.le_succ_of_le hp.1, fun heq => absurd hp.1 (by dsimp only at heq; omega)⟩
    | write v t | publish v t =>
      rw [hc] at hp
      exact ⟨hkept hp.1, hp.2⟩
  · exact h.consuming.keeps rfl (Nat.le_succ _) (fun _ he => hkept he) id fun q v hq hn =>
      ⟨hholds q s.head hn (h.ticket_lt hq), id⟩
  · by_cases htail : t = s.tail
    · subst htail
      rw [hlast] at he
      cases he
      exact .writing hself (h.free s.tail (Nat.le_refl _) hroom)
    have hlt : t < s.pushes.length := by
      have := (List.getElem?_eq_some_iff.mp he).1
      rw [List.length_append, List.length_singleton] at this
      have := h.tail_eq
      omega
    rw [List.getElem?_append_left hlt] at he
    have hlt : t < s.tail := h.ticket_lt he
    refine (h.live t q v he ht).keeps (fun hh => hother q ?_) (fun hn => hholds q t hn hlt) rfl rfl fun _ hc => hc
    rintro rfl
    exact hnot t hh
  · exact h.free t (by omega) htc
  · have hown := h.own q
    unfold pushes_of at *
    rw [List.filter_append, List.map_append, hown]
    by_cases hq : q = p
    · subst hq
      rw [hself, hpoint]
      simp [Producer.under_way]
    rw [hother q hq]
    simp [Ne.symm hq]

/-! ## The stores of a producer -/

theorem slot_set_self (i : Nat) (slot : Slot T) : update s.slots i slot i = slot := update_self ..

/-- The slots of the other tickets, after the store of one. -/
theorem slot_of_set (slot : Slot T) (ht : s.head ≤ t) (htc : t < s.head + capacity)
    (hu : s.head ≤ u) (huc : u < s.head + capacity) (hne : u ≠ t) :
    update s.slots (t % capacity) slot (u % capacity) = s.slots (u % capacity) :=
  update_of_ne (slots_apart hu huc ht htc hne) ..

/-- Another producer has another ticket. -/
theorem Ordered.holder (h : Ordered capacity s)
    (he : s.pushes[t]? = some (p, value)) (hholds : (s.producers q).Holds t) : q = p := by
  have hp := h.producing q
  cases hc : s.producers q with
  | idle | load_tail _ | overflow _ | load_head _ _ | exchange _ _ =>
    rw [hc] at hholds
    exact hholds.elim
  | write v u | publish v u =>
    rw [hc] at hp hholds
    obtain rfl : u = t := hholds
    have heq := he.symm.trans hp.1
    cases heq
    rfl

/-- The points without a ticket do not depend on the slots and the points of the producers. -/
theorem producing_same (h : Producing capacity s q point) (hhead : s'.head = s.head) (htail : s'.tail = s.tail)
    (hpushes : s'.pushes = s.pushes) : Producing capacity s' q point := by
  cases point <;> simp only [Producing, hhead, htail, hpushes] at * <;> exact h

/-- A producer that holds a ticket stores its slot. -/
theorem Ordered.store {slot : Slot T} {returned : Nat → List T} (h : Ordered capacity s)
    (he : s.pushes[t]? = some (p, value)) (hhead : s.head ≤ t) (hold : ∀ u, (s.producers p).Holds u ↔ u = t)
    (hnew : Producing capacity s p point) (hmore : ∀ u, point.Holds u → u = t)
    (hlive : ∀ s' : DeferredRing T, s'.producers p = point → s'.slot_of capacity t = slot → Live capacity s' t p value)
    (hown : s.pushes_of p = returned p ++ point.under_way) (hreturned : ∀ q, q ≠ p → returned q = s.returned q) :
    Ordered capacity { (s.set_slot (t % capacity) slot).at_point p point with returned } := by
  have htail : t < s.tail := h.ticket_lt he
  have hroom := h.tail_le
  have hself : update s.producers p point p = point := update_self ..
  have hother (q : Nat) (hq : q ≠ p) : update s.producers p point q = s.producers q := update_of_ne hq ..
  have hfewer (q u : Nat) (hn : ¬ (s.producers q).Holds u) : ¬ (update s.producers p point q).Holds u := by
    by_cases hq : q = p
    · subst hq
      rw [hself]
      exact fun hh => hn ((hold u).mpr (hmore u hh))
    · rwa [hother q hq]
  have hslots (u : Nat) (hu : s.head ≤ u) (huc : u < s.head + capacity) (hne : u ≠ t) :
      update s.slots (t % capacity) slot (u % capacity) = s.slots (u % capacity) :=
    slot_of_set _ hhead (by omega) hu huc hne
  have hfirst (hne : s.head ≠ t) := hslots s.head (Nat.le_refl _) (by omega) hne
  refine ⟨h.head_le, hroom, h.tail_eq, h.fits, h.committed, fun q => ?_, ?_,
    fun u q v hu huh => ?_, fun u hu huc => ?_, fun q => ?_⟩ <;> dsimp only [at_point, set_slot] at *
  · by_cases hq : q = p
    · subst hq
      rw [hself]
      exact producing_same hnew rfl rfl rfl
    rw [hother q hq]
    exact producing_same (h.producing q) rfl rfl rfl
  · -- The head entry is not the one that is stored while it is published, or held by no producer.
    refine h.consuming.keeps rfl (Nat.le_refl _) (fun _ hq => hq) (fun hr => ?_) fun q v hq hn =>
      ⟨hfewer q s.head hn, fun hr => (congrArg Slot.ready (hfirst ?_)).trans hr⟩
    · refine (congrArg Slot.ready (hfirst fun heq => ?_)).trans hr
      rw [heq, h.ready_of_holds he hhead ((hold t).mpr rfl)] at hr
      cases hr
    · intro heq
      rw [heq, he] at hq
      cases hq
      exact hn ((hold s.head).mpr heq)
  · by_cases hut : u = t
    · subst hut
      rw [he] at hu
      cases hu
      exact hlive _ hself (slot_set_self ..)
    have hslot := hslots u huh (by have := h.ticket_lt hu; omega) hut
    refine (h.live u q v hu huh).keeps (fun hh => hother q ?_) (hfewer q u) (congrArg Slot.ready hslot)
      (congrArg Slot.value hslot) fun _ hc => hc
    rintro rfl
    exact hut ((hold u).mp hh)
  · have hslot := hslots u (by have := h.head_le; omega) huc (by omega)
    exact (congrArg Slot.ready hslot).trans (h.free u hu huc)
  · by_cases hq : q = p
    · subst hq
      rw [hself]
      exact hown
    rw [hother q hq, hreturned q hq]
    exact h.own q

theorem Ordered.write (h : Ordered capacity s) (hpoint : s.producers p = .write value t) :
    Ordered capacity ((s.set_slot (t % capacity) { s.slots (t % capacity) with value }).at_point p
      (.publish value t)) := by
  have hp := h.producing p
  rw [hpoint] at hp
  have hold (u : Nat) : (s.producers p).Holds u ↔ u = t := by rw [hpoint]; exact eq_comm
  have hunready := h.ready_of_holds hp.1 hp.2 ((hold t).mpr rfl)
  have hown := h.own p
  rw [hpoint] at hown
  exact h.store hp.1 hp.2 hold hp (fun u hu => Eq.symm hu) (fun s' hs hslot => .written hs
    ((congrArg Slot.ready hslot).trans hunready) (congrArg Slot.value hslot)) hown fun _ _ => rfl

theorem Ordered.publish (h : Ordered capacity s) (hpoint : s.producers p = .publish value t) :
    Ordered capacity { (s.set_slot (t % capacity)
        { s.slots (t % capacity) with ready := next t }).at_point p .idle with
      returned := update s.returned p (s.returned p ++ [value]) } := by
  have hp := h.producing p
  rw [hpoint] at hp
  have hold (u : Nat) : (s.producers p).Holds u ↔ u = t := by rw [hpoint]; exact eq_comm
  have hfits := h.fits
  have htail := h.ticket_lt hp.1
  have hvalue : (s.slot_of capacity t).value = value := by
    rcases h.live t p value hp.1 hp.2 with ⟨hq, _⟩ | ⟨_, _, hv⟩ | ⟨hq, _⟩ | ⟨hq, _⟩
    · rw [hpoint] at hq
      cases hq
    · exact hv
    · exact absurd ((hold t).mpr rfl) hq
    · exact absurd ((hold t).mpr rfl) hq
  have hown := h.own p
  rw [hpoint] at hown
  refine h.store hp.1 hp.2 hold trivial (fun _ hu => hu.elim) (fun s' hs hslot => .queued ?_
    ((congrArg Slot.ready hslot).trans (next_of_lt (by omega))) ((congrArg Slot.value hslot).trans hvalue)) ?_
    fun _ hq => update_of_ne hq ..
  · rw [hs]
    exact id
  · rw [update_self, hown]
    simp [Producer.under_way]

theorem Ordered.produce (h : Ordered capacity s) (p : Nat) (spurious : Bool)
    (hfew : (s.produce capacity p spurious).pushes.length < 0x10000000000000000) :
    Ordered capacity (s.produce capacity p spurious) := by
  unfold DeferredRing.produce at hfew ⊢
  have hp := h.producing p
  cases hc : s.producers p with
  | idle => exact h
  | load_tail value =>
    exact h.move (by rw [hc]; rfl) rfl (Nat.le_refl s.tail)
  | load_head value ticket =>
    rw [hc] at hp
    dsimp only
    split
    · exact h.move (by rw [hc]; rfl) rfl trivial
    rename_i hnear
    apply h.move (by rw [hc]; rfl) rfl
    refine ⟨hp, fun heq => ?_⟩
    have hfits := h.fits
    rw [distance_of_le (by have := h.head_le; omega) (by omega)] at hnear
    omega
  | exchange value ticket =>
    rw [hc] at hp hfew
    dsimp only at hfew ⊢
    split at hfew
    · rename_i htaken
      obtain ⟨htail, hspurious⟩ := htaken
      subst htail
      rw [if_pos ⟨rfl, hspurious⟩]
      apply h.reserve hc
      have hlen := h.tail_eq
      simp only [length_append, length_singleton] at hfew
      omega
    rename_i hlost
    rw [if_neg hlost]
    exact h.move (by rw [hc]; rfl) rfl (Nat.le_refl s.tail)
  | write value ticket => exact h.write hc
  | publish value ticket => exact h.publish hc
  | overflow value =>
    have hmoved : Ordered capacity (s.at_point p .idle) := h.move (by rw [hc]; rfl) rfl trivial
    exact ⟨hmoved.head_le, hmoved.tail_le, hmoved.tail_eq, hmoved.fits, hmoved.committed,
      hmoved.producing, hmoved.consuming,
      fun t q v he ht => (hmoved.live t q v he ht).keeps (fun _ => rfl) id rfl rfl fun _ hw => hw,
      hmoved.free, hmoved.own⟩

/-! ## The consumer -/

/-- A step of the consumer that only moves it, and not from the middle of a commit. -/
theorem Ordered.turn (h : Ordered capacity s) {point : Consumer T}
    (hold : ∀ value t, s.consumer ≠ .commit_head value t) (hpoint : Consuming capacity s point) :
    Ordered capacity { s with consumer := point } := by
  refine ⟨h.head_le, h.tail_le, h.tail_eq, h.fits, h.committed, fun q => ?_, ?_, fun t q v he ht => ?_, h.free, h.own⟩
  · exact producing_same (h.producing q) rfl rfl rfl
  · cases point <;> exact hpoint
  · exact (h.live t q v he ht).keeps (fun _ => rfl) id rfl rfl fun w hw => absurd hw (hold w t)

theorem Ordered.retract (h : Ordered capacity s) (hc : s.consumer = .commit_ready value ticket) :
    Ordered capacity
      { s.set_slot (ticket % capacity) { s.slots (ticket % capacity) with ready := 0 } with
        consumer := .commit_head value ticket } := by
  obtain ⟨hticket, ⟨p, hp⟩, hready⟩ : ticket = s.head ∧
      (∃ p, s.pushes[s.head]? = some (p, value)) ∧ (s.slot_of capacity s.head).ready = s.head + 1 := by
    have hcons := h.consuming
    rwa [hc] at hcons
  subst hticket
  have hlt := h.ticket_lt hp
  have hroom := h.tail_le
  have hnot : ¬ (s.producers p).Holds s.head := by
    intro hh
    have := h.ready_of_holds hp (Nat.le_refl _) hh
    omega
  have hslots (u : Nat) (hu : s.head ≤ u) (huc : u < s.head + capacity) (hne : u ≠ s.head) :
      update s.slots (s.head % capacity) { s.slots (s.head % capacity) with ready := 0 }
        (u % capacity) = s.slots (u % capacity) :=
    slot_of_set _ (Nat.le_refl _) (by omega) hu huc hne
  refine ⟨h.head_le, hroom, h.tail_eq, h.fits, h.committed, fun q => ?_, ?_,
    fun u q v hu huh => ?_, fun u hu huc => ?_, h.own⟩ <;> dsimp only [set_slot] at *
  · exact producing_same (h.producing q) rfl rfl rfl
  · exact ⟨rfl, ⟨p, hp, hnot⟩, congrArg Slot.ready (slot_set_self ..)⟩
  · by_cases hut : u = s.head
    · subst hut
      rw [hp] at hu
      cases hu
      refine .leaving hnot (congrArg Slot.ready (slot_set_self ..)) ?_ ⟨value, rfl⟩
      have hvalue : (s.slot_of capacity s.head).value = value := by
        rcases h.live s.head p value hp (Nat.le_refl _) with ⟨_, b⟩ | ⟨_, b, _⟩ | ⟨_, _, c⟩ | ⟨_, b, _⟩
        · omega
        · omega
        · exact c
        · omega
      exact (congrArg Slot.value (slot_set_self ..)).trans hvalue
    have hslot := hslots u huh (by have := h.ticket_lt hu; omega) hut
    refine (h.live u q v hu huh).keeps (fun _ => rfl) id (congrArg Slot.ready hslot) (congrArg Slot.value hslot)
      fun w hw => ?_
    rw [hc] at hw
    cases hw
  · have hslot := hslots u (by omega) huc (by omega)
    exact (congrArg Slot.ready hslot).trans (h.free u hu huc)

theorem Ordered.advance (h : Ordered capacity s) (hc : s.consumer = .commit_head value ticket) :
    Ordered capacity { s with
      head := next ticket, consumer := .idle, committed := s.committed ++ [value] } := by
  obtain ⟨hticket, ⟨p, hp, hnot⟩, hready⟩ : ticket = s.head ∧
      (∃ p, s.pushes[s.head]? = some (p, value) ∧ ¬ (s.producers p).Holds s.head) ∧
        (s.slot_of capacity s.head).ready = 0 := by
    have hcons := h.consuming
    rwa [hc] at hcons
  subst hticket
  have hlt := h.ticket_lt hp
  have hfits := h.fits
  have hroom := h.tail_le
  rw [next_of_lt (show s.head + 1 < 0x10000000000000000 by omega)]
  refine ⟨hlt, by dsimp only; omega, h.tail_eq, hfits, ?_, fun q => ?_, trivial,
    fun u q v hu huh => ?_, fun u hu huc => ?_, h.own⟩ <;> dsimp only at *
  · unfold entries at *
    rw [take_add_one, h.committed, entries, getElem?_map, hp]
    rfl
  · have hprod := h.producing q
    cases hq : s.producers q with
    | idle | load_tail _ | overflow _ => trivial
    | load_head v t =>
      rw [hq] at hprod
      exact hprod
    | exchange v t =>
      rw [hq] at hprod
      exact ⟨hprod.1, fun heq => by have := hprod.2 heq; dsimp only; omega⟩
    | write v t | publish v t =>
      rw [hq] at hprod
      refine ⟨hprod.1, Nat.lt_of_le_of_ne hprod.2 fun heq => ?_⟩
      have hholds : (s.producers q).Holds s.head := by
        rw [hq, heq]
        rfl
      have := h.holder hp hholds
      subst this
      exact hnot hholds
  · refine (h.live u q v hu (by omega)).keeps (fun _ => rfl) id rfl rfl fun w hw => ?_
    rw [hc] at hw
    cases hw
    omega
  · by_cases hnew : u < s.head + capacity
    · exact h.free u hu hnew
    have hwrap : u % capacity = s.head % capacity := by
      rw [show u = s.head + capacity by omega, Nat.add_mod_right]
    have : s.slot_of capacity u = s.slot_of capacity s.head := congrArg s.slots hwrap
    exact (congrArg Slot.ready this).trans hready

end taxi_camera.DeferredRing
