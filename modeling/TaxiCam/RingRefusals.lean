-- When `DeferredRing::push` refuses. The test for a full ring subtracts the
-- head from a ticket that was read before it, so the difference of a ticket that
-- the consumer has passed wraps, and a ring with room refuses the entry.
import TaxiCam.RingRuns
import Mathlib.Data.List.Infix

namespace taxi_camera.DeferredRing

open runs List

variable {T : Type} {capacity : Nat} {s : DeferredRing T} {p : Nat}

/-! ## The counts of the ring -/

/-- Capacity entries are pushed and not committed. -/
def Full (capacity : Nat) (s : DeferredRing T) : Prop :=
  s.committed.length + capacity ≤ s.pushes.length

instance decidable_full : Decidable (Full capacity s) := by
  unfold Full
  infer_instance

/-- The head that the consumer has read is the one it moves, and an entry stands behind it. -/
def Counting (s : DeferredRing T) : Consumer T → Prop
  | .idle => True
  | .peek_tail ticket => ticket = s.head
  | .peeked _ => s.committed.length < s.pushes.length
  | .peek_ready ticket | .peek_value ticket | .commit_ready _ ticket | .commit_head _ ticket =>
    ticket = s.head ∧ s.committed.length < s.pushes.length

/-- Head and tail count the entries committed and pushed, however many turns of the 64 bits they
have made. -/
structure Counted (s : DeferredRing T) : Prop where
  head_eq : s.head = s.committed.length % 0x10000000000000000
  tail_eq : s.tail = s.pushes.length % 0x10000000000000000
  committed_le : s.committed.length ≤ s.pushes.length
  counting : Counting s s.consumer

theorem counted_initial [Inhabited T] : Counted (initial : DeferredRing T) where
  head_eq := rfl
  tail_eq := rfl
  committed_le := Nat.le_refl 0
  counting := trivial

/-- The exchange is the one access of a producer that counts. -/
theorem produce_counts (capacity : Nat) (s : DeferredRing T) (p : Nat) (spurious : Bool) :
    (s.produce capacity p spurious).head = s.head ∧ (s.produce capacity p spurious).committed = s.committed ∧
      (s.produce capacity p spurious).consumer = s.consumer ∧
      ((s.produce capacity p spurious).tail = s.tail ∧ (s.produce capacity p spurious).pushes = s.pushes ∨
        (s.produce capacity p spurious).tail = next s.tail ∧
          ∃ e, (s.produce capacity p spurious).pushes = s.pushes ++ [e]) := by
  unfold produce
  cases hp : s.producers p with
  | idle => exact ⟨rfl, rfl, rfl, .inl ⟨rfl, rfl⟩⟩
  | load_tail value => exact ⟨rfl, rfl, rfl, .inl ⟨rfl, rfl⟩⟩
  | load_head value ticket =>
    dsimp only
    split <;> exact ⟨rfl, rfl, rfl, .inl ⟨rfl, rfl⟩⟩
  | exchange value ticket =>
    dsimp only
    split
    · rename_i hwon
      exact ⟨rfl, rfl, rfl, .inr ⟨congrArg next hwon.1.symm, (p, value), rfl⟩⟩
    · exact ⟨rfl, rfl, rfl, .inl ⟨rfl, rfl⟩⟩
  | write value ticket => exact ⟨rfl, rfl, rfl, .inl ⟨rfl, rfl⟩⟩
  | publish value ticket => exact ⟨rfl, rfl, rfl, .inl ⟨rfl, rfl⟩⟩
  | overflow value => exact ⟨rfl, rfl, rfl, .inl ⟨rfl, rfl⟩⟩

theorem Counted.produce (h : Counted s) (p : Nat) (spurious : Bool) : Counted (s.produce capacity p spurious) := by
  obtain ⟨hhead, hcommitted, hconsumer, htail⟩ := produce_counts capacity s p spurious
  have hle := h.committed_le
  have hgrow : s.pushes <+: (step capacity s (.produce p spurious)).pushes := pushes_grow s _
  have hgrow : s.pushes.length ≤ (s.produce capacity p spurious).pushes.length := hgrow.length_le
  refine ⟨by rw [hhead, hcommitted, h.head_eq], ?_, by rw [hcommitted]; omega, ?_⟩
  · rcases htail with ⟨htail, hpushes⟩ | ⟨htail, e, hpushes⟩
    · rw [htail, hpushes, h.tail_eq]
    rw [htail, hpushes, h.tail_eq, length_append, length_singleton, next]
    omega
  · have hcounting := h.counting
    rw [hconsumer]
    cases hc : s.consumer with
    | idle => trivial
    | peek_tail ticket =>
      rw [hc] at hcounting
      exact hcounting.trans hhead.symm
    | peeked value =>
      rw [hc] at hcounting
      unfold Counting at hcounting ⊢
      rw [hcommitted]
      omega
    | peek_ready ticket | peek_value ticket | commit_ready value ticket | commit_head value ticket =>
      rw [hc] at hcounting
      obtain ⟨hticket, hlt⟩ := hcounting
      refine ⟨hticket.trans hhead.symm, ?_⟩
      rw [hcommitted]
      omega

theorem Counted.consume (h : Counted s) : Counted (s.consume capacity) := by
  obtain ⟨hhead, htail, hle, hcounting⟩ := h
  unfold DeferredRing.consume
  cases hc : s.consumer with
  | idle | peeked value => exact ⟨hhead, htail, hle, by rw [hc] at hcounting ⊢; exact hcounting⟩
  | peek_tail ticket =>
    rw [hc] at hcounting
    obtain rfl : ticket = s.head := hcounting
    refine ⟨hhead, htail, hle, ?_⟩
    dsimp only
    split
    · trivial
    -- Equal counts would have equal head and tail.
    rename_i hne
    refine ⟨rfl, Nat.lt_of_le_of_ne hle fun heq => hne ?_⟩
    rw [hhead, htail, heq]
  | peek_ready ticket =>
    rw [hc] at hcounting
    refine ⟨hhead, htail, hle, ?_⟩
    dsimp only
    split
    · trivial
    · exact hcounting
  | peek_value ticket =>
    rw [hc] at hcounting
    exact ⟨hhead, htail, hle, hcounting.2⟩
  | commit_ready value ticket =>
    rw [hc] at hcounting
    exact ⟨hhead, htail, hle, hcounting⟩
  | commit_head value ticket =>
    rw [hc] at hcounting
    obtain ⟨rfl, hlt⟩ := hcounting
    refine ⟨?_, htail, ?_, trivial⟩
    · dsimp only
      rw [hhead, length_append, length_singleton, next]
      omega
    · dsimp only
      rw [length_append, length_singleton]
      omega

theorem Counted.step (h : Counted s) (a : Op T) : Counted (DeferredRing.step capacity s a) := by
  cases a with
  | push p value =>
    dsimp only [DeferredRing.step, push]
    split
    · exact ⟨h.head_eq, h.tail_eq, h.committed_le, h.counting⟩
    · exact h
  | produce p spurious => exact h.produce p spurious
  | peek =>
    dsimp only [DeferredRing.step, peek]
    split
    · exact ⟨h.head_eq, h.tail_eq, h.committed_le, rfl⟩
    · exact ⟨h.head_eq, h.tail_eq, h.committed_le, rfl⟩
    · exact h
  | commit =>
    dsimp only [DeferredRing.step, commit]
    split
    · rename_i value hc
      have hcounting := h.counting
      rw [hc] at hcounting
      exact ⟨h.head_eq, h.tail_eq, h.committed_le, rfl, hcounting⟩
    · exact h
  | consume => exact h.consume

/-! ## Refusals -/

/-- The consumer has not committed past the ticket that the producer is about to compare with the
head. -/
def unpassed (s : DeferredRing T) : Op T → Bool
  | .produce p _ =>
    match s.producers p with
    | .load_head _ ticket => distance ticket s.head ≤ distance s.tail s.head
    | _ => true
  | _ => true

/-- Every push that is refused was under way while the ring was full. -/
def RefusesFull [Inhabited T] (capacity : Nat) (ops : List (Op T)) : Prop :=
  ∀ p value, (run (step capacity) initial ops).producers p = .overflow value →
    ∃ earlier later, ops = earlier ++ later ∧ Full capacity (run (step capacity) initial earlier) ∧
      ∀ mid, mid <+: later →
        (run (step capacity) initial (earlier ++ mid)).producers p ≠ .idle

variable {value : T}

theorem at_point_cases {point : Producer T} {q : Nat} (h : (s.at_point q point).producers p = .overflow value) :
    s.producers p = .overflow value ∨ q = p ∧ point = .overflow value := by
  by_cases hq : p = q
  · subst hq
    rw [at_point_self] at h
    exact .inr ⟨rfl, h⟩
  rw [at_point_other point hq] at h
  exact .inl h

/-- A refusal is the outcome of one comparison. -/
theorem overflow_cases {a : Op T} (h : (step capacity s a).producers p = .overflow value) :
    s.producers p = .overflow value ∨ ∃ spurious ticket, a = .produce p spurious ∧
      s.producers p = .load_head value ticket ∧ capacity ≤ distance ticket s.head := by
  cases a with
  | push q other =>
    dsimp only [step, push] at h
    split at h
    · rcases at_point_cases h with hkept | ⟨_, hpoint⟩
      · exact .inl hkept
      · cases hpoint
    · exact .inl h
  | produce q spurious =>
    dsimp only [step, produce] at h
    cases hq : s.producers q with
    | idle =>
      rw [hq] at h
      exact .inl h
    | load_head other ticket =>
      rw [hq] at h
      dsimp only at h
      split at h
      · rename_i hfar
        rcases at_point_cases h with hkept | ⟨rfl, hpoint⟩
        · exact .inl hkept
        cases hpoint
        exact .inr ⟨spurious, ticket, rfl, hq, hfar⟩
      rcases at_point_cases h with hkept | ⟨_, hpoint⟩
      · exact .inl hkept
      · cases hpoint
    | exchange other ticket =>
      rw [hq] at h
      dsimp only at h
      split at h
      all_goals
        rcases at_point_cases h with hkept | ⟨_, hpoint⟩
        · exact .inl hkept
        · cases hpoint
    | load_tail other | write other ticket | publish other ticket | overflow other =>
      rw [hq] at h
      rcases at_point_cases h with hkept | ⟨_, hpoint⟩
      · exact .inl hkept
      · cases hpoint
  | peek =>
    dsimp only [step, peek] at h
    split at h <;> exact .inl h
  | commit =>
    dsimp only [step, commit] at h
    split at h <;> exact .inl h
  | consume =>
    dsimp only [step, consume] at h
    split at h <;> exact .inl h

/-- A ticket between head and tail is at most as far from the head as the entries are many. -/
theorem Counted.full_of_far (h : Counted s) {ticket : Nat}
    (hunpassed : distance ticket s.head ≤ distance s.tail s.head)
    (hfar : capacity ≤ distance ticket s.head) : Full capacity s := by
  have hle := h.committed_le
  rw [h.head_eq, h.tail_eq] at hunpassed
  rw [h.head_eq] at hfar
  unfold distance at hunpassed hfar
  unfold Full
  omega

theorem refuses_only_when_full [Inhabited T] (capacity : Nat) (ops : List (Op T))
    (hunpassed : Guarded (step capacity) (fun s a => unpassed s a = true)
      (initial : DeferredRing T) ops) : RefusesFull capacity ops := by
  induction ops using reverseRecOn with
  | nil =>
    intro p value h
    cases h
  | append_singleton ops a ih =>
    obtain ⟨hearlier, hlast⟩ := (guarded_append ops [a]).mp hunpassed
    have hcounted : Counted (run (step capacity) (initial : DeferredRing T) ops) :=
      invariant (fun _ _ h => h.step _) ops counted_initial
    intro p value hrefused
    rw [run_snoc] at hrefused
    rcases overflow_cases hrefused with hkept | ⟨spurious, ticket, rfl, hload, hfar⟩
    · obtain ⟨earlier, later, rfl, hfull, hpushing⟩ := ih hearlier p value hkept
      refine ⟨earlier, later ++ [a], (append_assoc ..), hfull, fun mid hmid => ?_⟩
      rcases prefix_concat_iff.mp hmid with rfl | hmid
      · rw [← append_assoc, run_snoc, hrefused]
        exact fun h => by cases h
      · exact hpushing mid hmid
    have hclose := hlast.1
    simp only [unpassed, hload, decide_eq_true_eq] at hclose
    refine ⟨ops, [.produce p spurious], rfl, hcounted.full_of_far hclose hfar, fun mid hmid => ?_⟩
    rw [← nil_append [Op.produce p spurious]] at hmid
    rcases prefix_concat_iff.mp hmid with rfl | hmid
    · rw [nil_append, run_snoc, hrefused]
      exact fun h => by cases h
    rw [prefix_nil.mp hmid, append_nil, hload]
    exact fun h => by cases h

/-- A ring of two holds two entries; the third push is refused. -/
theorem third_push_finds_two :
    let three : List (Op Nat) := [.push 0 5, .produce 0 false, .produce 0 false, .produce 0 false,
      .push 1 6, .produce 1 false, .produce 1 false, .produce 1 false, .push 2 7, .produce 2 false,
      .produce 2 false]
    Guarded (step 2) (fun s a => unpassed s a = true) initial three ∧ RefusesFull 2 three :=
  ⟨by decide +kernel, refuses_only_when_full 2 _ (by decide +kernel)⟩

/-- A producer reads the tail; before it reads the head, another producer pushes an entry and the
consumer commits it. -/
def passed : List (Op Nat) :=
  [.push 0 7, .produce 0 false, .push 1 8, .produce 1 false, .produce 1 false, .produce 1 false,
    .produce 1 false, .produce 1 false] ++ pop ++ [.produce 0 false]

theorem passed_push_is_refused_by_an_empty_ring : ¬ RefusesFull 64 passed := by
  intro h
  have hrefused : (run (step 64) initial passed).producers 0 = .overflow 7 := by decide +kernel
  have hroom : ∀ earlier ∈ passed.inits, ¬ Full 64 (run (step 64) initial earlier) := by
    decide +kernel
  obtain ⟨earlier, later, hsplit, hfull, -⟩ := h 0 7 hrefused
  exact hroom earlier ((mem_inits ..).mpr ⟨later, hsplit.symm⟩) hfull

end taxi_camera.DeferredRing
