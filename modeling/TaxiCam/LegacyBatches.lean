-- A legacy batch of barriers: the calls before the target exits, made by the
-- scan of every barrier, and by the scan of a large batch for the selected
-- targets. `previous_legacy_change`, `selected_legacy` and `legacy` of
-- src/hooks/render_boundary_observer.cpp. What the hook counts is left out.
import TaxiCam.SubmissionProof

namespace taxi_camera.engine_hook.render_boundary

open standalone List

/-! ## The batch -/

inductive BarrierType
  | transition | aliasing | uav | other
deriving DecidableEq

/-- `D3D12_RESOURCE_TRANSITION_BARRIER`. A resource is the number of its address, 0 is none. -/
structure Transition where
  resource : Nat
  subresource : Nat := ALL_SUBRESOURCES
  before : ResourceStates
  after : ResourceStates
deriving DecidableEq

/-- `D3D12_RESOURCE_BARRIER`, of which a transition alone is looked at. -/
structure Barrier where
  type : BarrierType
  flags : Nat := BARRIER_FLAG_NONE
  transition : Transition
deriving DecidableEq

/-- A barrier changes the resource, or may: an alias may overlap it. -/
def Barrier.changes (b : Barrier) (resource : Nat) : Bool :=
  b.type = .aliasing || b.type = .transition && b.transition.resource = resource

def previous_legacy_change (index : Nat) (barriers : List Barrier) (resource : Nat) : Bool :=
  (barriers.take index).any fun b => b.changes resource

inductive Call
  | before_legacy (t : Transition)
  | before_legacy_uav (t : Transition)
deriving DecidableEq

/-- The recording while a batch is scanned. `same_safe` is its answer at a moment, after the calls that were
made: the entry is 0, the selection is over at 1, the barrier `n` is looked at at `n + 2`. A list is recorded by
one thread, which is at the barriers: others can only end that the recording is safe. -/
structure Watch where
  same_safe : Nat → List Call → Bool
  ended : ∀ moment calls, same_safe moment calls = false → same_safe (moment + 1) calls = false

/-! ## The scan of every barrier -/

/-- The call that a barrier asks for, where no earlier one changed its resource. -/
def candidate (uav : Bool) (b : Barrier) : Option Call :=
  if b.type ≠ .transition ∨ b.flags ≠ BARRIER_FLAG_NONE ∨ b.transition.resource = 0 ∨
      (b.transition.subresource ≠ 0 ∧ b.transition.subresource ≠ ALL_SUBRESOURCES) then none
  else if b.transition.before = .RENDER_TARGET ∧ b.transition.after ≠ .RENDER_TARGET then some (.before_legacy b.transition)
  else if uav = true ∧ b.transition.before = .UNORDERED_ACCESS ∧ b.transition.after ≠ .UNORDERED_ACCESS then
    some (.before_legacy_uav b.transition)
  else none

section
variable (w : Watch) (uav : Bool) (asked : Call → Bool) (barriers : List Barrier)

/-- The loop from barrier `n` on, restricted to the calls that are `asked` for. -/
def scan_from : Nat → List Barrier → List Call → List Call
  | _, [], calls => calls
  | n, b :: rest, calls =>
    match candidate uav b with
    | none => scan_from (n + 1) rest calls
    | some call =>
      if !asked call then scan_from (n + 1) rest calls
      else if previous_legacy_change n barriers b.transition.resource then scan_from (n + 1) rest calls
      else if !w.same_safe (n + 2) calls then calls
      else scan_from (n + 1) rest (calls ++ [call])

def restricted_scan : List Call := scan_from w uav asked barriers 0 barriers []

/-- The ordinary scan asks for every call. -/
def ordinary_scan : List Call := restricted_scan w uav (fun _ => true) barriers

end

/-! ## The scan for the selected targets -/

/-- `seen`, `remaining`, the calls, and whether the scan returned. -/
structure Pass where
  seen : Fin 2 → Bool := fun _ => false
  remaining : Nat
  calls : List Call := []
  returned : Bool := false

section
variable (w : Watch) (targets : Fin 2 → Nat) (selected : Nat)

/-- The body of the inner loop, for a transition at barrier `n`. -/
def consume (n : Nat) (b : Barrier) (p : Pass) (target : Fin 2) : Pass :=
  if p.returned || p.seen target || decide (b.transition.resource ≠ targets target) then p
  else
    let p := { p with seen := Function.update p.seen target true, remaining := p.remaining - 1 }
    if b.flags ≠ BARRIER_FLAG_NONE ∨ b.transition.before ≠ .RENDER_TARGET ∨ b.transition.after = .RENDER_TARGET ∨
        (b.transition.subresource ≠ 0 ∧ b.transition.subresource ≠ ALL_SUBRESOURCES) then p
    else if !w.same_safe (n + 2) p.calls then { p with returned := true }
    else { p with calls := p.calls ++ [.before_legacy b.transition] }

def selected_from : Nat → List Barrier → Pass → Pass
  | _, [], p => p
  | n, b :: rest, p =>
    if p.remaining = 0 then p
    else
      match b.type with
      | .aliasing => p
      | .transition =>
        let p := ((List.finRange 2).take selected).foldl (consume w targets n b) p
        if p.returned then p else selected_from (n + 1) rest p
      | _ => selected_from (n + 1) rest p

/-- One or two distinct targets. -/
def valid_targets : Bool :=
  !(selected = 0 || decide (selected > 2) || targets 0 = 0 || selected = 2 && (targets 1 = 0 || targets 0 = targets 1))

/-- `answer` is what the callback selects, where there is one. -/
def selected_legacy (answer : Option (Nat × (Fin 2 → Nat))) (barriers : List Barrier) : List Call :=
  if !w.same_safe 0 [] then []
  else
    match answer with
    | none => []
    | some (selected, targets) =>
      if !valid_targets targets selected || !w.same_safe 1 [] then []
      else (selected_from w targets selected 0 barriers { remaining := selected }).calls

end

/-! ## The hook -/

inductive Uncertainty
  | pass_state | barrier_batch | split_barrier | alias_or_discard | observer_disabled
deriving DecidableEq

/-- What a barrier makes uncertain. Flags 1 and 2 are BEGIN_ONLY and END_ONLY. -/
def Barrier.uncertainty (b : Barrier) : List Uncertainty :=
  (match b.type with
    | .aliasing => [.alias_or_discard]
    | .transition =>
      (if b.flags = 1 ∨ b.flags = 2 then [.split_barrier]
        else if b.flags ≠ BARRIER_FLAG_NONE then [.barrier_batch] else []) ++
      if b.transition.resource = 0 then [.barrier_batch] else []
    | .uav => []
    | .other => [.barrier_batch]) ++
    if b.type ≠ .transition ∧ b.flags ≠ BARRIER_FLAG_NONE then [.barrier_batch] else []

def global_uncertainty (reasons : List Uncertainty) : Bool :=
  reasons.any fun reason => decide (reason ≠ .split_barrier ∧ reason ≠ .alias_or_discard)

def maximum_legacy_metadata_barriers : Nat := 1048576

/-- The batch can be scanned: the identity allows work, and nothing about the batch is globally uncertain. `scope` is
what the identity makes uncertain. -/
def scanned (scope : List Uncertainty) (allowed : Bool) (barriers : List Barrier) : Bool :=
  let uncertainty := scope ++ if barriers.length ≤ maximum_legacy_metadata_barriers then barriers.flatMap Barrier.uncertainty
    else [.barrier_batch]
  allowed && !global_uncertainty uncertainty && !barriers.isEmpty

/-- The calls in front of the native call. `barriers` is the array, if its address can be one. -/
def legacy (w : Watch) (uav : Bool) (answer : Option (Nat × (Fin 2 → Nat))) (scope : List Uncertainty) (allowed : Bool)
    (barriers : Option (List Barrier)) : List Call :=
  match barriers with
  | none => []
  | some barriers =>
    if !scanned scope allowed barriers then []
    else if barriers.length > 256 then selected_legacy w answer barriers
    else ordinary_scan w uav barriers

/-! ## What was changed before -/

section
variable {barriers : List Barrier} {b : Barrier} {n m resource : Nat}

theorem previous_succ (h : barriers[n]? = some b) :
    previous_legacy_change (n + 1) barriers resource = (previous_legacy_change n barriers resource || b.changes resource) := by
  unfold previous_legacy_change
  rw [take_add_one, h, Option.toList_some, any_append, any_cons, any_nil, Bool.or_false]

theorem previous_mono (hm : n ≤ m) (h : previous_legacy_change n barriers resource = true) :
    previous_legacy_change m barriers resource = true := by
  obtain ⟨b, hb, hchanges⟩ := any_eq_true.mp h
  exact any_eq_true.mpr ⟨b, (take_subset_take_left barriers hm) hb, hchanges⟩

end

/-! ## The scan once nothing can be called any more -/

section
variable {w : Watch} {uav : Bool} {asked : Call → Bool} {barriers rest : List Barrier} {n : Nat} {calls : List Call}

/-- A recording that is not safe any more stops the scan at its next call. -/
theorem scan_unsafe (h : w.same_safe (n + 2) calls = false) : scan_from w uav asked barriers n rest calls = calls := by
  induction rest generalizing n with
  | nil => rfl
  | cons b rest ih =>
    have hnext := ih (w.ended _ _ h)
    unfold scan_from
    split
    · exact hnext
    split
    · exact hnext
    split
    · exact hnext
    rw [h]
    rfl

/-- Where everything that is asked for was changed before, nothing more is called. -/
theorem scan_changed (h : ∀ b call, candidate uav b = some call → asked call = true →
    previous_legacy_change n barriers b.transition.resource = true) :
    scan_from w uav asked barriers n rest calls = calls := by
  induction rest generalizing n with
  | nil => rfl
  | cons b rest ih =>
    have hnext := @ih (n + 1) fun b call hb hcall => previous_mono (Nat.le_succ n) (h b call hb hcall)
    unfold scan_from
    split
    · exact hnext
    rename_i call hcandidate
    split
    · exact hnext
    rename_i hasked
    rw [h b call hcandidate (by simpa using hasked), if_pos rfl]
    exact hnext

theorem candidate_resource {b : Barrier} {call : Call} (h : candidate uav b = some call) :
    b.type = .transition ∧ (call = .before_legacy b.transition ∨ call = .before_legacy_uav b.transition) := by
  unfold candidate at h
  split at h
  · cases h
  rename_i hplain
  have htype : b.type = .transition := by
    by_contra hne
    exact hplain (.inl hne)
  split at h
  · exact ⟨htype, .inl (Option.some.inj h).symm⟩
  split at h
  · exact ⟨htype, .inr (Option.some.inj h).symm⟩
  · cases h

theorem scan_none {b : Barrier} (h : candidate uav b = none) :
    scan_from w uav asked barriers n (b :: rest) calls = scan_from w uav asked barriers (n + 1) rest calls := by
  rw [scan_from, h]

/-- A barrier whose call is not asked for is passed over. -/
theorem scan_unasked {b : Barrier} (h : ∀ call, candidate uav b = some call → asked call = false) :
    scan_from w uav asked barriers n (b :: rest) calls = scan_from w uav asked barriers (n + 1) rest calls := by
  cases hcandidate : candidate uav b with
  | none => exact scan_none hcandidate
  | some call => rw [scan_from, hcandidate]; simp [h call hcandidate]

end

/-! ## One transition at the targets -/

section
variable {w : Watch} {targets : Fin 2 → Nat} {selected n : Nat} {b : Barrier} {p : Pass}

/-- The targets that count. -/
def chosen (selected : Nat) : List (Fin 2) := (List.finRange 2).take selected

/-- The calls before an exit of a target. -/
def for_targets (targets : Fin 2 → Nat) (selected : Nat) : Call → Bool
  | .before_legacy t => (chosen selected).any fun i => targets i = t.resource
  | .before_legacy_uav _ => false

theorem consume_other {i : Fin 2} (h : b.transition.resource ≠ targets i) : consume w targets n b p i = p := by
  simp [consume, h]

theorem consume_others {l : List (Fin 2)} (h : ∀ i ∈ l, b.transition.resource ≠ targets i) :
    l.foldl (consume w targets n b) p = p := by
  induction l generalizing p with
  | nil => rfl
  | cons i l ih =>
    rw [foldl_cons, consume_other (h i mem_cons_self)]
    exact ih fun j hj => h j (mem_cons_of_mem _ hj)

/-- A transition consumes the one target that it is of. -/
theorem consume_target {l : List (Fin 2)} {i : Fin 2} (hi : i ∈ l) (hl : l.Nodup)
    (hdistinct : ∀ j ∈ l, targets j = targets i → j = i) (h : b.transition.resource = targets i) :
    l.foldl (consume w targets n b) p = consume w targets n b p i := by
  induction l generalizing p with
  | nil => cases hi
  | cons j l ih =>
    obtain ⟨hj, hl⟩ := nodup_cons.mp hl
    rw [foldl_cons]
    by_cases hji : j = i
    · subst hji
      apply consume_others
      intro k hk hsame
      have hkj := hdistinct k (mem_cons_of_mem _ hk) (hsame.symm.trans h)
      exact hj (hkj ▸ hk)
    have hother : b.transition.resource ≠ targets j := fun hsame =>
      hji (hdistinct j mem_cons_self (hsame.symm.trans h))
    rw [consume_other hother]
    exact ih ((mem_cons.mp hi).resolve_left (Ne.symm hji)) hl fun k hk => hdistinct k (mem_cons_of_mem _ hk)

theorem chosen_nodup (selected : Nat) : (chosen selected).Nodup := (nodup_finRange 2).take

end


/-! ## The two scans together -/

/-- Targets that are not null and of which no two are the same. -/
structure Distinct (targets : Fin 2 → Nat) (selected : Nat) : Prop where
  named : ∀ i ∈ chosen selected, targets i ≠ 0
  apart : ∀ i ∈ chosen selected, ∀ j ∈ chosen selected, targets j = targets i → j = i
  counted : (chosen selected).length = selected

theorem distinct_of_valid {targets : Fin 2 → Nat} {selected : Nat} (h : valid_targets targets selected = true) :
    Distinct targets selected := by
  simp only [valid_targets, Bool.not_eq_true', Bool.or_eq_false_iff, decide_eq_false_iff_not, Bool.and_eq_false_iff] at h
  obtain ⟨⟨⟨hsome, hfew⟩, hfirst⟩, hsecond⟩ := h
  obtain rfl | rfl : selected = 1 ∨ selected = 2 := by omega
  · have hone : chosen 1 = [0] := rfl
    constructor
    · simpa [hone] using hfirst
    · simp [hone]
    · rfl
  have htwo : chosen 2 = [0, 1] := rfl
  have hsecond : targets 1 ≠ 0 ∧ targets 0 ≠ targets 1 := by simpa using hsecond
  constructor
  · simpa [htwo] using ⟨hfirst, hsecond.1⟩
  · simpa [htwo] using ⟨Ne.symm hsecond.2, hsecond.2⟩
  · rfl

/-- What the scan for the targets knows at barrier `n`: which of them were changed before. -/
structure Follows (targets : Fin 2 → Nat) (selected : Nat) (barriers : List Barrier) (n : Nat) (p : Pass) : Prop where
  going : p.returned = false
  seen : ∀ i ∈ chosen selected, p.seen i = previous_legacy_change n barriers (targets i)
  remaining : p.remaining = ((chosen selected).filter fun i => !p.seen i).length

section
variable {w : Watch} {uav : Bool} {targets : Fin 2 → Nat} {selected n : Nat} {barriers rest : List Barrier} {b : Barrier}
  {p : Pass} {calls : List Call}

theorem asked_target {call : Call} (hcandidate : candidate uav b = some call)
    (hasked : for_targets targets selected call = true) :
    b.type = .transition ∧ call = .before_legacy b.transition ∧
      ∃ i ∈ chosen selected, b.transition.resource = targets i := by
  obtain ⟨htype, rfl | rfl⟩ := candidate_resource hcandidate
  · obtain ⟨i, hi, hsame⟩ := any_eq_true.mp hasked
    exact ⟨htype, rfl, i, hi, (of_decide_eq_true hsame).symm⟩
  · cases hasked

/-- Where every target was changed before, the scan of every barrier calls nothing more for them. -/
theorem scan_targets_changed (h : ∀ i ∈ chosen selected, previous_legacy_change n barriers (targets i) = true) :
    scan_from w uav (for_targets targets selected) barriers n rest calls = calls := by
  apply scan_changed
  intro b call hcandidate hasked
  obtain ⟨-, -, i, hi, hsame⟩ := asked_target hcandidate hasked
  rw [hsame]
  exact h i hi

/-- A barrier that changes none of the targets is passed over by both. -/
theorem Follows.pass_over (h : Follows targets selected barriers n p) (hb : barriers[n]? = some b)
    (hother : ∀ i ∈ chosen selected, p.seen i = false → b.changes (targets i) = false) :
    Follows targets selected barriers (n + 1) p where
  going := h.going
  seen := by
    intro i hi
    rw [previous_succ hb, ← h.seen i hi]
    cases hseen : p.seen i with
    | true => rfl
    | false => rw [hother i hi hseen, Bool.or_false]
  remaining := h.remaining

/-- The first transition of a target marks it. -/
theorem Follows.mark (h : Follows targets selected barriers n p) (hd : Distinct targets selected) (hb : barriers[n]? = some b)
    (htype : b.type = .transition) {i : Fin 2} (hi : i ∈ chosen selected) (hsame : b.transition.resource = targets i)
    (hfirst : p.seen i = false) (calls : List Call) :
    Follows targets selected barriers (n + 1)
      { p with seen := Function.update p.seen i true, remaining := p.remaining - 1, calls := calls } where
  going := h.going
  seen := by
    intro j hj
    rw [previous_succ hb, ← h.seen j hj]
    dsimp only
    by_cases hji : j = i
    · subst hji
      rw [Function.update_self, Barrier.changes, htype, hsame]
      simp
    have hother : b.changes (targets j) = false := by
      have hne : targets i ≠ targets j := fun heq => hji (hd.apart i hi j hj heq.symm)
      simp [Barrier.changes, htype, hsame, hne]
    rw [Function.update_of_ne hji, hother, Bool.or_false]
  remaining := by
    have hmem : i ∈ (chosen selected).filter fun j => !p.seen j := mem_filter.mpr ⟨hi, by rw [hfirst]; rfl⟩
    have herase : ((chosen selected).filter fun j => !Function.update p.seen i true j) =
        ((chosen selected).filter fun j => !p.seen j).erase i := by
      rw [((chosen_nodup selected).filter _).erase_eq_filter, filter_filter]
      apply filter_congr
      intro j _
      by_cases hji : j = i
      · subst hji
        simp
      · simp [hji]
    rw [herase, length_erase_of_mem hmem, h.remaining]

theorem scan_before (h : previous_legacy_change n barriers b.transition.resource = true) {asked : Call → Bool} :
    scan_from w uav asked barriers n (b :: rest) calls = scan_from w uav asked barriers (n + 1) rest calls := by
  cases hcandidate : candidate uav b with
  | none => exact scan_none hcandidate
  | some call =>
    rw [scan_from, hcandidate]
    dsimp only
    rw [if_pos h, ite_self]

/-- The first transition of a target: an exit is called for where the recording is safe. -/
theorem first_transition (hd : Distinct targets selected) (h : Follows targets selected barriers n p)
    (hb : barriers[n]? = some b) (htype : b.type = .transition) {i : Fin 2} (hi : i ∈ chosen selected)
    (hsame : b.transition.resource = targets i) (hfirst : p.seen i = false) :
    let q := consume w targets n b p i
    let scan := scan_from w uav (for_targets targets selected) barriers n (b :: rest) p.calls
    q.returned = true ∧ q.calls = scan ∨ Follows targets selected barriers (n + 1) q ∧
      scan = scan_from w uav (for_targets targets selected) barriers (n + 1) rest q.calls := by
  have hnamed := hd.named i hi
  have hmarked := h.mark hd hb htype hi hsame hfirst
  have hunchanged : previous_legacy_change n barriers b.transition.resource = false := by
    rw [hsame, ← h.seen i hi, hfirst]
  have hasked : for_targets targets selected (.before_legacy b.transition) = true :=
    any_eq_true.mpr ⟨i, hi, decide_eq_true hsame.symm⟩
  have hseen : (p.returned || p.seen i || decide (b.transition.resource ≠ targets i)) = false := by
    simp [h.going, hfirst, hsame]
  intro q scan
  unfold q scan consume
  rw [hseen, if_neg Bool.false_ne_true]
  split
  · -- it leaves no RENDER_TARGET that can be called for
    rename_i hno
    right
    refine ⟨hmarked _, scan_unasked fun call hcandidate => ?_⟩
    unfold candidate at hcandidate
    split at hcandidate
    · cases hcandidate
    rename_i hplain
    split at hcandidate
    · rename_i hexit
      rcases hno with hflags | hbefore | hafter | hpart
      · exact absurd (.inr (.inl hflags)) hplain
      · exact absurd hexit.1 hbefore
      · exact absurd hafter hexit.2
      · exact absurd (.inr (.inr (.inr hpart))) hplain
    split at hcandidate
    · rw [← Option.some.inj hcandidate]
      rfl
    · cases hcandidate
  rename_i hexit
  simp only [not_or, not_not] at hexit
  have hcandidate : candidate uav b = some (.before_legacy b.transition) := by
    unfold candidate
    rw [if_neg, if_pos ⟨hexit.2.1, hexit.2.2.1⟩]
    rintro (hne | hne | hne | hne)
    · exact hne htype
    · exact hne hexit.1
    · exact hnamed (hsame ▸ hne)
    · exact hexit.2.2.2 hne
  rw [scan_from, hcandidate]
  dsimp only
  rw [hasked, Bool.not_true, if_neg Bool.false_ne_true, hunchanged, if_neg Bool.false_ne_true]
  cases w.same_safe (n + 2) p.calls with
  | false => exact .inl ⟨rfl, rfl⟩
  | true => exact .inr ⟨hmarked _, rfl⟩

theorem transition_step (hd : Distinct targets selected) (h : Follows targets selected barriers n p)
    (hb : barriers[n]? = some b) (htype : b.type = .transition) :
    let q := (chosen selected).foldl (consume w targets n b) p
    let scan := scan_from w uav (for_targets targets selected) barriers n (b :: rest) p.calls
    q.returned = true ∧ q.calls = scan ∨ q.returned = false ∧ Follows targets selected barriers (n + 1) q ∧
      scan = scan_from w uav (for_targets targets selected) barriers (n + 1) rest q.calls := by
  intro q scan
  by_cases htarget : ∃ i ∈ chosen selected, b.transition.resource = targets i
  · obtain ⟨i, hi, hsame⟩ := htarget
    have hconsume : q = consume w targets n b p i := consume_target hi (chosen_nodup selected) (hd.apart i hi) hsame
    cases hfirst : p.seen i with
    | false =>
      rcases @first_transition w uav _ _ _ _ rest _ _ hd h hb htype i hi hsame hfirst with hstop | hgo
      · rw [hconsume]
        exact .inl hstop
      rw [hconsume]
      exact .inr ⟨hgo.1.going, hgo⟩
    | true =>
      -- it was consumed by an earlier transition
      have hsecond : q = p := by simp [hconsume, consume, hfirst]
      have hfollows : Follows targets selected barriers (n + 1) p := by
        apply h.pass_over hb
        intro j hj hunseen
        have hne : targets i ≠ targets j := by
          intro heq
          rw [hd.apart i hi j hj heq.symm, hfirst] at hunseen
          cases hunseen
        simp [Barrier.changes, htype, hsame, hne]
      have hchanged : previous_legacy_change n barriers b.transition.resource = true := by
        rw [hsame, ← h.seen i hi, hfirst]
      rw [hsecond]
      exact .inr ⟨h.going, hfollows, scan_before hchanged⟩
  have hother : ∀ i ∈ chosen selected, b.transition.resource ≠ targets i := fun i hi hsame => htarget ⟨i, hi, hsame⟩
  have hsecond : q = p := consume_others hother
  rw [hsecond]
  refine .inr ⟨h.going, h.pass_over hb fun i hi _ => ?_, scan_unasked fun call hcandidate => ?_⟩
  · simp [Barrier.changes, htype, hother i hi]
  · by_contra hasked
    obtain ⟨-, -, hi⟩ := asked_target hcandidate (by simpa using hasked)
    exact htarget hi

/-- The pass over the rest of the batch makes the calls of the scan that is restricted to the targets. -/
theorem selected_from_calls (hd : Distinct targets selected) (h : Follows targets selected barriers n p)
    (hrest : barriers.drop n = rest) : (selected_from w targets selected n rest p).calls =
      scan_from w uav (for_targets targets selected) barriers n rest p.calls := by
  induction rest generalizing n p with
  | nil => rfl
  | cons b rest ih =>
    have hb : barriers[n]? = some b := by
      rw [← List.head?_drop, hrest]
      rfl
    have hnext : barriers.drop (n + 1) = rest := by
      rw [← drop_drop, hrest]
      rfl
    have hothers (hno : b.type ≠ .transition) (halias : b.type ≠ .aliasing) :
        (selected_from w targets selected (n + 1) rest p).calls =
          scan_from w uav (for_targets targets selected) barriers n (b :: rest) p.calls := by
      rw [scan_none (by simp [candidate, hno])]
      exact ih (h.pass_over hb fun i _ _ => by simp [Barrier.changes, hno, halias]) hnext
    unfold selected_from
    split
    · -- every target was changed before
      rename_i hnone
      rw [h.remaining, length_eq_zero_iff, filter_eq_nil_iff] at hnone
      symm
      apply scan_targets_changed
      intro i hi
      rw [← h.seen i hi]
      simpa using hnone i hi
    split
    · -- an alias changes every target
      rename_i htype
      rw [scan_none (by simp [candidate, htype])]
      symm
      apply scan_targets_changed
      intro i _
      rw [previous_succ hb, Barrier.changes, htype]
      simp
    · rename_i htype
      rcases @transition_step w uav _ _ _ _ rest _ _ hd h hb htype with ⟨hreturned, hcalls⟩ | ⟨hgoing, hfollows, hscan⟩
      · rw [chosen] at hreturned hcalls
        rw [if_pos hreturned, hcalls]
      rw [chosen] at hgoing hfollows hscan
      rw [if_neg (by simp [hgoing]), ih hfollows hnext, hscan]
    rename_i halias htype
    exact hothers htype halias

/-- The calls for other resources leave the recording as it is. -/
def Quiet (w : Watch) (asked : Call → Bool) : Prop :=
  ∀ moment calls, w.same_safe moment calls = w.same_safe moment (calls.filter asked)

/-- Then the restricted scan makes the calls of the ordinary one, as far as they are asked for. -/
theorem scan_filter {asked : Call → Bool} (h : Quiet w asked) :
    (scan_from w uav (fun _ => true) barriers n rest calls).filter asked =
      scan_from w uav asked barriers n rest (calls.filter asked) := by
  induction rest generalizing n calls with
  | nil => rfl
  | cons b rest ih =>
    cases hcandidate : candidate uav b with
    | none => rw [scan_none hcandidate, scan_none hcandidate, ih]
    | some call =>
      cases hchanged : previous_legacy_change n barriers b.transition.resource with
      | true => rw [scan_before hchanged, scan_before hchanged, ih]
      | false =>
        rw [scan_from, hcandidate, scan_from, hcandidate]
        simp only [Bool.not_true, Bool.false_eq_true, if_false, hchanged]
        rw [← h (n + 2) calls]
        cases hsafe : w.same_safe (n + 2) calls with
        | true =>
          have hcalls := @ih (n + 1) (calls ++ [call])
          rw [filter_append] at hcalls
          cases hasked : asked call with
          | true => simpa [hasked] using hcalls
          | false => simpa [hasked] using hcalls
        | false =>
          have hended : w.same_safe (n + 1 + 2) (calls.filter asked) = false := by
            rw [← h]
            exact w.ended _ _ hsafe
          cases asked call with
          | true => rfl
          | false =>
            symm
            simpa using scan_unsafe hended

theorem selected_legacy_calls (h : valid_targets targets selected = true) :
    selected_legacy w (some (selected, targets)) barriers = restricted_scan w uav (for_targets targets selected) barriers := by
  have hd := distinct_of_valid h
  have hnothing (moment : Nat) (hmoment : moment ≤ 2) (hrefused : w.same_safe moment [] = false) :
      restricted_scan w uav (for_targets targets selected) barriers = [] := by
    have hlater : w.same_safe 2 [] = false := by
      obtain rfl | rfl | rfl : moment = 0 ∨ moment = 1 ∨ moment = 2 := by omega
      · exact w.ended _ _ (w.ended _ _ hrefused)
      · exact w.ended _ _ hrefused
      · exact hrefused
    exact scan_unsafe hlater
  have hstart : Follows targets selected barriers 0 { remaining := selected } := by
    refine ⟨rfl, fun i _ => rfl, ?_⟩
    simpa using hd.counted.symm
  unfold selected_legacy
  cases hentry : w.same_safe 0 [] with
  | false => exact (hnothing 0 (by omega) hentry).symm
  | true =>
    dsimp only
    cases hselected : w.same_safe 1 [] with
    | false =>
      rw [hnothing 1 (by omega) hselected]
      simp
    | true =>
      rw [h]
      exact selected_from_calls hd hstart rfl

/-- For one or two selected targets, the scan of a large batch makes the calls before their exits that the ordinary
scan makes: restricted to the targets in any case, and in the middle of its other calls where these leave the
recording as it is. -/
theorem selected_targets_get_the_calls_of_the_ordinary_scan (w : Watch) (uav : Bool) (targets : Fin 2 → Nat)
    (selected : Nat) (barriers : List Barrier) (h : valid_targets targets selected = true) :
    let asked := for_targets targets selected
    selected_legacy w (some (selected, targets)) barriers = restricted_scan w uav asked barriers ∧
      (Quiet w asked → selected_legacy w (some (selected, targets)) barriers = (ordinary_scan w uav barriers).filter asked) ∧
      ∀ scope allowed, 256 < barriers.length → legacy w uav (some (selected, targets)) scope allowed (some barriers) =
        if scanned scope allowed barriers then restricted_scan w uav asked barriers else [] := by
  intro asked
  have hcalls := @selected_legacy_calls w uav targets selected barriers h
  refine ⟨hcalls, fun hquiet => ?_, fun scope allowed hlarge => ?_⟩
  · have hfilter := @scan_filter w uav 0 barriers barriers [] asked hquiet
    rw [hcalls]
    exact hfilter.symm
  · unfold legacy
    dsimp only
    rw [if_pos hlarge, hcalls]
    cases scanned scope allowed barriers <;> rfl

end

/-- Two targets: the first leaves RENDER_TARGET and comes back, the second is split first. -/
theorem one_of_two_targets_is_called_for : let w : Watch := ⟨fun _ _ => true, nofun⟩
    let targets : Fin 2 → Nat := fun i => if i = 0 then 5 else 7
    let exit (resource : Nat) : Transition := ⟨resource, ALL_SUBRESOURCES, .RENDER_TARGET, .PIXEL_SHADER_RESOURCE⟩
    let barriers : List Barrier := [⟨.transition, 0, exit 6⟩, ⟨.transition, 0, exit 5⟩, ⟨.transition, 1, exit 7⟩,
      ⟨.transition, 0, exit 5⟩, ⟨.transition, 0, exit 7⟩]
    selected_legacy w (some (2, targets)) barriers = [.before_legacy (exit 5)] ∧
      selected_legacy w (some (2, targets)) barriers = (ordinary_scan w true barriers).filter (for_targets targets 2) := by
  intro w targets exit barriers
  have hall := selected_targets_get_the_calls_of_the_ordinary_scan w true targets 2 barriers (by decide)
  exact ⟨by decide, hall.2.1 fun _ _ => rfl⟩

end taxi_camera.engine_hook.render_boundary
