-- The wrapper of ExecuteCommandLists: what it forwards, and what it calls
-- around that. src/hooks/queue_submit_observer.cpp. A command list is the
-- number of its address, 0 is none. What the callbacks and the other threads
-- answer in one call is a record of its own.
import Mathlib.Data.List.Nodup
import TaxiCam.Weaves

namespace taxi_camera.engine_hook.queue_submit

open weaves

def kMaximumCommandLists : Nat := 256
def kMaximumInsertions : Nat := 7

structure Insertion where
  after_list : Nat := 0
  list : Nat := 0
  before : Bool := false
deriving DecidableEq

/-- The order of the insertions. Nothing comes round: a list of a batch that is looked at is below 256. -/
def position (value : Insertion) : Nat := 2 * value.after_list + if value.before then 0 else 1

/-- The loop of `valid_insertions` over the insertions behind the ones that were looked at. -/
def valid_from (count : Nat) (lists : List Nat) : List Insertion → List Insertion → Bool
  | _, [] => true
  | seen, item :: rest =>
    if item.list = 0 ∨ item.after_list ≥ count then false
    else if seen.getLast?.any fun last => decide (position item < position last) then false
    else if lists.any fun list => list = 0 || item.list = list then false
    else if seen.any fun other => item.list = other.list then false
    else valid_from count lists (seen ++ [item]) rest

/-- `insertions` is the whole array, of which the first `inserted` count. -/
def valid_insertions (insertions : Vector Insertion 7) (inserted count : Nat) (lists : List Nat) : Bool :=
  if inserted > kMaximumInsertions then false else valid_from count lists [] (insertions.toList.take inserted)

/-- The loops that write the extended array. -/
def augmented : List Insertion → Nat → List Nat → List Nat
  | _, _, [] => []
  | plan, i, list :: rest =>
    let late := plan.dropWhile fun x => decide (x.after_list = i ∧ x.before = true)
    (plan.takeWhile fun x => decide (x.after_list = i ∧ x.before = true)).map Insertion.list ++
      list :: ((late.takeWhile fun x => decide (x.after_list = i)).map Insertion.list ++
        augmented (late.dropWhile fun x => decide (x.after_list = i)) (i + 1) rest)

inductive Refusal
  | oversized_batch | invalid_batch | reentrant_submission | contended_submission
deriving DecidableEq

/-- What the application passes: a count, and an array of so many lists or a null pointer. -/
structure Batch where
  count : Nat
  lists : Option (List Nat)
  whole : ∀ l, lists = some l → l.length = count

def Batch.oversized (batch : Batch) : Bool := decide (batch.count > kMaximumCommandLists)

def Batch.invalid (batch : Batch) : Bool := batch.count = 0 || batch.lists.isNone

/-- What was called, in order. `forward` is the original function with its count and array. -/
inductive Event
  | before
  | augment (receipt : Nat)
  | augmentation_result (receipt inserted : Nat)
  | forward (count : Nat) (lists : Option (List Nat))
  | forwarded_unordered
  | after (receipt : Nat)
  | refused (reason : Refusal)
  | contended
  | contended_completed (token : Nat)
deriving DecidableEq

/-- What the callbacks and the other threads answer while a batch is submitted. A nested submission is
noted by the call in which it was first made. -/
structure Answers where
  inside_wrapper : Bool := false
  registered : Bool := true
  enabled : Bool := true
  lock_owned : Bool := true
  notify : Bool := true
  enabled_contended : Bool := true
  token : Nat := 0
  contended_completed : Bool := true
  enabled_forwarded : Bool := true
  enabled_locked : Bool := true
  receipt : Nat := 0
  nested_before : Bool := false
  forwarded_unordered : Bool := true
  /-- What `augment` wrote and returned, where there is one. -/
  augment : Option (Vector Insertion 7 × Nat) := none
  nested_augment : Bool := false
  augmentation_result : Bool := true
  nested_result : Bool := false
  nested_forward : Bool := false

namespace Answers

variable (a : Answers) (batch : Batch)

def when (b : Bool) (e : Event) : List Event := if b then [e] else []

/-- Another thread holds the queue. -/
def contended_submit : List Event :=
  let notified := a.notify && a.enabled_contended
  when notified .contended ++ [.forward batch.count batch.lists] ++
    when (notified && a.contended_completed) (.contended_completed a.token) ++
    when (!a.notify && a.enabled_forwarded) (.refused .contended_submission)

/-- The receipt of `before`, which is called for a batch of a size that is known. -/
def receipt_of : Nat := if batch.oversized || batch.invalid then 0 else a.receipt

/-- What `augment` answered, where it was called and nothing was submitted inside. -/
def plan : Option (Vector Insertion 7 × Nat) :=
  if a.receipt_of batch != 0 && !a.nested_before then a.augment else none

/-- The insertions that the plan's check leaves. -/
def accepted (lists : List Nat) : Nat :=
  match a.plan batch with
  | none => 0
  | some (insertions, inserted) =>
    if a.nested_augment || !valid_insertions insertions inserted batch.count lists then 0 else inserted

def nested_planned : Bool := a.nested_before || (a.plan batch).isSome && (a.nested_augment ||
  a.augmentation_result && a.nested_result)

/-- The array that is forwarded. -/
def forwarded : Event :=
  match batch.lists with
  | none => .forward batch.count none
  | some lists =>
    let inserted := if a.nested_planned batch then 0 else a.accepted batch lists
    match a.plan batch with
    | none => .forward batch.count batch.lists
    | some (insertions, _) =>
      if inserted = 0 then .forward batch.count batch.lists
      else
        let output := augmented (insertions.toList.take inserted) 0 lists
        .forward output.length (some output)

def asked : List Event :=
  if (a.plan batch).isSome then
    .augment (a.receipt_of batch) ::
      when a.augmentation_result (.augmentation_result (a.receipt_of batch) (a.accepted batch (batch.lists.getD [])))
  else []

/-- What the wrapper does behind the original function. -/
def finished : List Event :=
  if a.nested_planned batch || a.nested_forward then [.refused .reentrant_submission]
  else if batch.oversized || batch.invalid then
    [.refused (if batch.oversized then .oversized_batch else .invalid_batch)]
  else when (a.receipt_of batch != 0) (.after (a.receipt_of batch))

def submit : List Event :=
  if a.inside_wrapper then [.forward batch.count batch.lists]
  else if !a.registered || !a.enabled then [.forward batch.count batch.lists]
  else if !a.lock_owned then a.contended_submit batch
  else if !a.enabled_locked then [.forward batch.count batch.lists]
  else
    let unknown := batch.oversized || batch.invalid
    when (!unknown) .before ++
      if a.receipt_of batch = 0 && !unknown then
        .forward batch.count batch.lists :: when a.forwarded_unordered .forwarded_unordered
      else a.asked batch ++ a.forwarded batch :: a.finished batch

end Answers

/-! ## What the check admits -/

/-- A plan that can be forwarded: in order, of lists that are there, and of which none is twice. -/
structure Valid (count : Nat) (lists : List Nat) (plan : List Insertion) : Prop where
  named : ∀ x ∈ plan, x.list ≠ 0 ∧ x.after_list < count
  ordered : plan.Pairwise fun x y => position x ≤ position y
  apart : ∀ x ∈ plan, ∀ list ∈ lists, list ≠ 0 ∧ x.list ≠ list
  distinct : (plan.map Insertion.list).Nodup

section
variable {count : Nat} {lists : List Nat} {seen rest plan : List Insertion} {item : Insertion}

theorem ordered_snoc (h : seen.Pairwise fun x y => position x ≤ position y) :
    (seen ++ [item]).Pairwise (fun x y => position x ≤ position y) ↔
      (seen.getLast?.any fun last => decide (position item < position last)) = false := by
  rw [List.pairwise_append]
  rcases List.eq_nil_or_concat seen with rfl | ⟨front, last, rfl⟩
  · simp
  simp only [List.concat_eq_append, List.getLast?_concat, Option.any_some, decide_eq_false_iff_not, Nat.not_lt,
    List.mem_singleton, forall_eq]
  constructor
  · rintro ⟨-, -, hall⟩
    exact hall last (by simp)
  · intro hle
    refine ⟨by simpa using h, List.pairwise_singleton _ _, fun x hx => ?_⟩
    rw [List.concat_eq_append, List.pairwise_append] at h
    rcases List.mem_append.mp hx with hx | hx
    · exact Nat.le_trans (h.2.2 x hx last (by simp)) hle
    rw [List.mem_singleton.mp hx]
    exact hle

theorem distinct_snoc (h : (seen.map Insertion.list).Nodup) :
    ((seen ++ [item]).map Insertion.list).Nodup ↔ (seen.any fun other => item.list = other.list) = false := by
  rw [List.map_append, List.map_singleton, List.nodup_append, List.any_eq_false]
  constructor
  · rintro ⟨-, -, hall⟩ other hmem
    have hne := hall other.list (List.mem_map_of_mem hmem) item.list List.mem_cons_self
    simpa using Ne.symm hne
  · intro hall
    refine ⟨h, List.nodup_singleton _, fun list hlist other hother => ?_⟩
    obtain ⟨x, hx, rfl⟩ := List.mem_map.mp hlist
    have hne := hall x hx
    rw [List.mem_singleton.mp hother]
    simpa using Ne.symm (by simpa using hne)

theorem valid_from_iff (hordered : seen.Pairwise fun x y => position x ≤ position y)
    (hdistinct : (seen.map Insertion.list).Nodup) :
    valid_from count lists seen rest = true ↔ (seen ++ rest).Pairwise (fun x y => position x ≤ position y) ∧
      ((seen ++ rest).map Insertion.list).Nodup ∧ ∀ x ∈ rest, (x.list ≠ 0 ∧ x.after_list < count) ∧
        ∀ list ∈ lists, list ≠ 0 ∧ x.list ≠ list := by
  induction rest generalizing seen with
  | nil => simpa [valid_from] using ⟨hordered, hdistinct⟩
  | cons item rest ih =>
    have hsplit : seen ++ item :: rest = (seen ++ [item]) ++ rest := by simp
    rw [hsplit]
    unfold valid_from
    split
    · rename_i hbad
      refine iff_of_false nofun fun h => ?_
      obtain ⟨⟨hlist, hafter⟩, -⟩ := h.2.2 item List.mem_cons_self
      rcases hbad with hzero | hfar
      · exact hlist hzero
      · omega
    rename_i hnamed
    split
    · rename_i hback
      refine iff_of_false nofun fun h => ?_
      have hpairs := (ordered_snoc hordered).mp (List.pairwise_append.mp h.1).1
      rw [hback] at hpairs
      cases hpairs
    rename_i hforth
    have hpairs := (ordered_snoc hordered).mpr (by simpa using hforth)
    split
    · rename_i hown
      refine iff_of_false nofun fun h => ?_
      obtain ⟨list, hlist, hsame⟩ := List.any_eq_true.mp hown
      obtain ⟨hne, hother⟩ := (h.2.2 item List.mem_cons_self).2 list hlist
      simp [hne, hother] at hsame
    rename_i hown
    split
    · rename_i htwice
      refine iff_of_false nofun fun h => ?_
      have hnodup := h.2.1
      rw [List.map_append, List.nodup_append] at hnodup
      have honce := (distinct_snoc hdistinct).mp hnodup.1
      rw [htwice] at honce
      cases honce
    rename_i honce
    rw [ih hpairs ((distinct_snoc hdistinct).mpr (by simpa using honce)), List.forall_mem_cons]
    simp only [not_or, Nat.not_le] at hnamed
    have happart : ∀ list ∈ lists, list ≠ 0 ∧ item.list ≠ list := by
      intro list hlist
      have hne := List.any_eq_false.mp (Bool.eq_false_iff.mpr hown) list hlist
      simpa using hne
    exact and_congr_right fun _ => and_congr_right fun _ =>
      ⟨fun hrest => ⟨⟨hnamed, happart⟩, hrest⟩, fun hall => hall.2⟩

theorem valid_insertions_iff (insertions : Vector Insertion 7) (inserted : Nat) :
    valid_insertions insertions inserted count lists = true ↔
      inserted ≤ kMaximumInsertions ∧ Valid count lists (insertions.toList.take inserted) := by
  unfold valid_insertions
  split
  · rename_i hmany
    exact iff_of_false nofun fun h => absurd h.1 (Nat.not_le_of_lt hmany)
  rename_i hfew
  rw [valid_from_iff List.Pairwise.nil List.nodup_nil, List.nil_append]
  constructor
  · rintro ⟨hordered, hdistinct, hall⟩
    exact ⟨Nat.le_of_not_lt hfew, fun x hx => (hall x hx).1, hordered, fun x hx => (hall x hx).2, hdistinct⟩
  · rintro ⟨-, hnamed, hordered, happart, hdistinct⟩
    exact ⟨hordered, hdistinct, fun x hx => ⟨hnamed x hx, happart x hx⟩⟩

end

/-! ## What a valid plan is forwarded as -/

/-- An insertion as an item beside a list of the batch. -/
def Insertion.woven (x : Insertion) : Item Nat := ⟨x.after_list, x.before, x.list⟩

theorem augmented_eq_merge (plan : List Insertion) (i : Nat) (lists : List Nat) :
    augmented plan i lists = merge (plan.map Insertion.woven) i lists := by
  have htake {p : Item Nat → Bool} (plan : List Insertion) :
      ((plan.map Insertion.woven).takeWhile p).map Item.item = (plan.takeWhile fun x => p x.woven).map Insertion.list := by
    rw [List.takeWhile_map, List.map_map]
    rfl
  induction lists generalizing plan i with
  | nil => rfl
  | cons list rest ih =>
    rw [augmented, merge, ih]
    rw [List.dropWhile_map, htake, htake, List.dropWhile_map]
    rfl

/-- Every list of the application is there once more and in its order, every inserted list once and in
its place, and nothing else. -/
structure Exact (lists : List Nat) (plan : List Insertion) (output : List Nat) : Prop where
  placed : output = weave (plan.map Insertion.woven) 0 lists
  original : output.filter (fun list => !(plan.map Insertion.list).contains list) = lists
  nothing_else : output.Perm (lists ++ plan.map Insertion.list)
  once : ∀ x ∈ plan, output.count x.list = 1

theorem Valid.exact {lists : List Nat} {plan : List Insertion} (h : Valid lists.length lists plan) :
    Exact lists plan (augmented plan 0 lists) := by
  have hlists : (plan.map Insertion.woven).map Item.item = plan.map Insertion.list := by
    rw [List.map_map]
    rfl
  have hordered : Ordered (plan.map Insertion.woven) := List.pairwise_map.mpr h.ordered
  have hplaced : augmented plan 0 lists = weave (plan.map Insertion.woven) 0 lists := by
    rw [augmented_eq_merge, merge_eq_weave hordered]
  have hplaces : ∀ x ∈ plan.map Insertion.woven, x.place < lists.length := by
    intro x hx
    obtain ⟨item, hitem, rfl⟩ := List.mem_map.mp hx
    exact (h.named item hitem).2
  have hperm := weave_perm (plan.map Insertion.woven) 0 lists
  rw [Nat.zero_add, within_all hplaces, hlists, ← hplaced] at hperm
  refine ⟨hplaced, ?_, hperm, fun x hx => ?_⟩
  · rw [hplaced]
    apply filter_weave
    · intro x hx
      obtain ⟨item, hitem, rfl⟩ := List.mem_map.mp hx
      have hmem : item.list ∈ plan.map Insertion.list := List.mem_map_of_mem hitem
      simpa [Insertion.woven] using ⟨item, hitem, rfl⟩
    · intro list hlist
      have hnot : list ∉ plan.map Insertion.list := by
        intro hmem
        obtain ⟨item, hitem, rfl⟩ := List.mem_map.mp hmem
        exact (h.apart item hitem _ hlist).2 rfl
      simpa using hnot
  · have hnot : x.list ∉ lists := fun hmem => (h.apart x hx _ hmem).2 rfl
    rw [hperm.count_eq, List.count_append, List.count_eq_zero_of_not_mem hnot,
      List.count_eq_one_of_mem h.distinct (List.mem_map_of_mem hx)]


/-! ## What is sent -/

/-- A call of the original function. -/
def Event.forwards : Event → Option (Nat × Option (List Nat))
  | .forward count lists => some (count, lists)
  | _ => none

namespace Answers

variable (a : Answers) (batch : Batch)

/-- The batch is submitted in the queue's order. -/
def ordered : Bool := !a.inside_wrapper && (a.registered && a.enabled) && a.lock_owned && a.enabled_locked

/-- The plan that the wrapper has for the batch. A submission inside one of its callbacks drops it. -/
def offered : Option (Vector Insertion 7 × Nat) :=
  if a.ordered && !a.nested_planned batch then a.plan batch else none

end Answers

/-- What a batch is sent as, for the plan that there is. -/
def Sent (offered : Option (Vector Insertion 7 × Nat)) (batch : Batch) (sent : Nat × Option (List Nat)) : Prop :=
  match offered, batch.lists with
  | some (insertions, inserted), some lists =>
    if valid_insertions insertions inserted batch.count lists then
      ∃ output, sent = (output.length, some output) ∧ Exact lists (insertions.toList.take inserted) output ∧
        output.length ≤ kMaximumCommandLists + kMaximumInsertions
    else sent = (batch.count, batch.lists)
  | _, _ => sent = (batch.count, batch.lists)

section
variable {batch : Batch} {insertions : Vector Insertion 7} {inserted : Nat} {lists : List Nat}

theorem sent_plain {offered : Option (Vector Insertion 7 × Nat)} (h : offered = none ∨ batch.lists = none) :
    Sent offered batch (batch.count, batch.lists) := by
  unfold Sent
  rcases h with rfl | hnone
  · rfl
  rw [hnone]
  cases offered <;> rfl

theorem sent_refused (h : valid_insertions insertions inserted batch.count lists = false) (hlists : batch.lists = some lists) :
    Sent (some (insertions, inserted)) batch (batch.count, batch.lists) := by
  unfold Sent
  rw [hlists]
  dsimp only
  rw [h, if_neg Bool.false_ne_true]

theorem augmented_nil (i : Nat) (lists : List Nat) : augmented [] i lists = lists := by
  induction lists generalizing i with
  | nil => rfl
  | cons list rest ih =>
    have hrest := ih (i + 1)
    simpa [augmented] using hrest

theorem sent_valid (h : valid_insertions insertions inserted batch.count lists = true) (hlists : batch.lists = some lists)
    (hbound : batch.count ≤ kMaximumCommandLists) :
    Sent (some (insertions, inserted)) batch ((augmented (insertions.toList.take inserted) 0 lists).length,
      some (augmented (insertions.toList.take inserted) 0 lists)) := by
  have hwhole : lists.length = batch.count := batch.whole lists hlists
  obtain ⟨hfew, hplan⟩ := (valid_insertions_iff insertions inserted).mp h
  rw [← hwhole] at hplan
  have hexact := hplan.exact
  have hlength : (augmented (insertions.toList.take inserted) 0 lists).length ≤ kMaximumCommandLists + kMaximumInsertions := by
    rw [hexact.nothing_else.length_eq, List.length_append, List.length_map, hwhole]
    exact Nat.add_le_add hbound (Nat.le_trans (List.length_take_le _ _) hfew)
  unfold Sent
  rw [hlists]
  dsimp only
  rw [h, if_pos rfl]
  exact ⟨_, rfl, hexact, hlength⟩

end

namespace Answers

variable {a : Answers} {batch : Batch} {b : Bool} {e : Event}

theorem when_forwards (h : e.forwards = none) : (when b e).filterMap Event.forwards = [] := by
  unfold when
  split
  · rw [List.filterMap_cons_none h, List.filterMap_nil]
  · rfl

theorem contended_forwards : (a.contended_submit batch).filterMap Event.forwards = [(batch.count, batch.lists)] := by
  unfold contended_submit
  simp only [List.filterMap_append]
  rw [when_forwards rfl, when_forwards rfl, when_forwards rfl]
  rfl

theorem asked_forwards : (a.asked batch).filterMap Event.forwards = [] := by
  unfold asked
  split
  · rw [List.filterMap_cons_none rfl, when_forwards rfl]
  · rfl

theorem finished_forwards : (a.finished batch).filterMap Event.forwards = [] := by
  unfold finished
  split
  · rfl
  split
  · rfl
  · exact when_forwards rfl

/-- A plan is asked for only of a batch that has its lists, and not too many. -/
theorem batch_of_plan {plan : Vector Insertion 7 × Nat} (h : a.plan batch = some plan) :
    (∃ lists, batch.lists = some lists) ∧ batch.count ≤ kMaximumCommandLists := by
  unfold Answers.plan receipt_of at h
  cases hknown : batch.oversized || batch.invalid with
  | true => simp [hknown] at h
  | false =>
    unfold Batch.oversized Batch.invalid at hknown
    simp only [Bool.or_eq_false_iff, decide_eq_false_iff_not, Nat.not_lt, Option.isNone_eq_false_iff,
      Option.isSome_iff_exists] at hknown
    exact ⟨hknown.2.2, hknown.1⟩

/-- Without a nested submission the check alone decides. -/
theorem accepted_quiet {insertions : Vector Insertion 7} {inserted : Nat} {lists : List Nat}
    (hplan : a.plan batch = some (insertions, inserted)) (hquiet : a.nested_planned batch = false) :
    a.accepted batch lists = if valid_insertions insertions inserted batch.count lists then inserted else 0 := by
  unfold nested_planned at hquiet
  rw [hplan] at hquiet
  simp only [Option.isSome_some, Bool.true_and, Bool.or_eq_false_iff] at hquiet
  unfold accepted
  rw [hplan, hquiet.2.1]
  dsimp only
  cases valid_insertions insertions inserted batch.count lists <;> rfl

/-- What the wrapper forwards of an ordered batch. -/
theorem forwarded_sent : ∃ sent, (a.forwarded batch).forwards = some sent ∧
    Sent (if a.nested_planned batch then none else a.plan batch) batch sent := by
  unfold forwarded
  cases hlists : batch.lists with
  | none =>
    refine ⟨_, rfl, ?_⟩
    rw [← hlists]
    exact sent_plain (.inr hlists)
  | some lists =>
    have hplain : Sent none batch (batch.count, some lists) := hlists ▸ sent_plain (.inl rfl)
    cases hplan : a.plan batch with
    | none =>
      rw [ite_self]
      exact ⟨_, rfl, hplain⟩
    | some plan =>
      obtain ⟨insertions, inserted⟩ := plan
      cases hnested : a.nested_planned batch with
      | true => exact ⟨_, rfl, hplain⟩
      | false =>
        simp only [Bool.false_eq_true, if_false]
        rw [accepted_quiet hplan hnested]
        cases hvalid : valid_insertions insertions inserted batch.count lists with
        | false => exact ⟨_, rfl, hlists ▸ sent_refused hvalid hlists⟩
        | true =>
          have hsent := sent_valid hvalid hlists (batch_of_plan hplan).2
          simp only [if_true]
          split
          · -- an empty plan leaves the array as it is
            rename_i hnone
            refine ⟨_, rfl, ?_⟩
            rw [hnone] at hsent ⊢
            rw [List.take_zero, augmented_nil, batch.whole lists hlists] at hsent
            exact hsent
          · exact ⟨_, rfl, hsent⟩

/-- The original function is called once for each batch, with what the plan makes of it. -/
theorem submit_sent : ∃ sent, (a.submit batch).filterMap Event.forwards = [sent] ∧ Sent (a.offered batch) batch sent := by
  have hplain (h : a.ordered = false) : Sent (a.offered batch) batch (batch.count, batch.lists) := by
    apply sent_plain
    left
    unfold offered
    rw [h]
    rfl
  unfold submit
  split
  · rename_i hinside
    exact ⟨_, rfl, hplain (by simp [ordered, hinside])⟩
  rename_i hinside
  split
  · rename_i hunknown
    refine ⟨_, rfl, hplain ?_⟩
    rw [← Bool.not_and, Bool.not_eq_true'] at hunknown
    simp [ordered, hunknown]
  rename_i hknown
  split
  · rename_i howned
    exact ⟨_, contended_forwards, hplain (by simpa [ordered] using fun _ _ _ h => absurd h (by simpa using howned))⟩
  rename_i howned
  split
  · rename_i hlocked
    exact ⟨_, rfl, hplain (by simpa [ordered] using fun _ _ _ _ => by simpa using hlocked)⟩
  rename_i hlocked
  have hordered : a.ordered = true := by simp_all [ordered]
  rw [List.filterMap_append, when_forwards rfl, List.nil_append]
  unfold offered
  rw [hordered, Bool.true_and]
  split
  · -- the batch is no work of the manager's: no plan is asked for
    rename_i hreceipt
    rw [Bool.and_eq_true, decide_eq_true_eq] at hreceipt
    have hforward : (Event.forward batch.count batch.lists).forwards = some (batch.count, batch.lists) := rfl
    refine ⟨(batch.count, batch.lists), ?_, sent_plain (.inl ?_)⟩
    · rw [List.filterMap_cons_some hforward, when_forwards rfl]
    · have hnone : a.plan batch = none := by simp [plan, hreceipt.1]
      rw [hnone, ite_self]
  obtain ⟨sent, hsent, hplan⟩ := @forwarded_sent a batch
  refine ⟨sent, ?_, ?_⟩
  · rw [List.filterMap_append, asked_forwards, List.nil_append, List.filterMap_cons_some hsent, finished_forwards]
  · cases hnested : a.nested_planned batch <;> simpa [hnested] using hplan

end Answers

end taxi_camera.engine_hook.queue_submit
