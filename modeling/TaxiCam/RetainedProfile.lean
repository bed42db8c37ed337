-- The transition of a kept pair to another aircraft profile.
-- src/camera/retained_profile.hpp, with the dimensions that the views are held
-- to. The history has every call, and the transition that it was made on.
import TaxiCam.OwnedViews

namespace taxi_camera.native_camera.retained_profile

open engine_camera histories runs
open native_camera.RetainedProfileTransition (valid_pair)

abbrev Views := View → InspectedView

abbrev Dimensions := View → Vector (Int × Int) 3

structure AllocationEvidence where
  owner : ManagerToken := {}
  ids : OwnedIds := fun _ => 0
  dimensions : Dimensions := fun _ => Vector.replicate 3 (0, 0)

def AllocationEvidence.«matches» (evidence : AllocationEvidence) (pair : Snapshot) : Bool :=
  evidence.owner == pair.owner && same_ids evidence.ids pair.owned_ids

structure RetainedProfileTransition where
  id : Nat := 0
  owner : ManagerToken := {}
  ids : OwnedIds := fun _ => 0
  dimensions : Dimensions := fun _ => Vector.replicate 3 (0, 0)
  awaits : Bool := false
  resizing : Bool := false
  state : Decision := .wait

namespace RetainedProfileTransition

variable (s : RetainedProfileTransition)

def begin (id : Nat) (pair : Snapshot) (dimensions : Dimensions) : RetainedProfileTransition :=
  { id
    owner := pair.owner
    ids := pair.owned_ids
    dimensions
    state :=
      if id == 0 || pair.request_pending || pair.creation_pending then .refused
      else if !any_owned pair.owned_ids then .ready
      else if !valid_pair pair then .refused
      else .wait }

def defer_pair (id : Nat) : RetainedProfileTransition :=
  { s with
    id
    owner := {}
    ids := fun _ => 0
    dimensions := fun _ => Vector.replicate 3 (0, 0)
    awaits := id != 0
    state := if id = 0 then .refused else .wait }

/-- A pair is never bound to an earlier pair's dimensions. -/
def begin_published (id : Nat) (pair : Snapshot) (evidence : AllocationEvidence) : RetainedProfileTransition :=
  if id != 0 && valid_pair pair && !evidence.matches pair then s.defer_pair id else begin id pair evidence.dimensions

def «matches» (pair : Snapshot) : Bool := valid_pair pair && pair.owner == s.owner && same_ids pair.owned_ids s.ids

/-- While the pair is resized, the output of a view may be gone. -/
def admits (i : View) (view : InspectedView) : Bool :=
  view.status = .ready && view.mode == 2 && (s.resizing || view.resource_present && view.resource_address != 0) &&
    view.view_address != 0 && view.node_address != 0 && view.camera_address != 0 && decide (0 ≤ view.view_index) &&
    decide (view.view_index < 8) && view.dimensions == s.dimensions i &&
    (s.resizing || view.output_dimensions == (s.dimensions i)[0])

/-- The loop over the views: the first that is not there yet or not as it was decides. -/
def scan (views : Views) : List View → Option Decision
  | [] => none
  | i :: rest =>
    if !(views i).complete || !(views i).ready || (views i).status = .pending then some .wait
    else if !s.admits i (views i) then some .refused
    else scan views rest

/-- Two views with the same address, place or output. -/
def clash (view other : InspectedView) : Bool :=
  view.view_address == other.view_address || view.view_index == other.view_index ||
    view.resource_address != 0 && view.resource_address == other.resource_address

def judged (ids : OwnedIds) : List View := (List.finRange kMaxOwnedViews).take (feeds ids)

def decide_views (views : Views) : Decision :=
  match s.scan views (judged s.ids) with
  | some decision => decision
  | none =>
    if !decide ((judged s.ids).Pairwise fun i j => clash (views i) (views j) = false) then .refused
    else if (judged s.ids).any fun i => !(views i).closed then .close
    else .ready

def inspect (manager : ManagerToken) (pair : Snapshot) (views : Views) : Decision × RetainedProfileTransition :=
  if s.state = .refused then (.refused, s)
  else if s.awaits then (.wait, s)
  else
    let decision := if !s.matches pair || manager != s.owner then .refused else s.decide_views views
    (decision, { s with state := decision })

/-- The views must carry the new dimensions; their output may be pending until `resized`. -/
def rebase (dimensions : Dimensions) : RetainedProfileTransition := { s with dimensions, resizing := true }

def resized : RetainedProfileTransition := { s with resizing := false }

def refuse : RetainedProfileTransition := { s with awaits := false, state := .refused }

def consume : RetainedProfileTransition := { s with id := 0, awaits := false }

def holding : Bool := s.id != 0
def ready : Bool := s.holding && s.state == .ready
def failed : Bool := s.holding && s.state == .refused
def can_resume (pair : Snapshot) : Bool := s.ready && s.matches pair

/-! ## Without the dimensions -/

/-- The transition that the runs of the observer have: what the views were is left out. -/
def identity : native_camera.RetainedProfileTransition := ⟨s.id, s.owner, s.ids, s.awaits, s.state⟩

theorem identity_begin (id : Nat) (pair : Snapshot) (dimensions : Dimensions) :
    (begin id pair dimensions).identity = native_camera.RetainedProfileTransition.begin id pair := rfl

theorem identity_defer (id : Nat) : (s.defer_pair id).identity = native_camera.RetainedProfileTransition.defer_pair id := rfl

theorem identity_begin_published (id : Nat) (pair : Snapshot) (evidence : AllocationEvidence) :
    (s.begin_published id pair evidence).identity =
      native_camera.RetainedProfileTransition.begin_published id pair ⟨evidence.owner, evidence.ids⟩ := by
  unfold begin_published native_camera.RetainedProfileTransition.begin_published AllocationEvidence.matches
  split <;> rfl

theorem identity_can_resume (pair : Snapshot) : s.identity.can_resume pair = s.can_resume pair := by
  unfold can_resume «matches» native_camera.RetainedProfileTransition.can_resume
  rw [Bool.and_assoc, Bool.and_assoc, Bool.and_assoc]
  rfl

end RetainedProfileTransition

/-! ## Histories -/

inductive Call
  | begin (id : Nat) (pair : Snapshot) (dimensions : Dimensions)
  | defer_pair (id : Nat)
  | begin_published (id : Nat) (pair : Snapshot) (evidence : AllocationEvidence)
  | inspect (manager : ManagerToken) (pair : Snapshot) (views : Views)
  | rebase (dimensions : Dimensions)
  | resized
  | refuse
  | consume

def RetainedProfileTransition.answer (s : RetainedProfileTransition) : Call → RetainedProfileTransition
  | .begin id pair dimensions => .begin id pair dimensions
  | .defer_pair id => s.defer_pair id
  | .begin_published id pair evidence => s.begin_published id pair evidence
  | .inspect manager pair views => (s.inspect manager pair views).2
  | .rebase dimensions => s.rebase dimensions
  | .resized => s.resized
  | .refuse => s.refuse
  | .consume => s.consume

/-- A call, and the transition that it was made on. -/
structure Event where
  call : Call
  before : RetainedProfileTransition

structure World where
  transition : RetainedProfileTransition := {}
  log : List Event := []

def step (w : World) (call : Call) : World := ⟨w.transition.answer call, w.log ++ [⟨call, w.transition⟩]⟩

/-! ## What a kept pair resumes on -/

/-- An owned view, as it is seen by an inspection that finds the pair ready. While the pair is resized, its output may be
missing. -/
structure Saw (s : RetainedProfileTransition) (view : InspectedView) (i : View) : Prop where
  complete : view.complete = true ∧ view.ready = true ∧ view.status = .ready
  mode : view.mode = 2
  closed : view.closed = true
  dimensions : view.dimensions = s.dimensions i
  output : s.resizing = false →
    view.resource_present = true ∧ view.resource_address ≠ 0 ∧ view.output_dimensions = (s.dimensions i)[0]

/-- Two views that share neither address, place nor output. -/
structure Differ (view other : InspectedView) : Prop where
  address : view.view_address ≠ other.view_address
  index : view.view_index ≠ other.view_index
  resource : view.resource_address ≠ 0 → view.resource_address ≠ other.resource_address

/-- An inspection of the pair, by its owner as manager, that saw every owned view. -/
def FreshEvidence (pair : Snapshot) (_ : List Event) (e : Event) : Prop :=
  ∃ seen views, e.call = .inspect pair.owner seen views ∧ e.before.matches seen = true ∧ seen.owner = pair.owner ∧
    seen.owned_ids = pair.owned_ids ∧ (∀ i, pair.owned_ids i ≠ 0 → Saw e.before (views i) i) ∧
    ∀ i j, i < j → pair.owned_ids i ≠ 0 → pair.owned_ids j ≠ 0 → Differ (views i) (views j)

/-- Another inspection, or another transition. -/
def supersedes (e : Event) : Bool :=
  match e.call with
  | .begin .. | .defer_pair _ | .begin_published .. | .inspect .. => true
  | _ => false

def leaves (e : Event) : Bool :=
  match e.call with
  | .begin .. | .defer_pair _ | .begin_published .. | .consume => true
  | _ => false

def Fails (_ : List Event) (e : Event) : Prop := (e.before.answer e.call).failed = true

/-- A call that sets the dimensions that the views are held to. -/
def binds (e : Event) : Bool :=
  match e.call with
  | .begin .. | .defer_pair _ | .begin_published .. | .rebase _ => true
  | _ => false

/-- The dimensions of a transition are those that it was given for its own owner and IDs. -/
def Bound (s : RetainedProfileTransition) (_ : List Event) (e : Event) : Prop :=
  match e.call with
  | .begin _ pair dimensions => pair.owner = s.owner ∧ pair.owned_ids = s.ids ∧ dimensions = s.dimensions
  | .begin_published _ _ evidence => evidence.owner = s.owner ∧ evidence.ids = s.ids ∧ evidence.dimensions = s.dimensions
  | .rebase dimensions => dimensions = s.dimensions
  | _ => False

/-- A transition of a pair that was neither refused nor deferred. -/
def Usable (s : RetainedProfileTransition) : Prop :=
  s.id ≠ 0 ∧ s.state ≠ .refused ∧ s.awaits = false ∧ any_owned s.ids = true

structure Good (w : World) : Prop where
  waits : w.transition.awaits = true → w.transition.state = .wait
  fresh {pair} : w.transition.can_resume pair = true → Ordered pair.owned_ids → Since supersedes (FreshEvidence pair) w.log
  refused : Since leaves Fails w.log → w.transition.failed = true
  bound : Usable w.transition → Since binds (Bound w.transition) w.log

section
variable {s : RetainedProfileTransition} {pair : Snapshot} {views : Views} {i j : View}
variable {l : List View} {ids : OwnedIds}

theorem same_ids_eq {other : OwnedIds} (h : same_ids ids other = true) : ids = other :=
  funext fun i => eq_of_beq (List.all_eq_true.mp h i (List.mem_finRange i))

theorem matches_eq (h : s.matches pair = true) : valid_pair pair = true ∧ pair.owner = s.owner ∧ pair.owned_ids = s.ids := by
  simp only [RetainedProfileTransition.matches, Bool.and_eq_true] at h
  exact ⟨h.1.1, eq_of_beq h.1.2, same_ids_eq h.2⟩

theorem valid_owned (h : valid_pair pair = true) : any_owned pair.owned_ids = true := by
  simp only [valid_pair, Bool.and_eq_true, distinct_owned, bne_iff_ne] at h
  exact List.any_eq_true.mpr ⟨0, List.mem_finRange 0, by simpa using h.1.1.1.1.2.1.1⟩

theorem scan_none (h : s.scan views l = none) :
    ∀ i ∈ l, (views i).complete = true ∧ (views i).ready = true ∧ s.admits i (views i) = true := by
  induction l with
  | nil => nofun
  | cons i rest ih =>
    unfold RetainedProfileTransition.scan at h
    split at h
    · cases h
    rename_i hthere
    split at h
    · cases h
    rename_i hadmits
    intro k hk
    rcases List.mem_cons.mp hk with rfl | hk
    · simp only [Bool.or_eq_true, not_or, Bool.not_eq_true', Bool.not_eq_false] at hthere hadmits
      exact ⟨hthere.1.1, hthere.1.2, hadmits⟩
    · exact ih h k hk

theorem scan_not_ready : s.scan views l ≠ some .ready := by
  induction l with
  | nil => nofun
  | cons i rest ih =>
    unfold RetainedProfileTransition.scan
    split
    · nofun
    split
    · nofun
    · exact ih

/-- An owned place is judged, at its own place. -/
theorem judged_at (hordered : Ordered ids) (hi : ids i ≠ 0) :
    ∃ h : i.val < (RetainedProfileTransition.judged ids).length, (RetainedProfileTransition.judged ids)[i.val] = i := by
  apply List.getElem?_eq_some_iff.mp
  unfold RetainedProfileTransition.judged
  rw [List.getElem?_take_of_lt (owned_in_feeds hordered hi)]
  simp

theorem mem_judged (hordered : Ordered ids) (hi : ids i ≠ 0) : i ∈ RetainedProfileTransition.judged ids := by
  obtain ⟨h, hat⟩ := judged_at hordered hi
  exact hat ▸ List.getElem_mem h

theorem saw_of_admits (hthere : (views i).complete = true ∧ (views i).ready = true ∧ s.admits i (views i) = true)
    (hclosed : (views i).closed = true) : Saw s (views i) i := by
  obtain ⟨hcomplete, hready, hadmits⟩ := hthere
  simp only [RetainedProfileTransition.admits, Bool.and_eq_true, Bool.or_eq_true, decide_eq_true_eq, beq_iff_eq, bne_iff_ne]
    at hadmits
  obtain ⟨⟨⟨⟨⟨⟨⟨⟨⟨hstatus, hmode⟩, hresource⟩, -⟩, -⟩, -⟩, -⟩, -⟩, hdimensions⟩, houtput⟩ := hadmits
  refine ⟨⟨hcomplete, hready, hstatus⟩, hmode, hclosed, hdimensions, fun hresizing => ?_⟩
  rw [hresizing] at hresource houtput
  simp only [Bool.false_eq_true, false_or] at hresource houtput
  exact ⟨hresource.1, hresource.2, houtput⟩

/-- What an inspection that finds the pair ready has seen. -/
theorem decided_ready (hordered : Ordered s.ids) (h : s.decide_views views = .ready) :
    (∀ i, s.ids i ≠ 0 → Saw s (views i) i) ∧ ∀ i j, i < j → s.ids i ≠ 0 → s.ids j ≠ 0 → Differ (views i) (views j) := by
  unfold RetainedProfileTransition.decide_views at h
  split at h
  · rename_i decision hscan
    exact absurd (hscan.trans (congrArg some h)) scan_not_ready
  rename_i hscan
  split at h
  · cases h
  rename_i hapart
  split at h
  · cases h
  rename_i hopen
  have hall := scan_none hscan
  refine ⟨fun i hi => saw_of_admits (hall i (mem_judged hordered hi)) ?_, fun i j hij hi hj => ?_⟩
  · by_contra hclosed
    exact hopen (List.any_eq_true.mpr ⟨i, mem_judged hordered hi, by simpa using hclosed⟩)
  · obtain ⟨hli, hati⟩ := judged_at hordered hi
    obtain ⟨hlj, hatj⟩ := judged_at hordered hj
    simp only [Bool.not_eq_true', Bool.not_eq_false, decide_eq_true_eq] at hapart
    have hclash := List.pairwise_iff_getElem.mp hapart i.val j.val hli hlj hij
    rw [hati, hatj] at hclash
    simp only [RetainedProfileTransition.clash, Bool.or_eq_false_iff, Bool.and_eq_false_iff, beq_eq_false_iff_ne, bne_eq_false_iff_eq]
      at hclash
    exact ⟨hclash.1.1, hclash.1.2, fun hpresent => hclash.2.resolve_left hpresent⟩

end

/-! ## Every history -/

section
variable {w : World} {call : Call}

/-- One call keeps what was proved of the history before it. -/
theorem Good.next (h : Good w) (hwaits : (w.transition.answer call).awaits = true → (w.transition.answer call).state = .wait)
    (hfresh : ∀ pair, (w.transition.answer call).can_resume pair = true → Ordered pair.owned_ids →
      Since supersedes (FreshEvidence pair) (w.log ++ [⟨call, w.transition⟩]))
    (hrefused : w.transition.failed = true → (w.transition.answer call).failed = true ∨ leaves ⟨call, w.transition⟩ = true)
    (hbound : Usable (w.transition.answer call) →
      Since binds (Bound (w.transition.answer call)) (w.log ++ [⟨call, w.transition⟩])) : Good (step w call) where
  waits := hwaits
  fresh := fun {pair} => hfresh pair
  refused hsince := by
    rcases hsince.of_snoc with hnow | ⟨hbefore, hkept⟩
    · exact hnow
    · exact (hrefused (h.refused hbefore)).resolve_right fun hleaves => absurd (hleaves.symm.trans hkept) (by decide)
  bound := hbound

variable {dimensions : Dimensions} {id : Nat} {pair : Snapshot}

theorem not_resumed {s : RetainedProfileTransition} (h : s.state ≠ .ready) : s.can_resume pair ≠ true := by
  intro hresume
  simp only [RetainedProfileTransition.can_resume, RetainedProfileTransition.ready, Bool.and_eq_true] at hresume
  exact h (eq_of_beq hresume.1.2)

/-- A transition that has just begun has seen nothing yet. -/
theorem begin_not_resumed {other : Snapshot} :
    (RetainedProfileTransition.begin id pair dimensions).can_resume other ≠ true := by
  intro hresume
  obtain ⟨hvalid, -, hids⟩ := matches_eq (Bool.and_eq_true_iff.mp hresume).2
  have howned : any_owned pair.owned_ids = true := by
    have hany := valid_owned hvalid
    rwa [hids] at hany
  refine not_resumed ?_ hresume
  unfold RetainedProfileTransition.begin
  split
  · nofun
  rw [howned]
  split
  · rename_i hnone
    cases hnone
  · split <;> nofun

theorem begin_usable (h : Usable (RetainedProfileTransition.begin id pair dimensions)) : id ≠ 0 ∧ valid_pair pair = true := by
  obtain ⟨hid, hstate, -, howned⟩ := h
  refine ⟨hid, ?_⟩
  unfold RetainedProfileTransition.begin at hstate
  split at hstate
  · exact absurd rfl hstate
  split at hstate
  · rename_i hnone
    have howned : any_owned pair.owned_ids = true := howned
    simp [howned] at hnone
  split at hstate
  · exact absurd rfl hstate
  rename_i hvalid
  simpa using hvalid

theorem Good.begin (h : Good w)
    (hcall : w.transition.answer call = RetainedProfileTransition.begin id pair dimensions)
    (hleaves : leaves ⟨call, w.transition⟩ = true)
    (hbound : Usable (RetainedProfileTransition.begin id pair dimensions) →
      Bound (RetainedProfileTransition.begin id pair dimensions) w.log ⟨call, w.transition⟩) : Good (step w call) := by
  refine h.next ?_ (fun other hresume => ?_) (fun _ => .inr hleaves) fun husable => Since.now ?_
  · rw [hcall]
    nofun
  · rw [hcall] at hresume
    exact absurd hresume begin_not_resumed
  · rw [hcall] at husable ⊢
    exact hbound husable

theorem Good.deferred (h : Good w) (hcall : w.transition.answer call = w.transition.defer_pair id)
    (hleaves : leaves ⟨call, w.transition⟩ = true) : Good (step w call) := by
  have hstate : (w.transition.defer_pair id).state ≠ .ready := by
    unfold RetainedProfileTransition.defer_pair
    split <;> nofun
  refine h.next ?_ (fun other hresume => ?_) (fun _ => .inr hleaves) fun husable => ?_
  · rw [hcall]
    intro hawaits
    have hid : id ≠ 0 := by simpa [RetainedProfileTransition.defer_pair] using hawaits
    exact if_neg hid
  · rw [hcall] at hresume
    exact absurd hresume (not_resumed hstate)
  · rw [hcall] at husable
    obtain ⟨hid, -, hawaits, -⟩ := husable
    exact absurd hawaits (by simpa [RetainedProfileTransition.defer_pair] using hid)

theorem Good.inspect (h : Good w) {manager : ManagerToken} {views : Views} :
    Good (step w (.inspect manager pair views)) := by
  have hsame (hanswer : (w.transition.inspect manager pair views).2 = w.transition) (hstate : w.transition.state ≠ .ready) :
      Good (step w (.inspect manager pair views)) := by
    have hcall : w.transition.answer (.inspect manager pair views) = w.transition := hanswer
    refine h.next (fun hawaits => ?_) (fun other hresume => ?_) (fun hfailed => ?_) fun husable => ?_
    · rw [hcall] at hawaits ⊢
      exact h.waits hawaits
    · rw [hcall] at hresume
      exact absurd hresume (not_resumed hstate)
    · rw [hcall]
      exact .inl hfailed
    · rw [hcall] at husable ⊢
      exact (h.bound husable).snoc rfl
  by_cases hrefused : w.transition.state = .refused
  · refine hsame ?_ (by rw [hrefused]; nofun)
    unfold RetainedProfileTransition.inspect
    rw [if_pos hrefused]
  by_cases hawaits : w.transition.awaits = true
  · refine hsame ?_ (by rw [h.waits hawaits]; nofun)
    unfold RetainedProfileTransition.inspect
    rw [if_neg hrefused, if_pos hawaits]
  have hcall : w.transition.answer (.inspect manager pair views) =
      { w.transition with
        state := if !w.transition.matches pair || manager != w.transition.owner then .refused
          else w.transition.decide_views views } := by
    show (w.transition.inspect manager pair views).2 = _
    unfold RetainedProfileTransition.inspect
    rw [if_neg hrefused, if_neg hawaits]
  refine h.next ?_ (fun other hresume hordered => Since.now ?_) (fun hfailed => ?_) fun husable => ?_
  · rw [hcall]
    exact fun hw => absurd hw hawaits
  · rw [hcall] at hresume
    have hready := (Bool.and_eq_true_iff.mp (Bool.and_eq_true_iff.mp hresume).1).2
    obtain ⟨-, howner, hids⟩ := matches_eq (Bool.and_eq_true_iff.mp hresume).2
    split at hready
    · cases hready
    rename_i hmatches
    simp only [Bool.or_eq_true, not_or, Bool.not_eq_true', Bool.not_eq_false, bne_iff_ne, ne_eq, not_not] at hmatches
    obtain ⟨-, hseen, hseenids⟩ := matches_eq hmatches.1
    have hdecided := decided_ready (hids ▸ hordered) (eq_of_beq hready)
    refine ⟨pair, views, ?_, hmatches.1, hseen.trans howner.symm, hseenids.trans hids.symm, ?_⟩
    · rw [hmatches.2, howner]
    · rw [hids]
      exact hdecided
  · exact absurd (eq_of_beq (Bool.and_eq_true_iff.mp hfailed).2) hrefused
  · rw [hcall] at husable ⊢
    exact (h.bound ⟨husable.1, hrefused, husable.2.2.1, husable.2.2.2⟩).snoc rfl

theorem Good.step (h : Good w) (call : Call) : Good (step w call) := by
  cases call with
  | begin id pair dimensions => exact h.begin rfl rfl fun _ => ⟨rfl, rfl, rfl⟩
  | defer_pair id => exact h.deferred rfl rfl
  | begin_published id pair evidence =>
    by_cases hdefer : (id != 0 && valid_pair pair && !evidence.matches pair) = true
    · have hcall : w.transition.answer (.begin_published id pair evidence) = w.transition.defer_pair id := if_pos hdefer
      exact h.deferred hcall rfl
    have hcall : w.transition.answer (.begin_published id pair evidence) =
        RetainedProfileTransition.begin id pair evidence.dimensions := if_neg hdefer
    refine h.begin hcall rfl fun husable => ?_
    obtain ⟨hid, hvalid⟩ := begin_usable husable
    have hmatches : evidence.matches pair = true := by
      by_contra hnot
      exact hdefer (by simp [hid, hvalid, hnot])
    obtain ⟨howner, hids⟩ := Bool.and_eq_true_iff.mp hmatches
    exact ⟨eq_of_beq howner, same_ids_eq hids, rfl⟩
  | inspect manager pair views => exact h.inspect
  | rebase dimensions =>
    exact h.next h.waits (fun _ hresume hordered => (h.fresh hresume hordered).snoc rfl) (fun hfailed => .inl hfailed)
      fun _ => Since.now rfl
  | resized =>
    exact h.next h.waits (fun _ hresume hordered => (h.fresh hresume hordered).snoc rfl) (fun hfailed => .inl hfailed)
      fun husable => (h.bound husable).snoc rfl
  | refuse =>
    refine h.next nofun (fun _ hresume => absurd hresume (not_resumed nofun)) (fun hfailed => .inl ?_) fun husable =>
      absurd rfl husable.2.1
    exact Bool.and_eq_true_iff.mpr ⟨(Bool.and_eq_true_iff.mp hfailed).1, rfl⟩
  | consume =>
    refine h.next nofun (fun _ hresume => ?_) (fun _ => .inr rfl) fun husable => absurd rfl husable.1
    cases hresume

theorem Good.start : Good {} where
  waits := nofun
  fresh := nofun
  refused hsince := by
    obtain ⟨before, x, after, hsplit, -⟩ := hsince
    cases before <;> cases hsplit
  bound husable := absurd rfl husable.1

end

/-- A kept pair resumes only on the last inspection of it, which saw all its views as they were left; a transition that was
refused stays so until another begins or it is consumed; and one that is in use has the dimensions of its own pair. -/
theorem a_kept_pair_resumes_on_fresh_evidence (calls : List Call) :
    let w := run step ({} : World) calls
    (∀ pair, w.transition.can_resume pair = true → Ordered pair.owned_ids → Since supersedes (FreshEvidence pair) w.log) ∧
      (Since leaves Fails w.log → w.transition.failed = true) ∧
      (Usable w.transition → Since binds (Bound w.transition) w.log) := by
  have hone : ∀ (w : World) (call : Call), Good w → Good (step w call) := fun _ call h => h.step call
  have hgood := invariant hone calls Good.start
  exact ⟨fun _ => hgood.fresh, hgood.refused, hgood.bound⟩

/-! ## A pair of two views -/

def kept : Snapshot where
  state := .active
  owner := ⟨7, 1⟩
  owned_ids := fun i => if i = 0 then 1 else if i = 1 then 2 else 0

/-- The views of the pair with their gates closed, and the address of the first one's output. -/
def kept_views (output : Nat) : Views := fun i =>
  { complete := true, ready := true, status := .ready, mode := 2, view_address := 8 * (i.val + 1), node_address := 16,
    camera_address := 24, view_index := i.val, flags := (1, 0), resource_present := output != 0,
    resource_address := output * (i.val + 1) }

def no_dimensions : Dimensions := fun _ => Vector.replicate 3 (0, 0)

theorem kept_resumes_on_its_inspection : Since supersedes (FreshEvidence kept)
    (run step ({} : World) [.begin 1 kept no_dimensions, .inspect ⟨7, 1⟩ kept (kept_views 40)]).log := by
  apply (a_kept_pair_resumes_on_fresh_evidence [.begin 1 kept no_dimensions, .inspect ⟨7, 1⟩ kept (kept_views 40)]).1 kept
  · decide
  · unfold Ordered
    decide

/-- An inspection of the pair that saw different outputs. -/
def SawOutputsDiffer (pair : Snapshot) (_ : List Event) (e : Event) : Prop :=
  ∃ seen views, e.call = .inspect pair.owner seen views ∧
    ∀ i j, i < j → pair.owned_ids i ≠ 0 → pair.owned_ids j ≠ 0 → (views i).resource_address ≠ (views j).resource_address

/-- While it is resized, a pair resumes on views that have no output, which are not different ones. -/
theorem a_resized_pair_resumes_without_outputs :
    ¬∀ calls pair, (run step ({} : World) calls).transition.can_resume pair = true → Ordered pair.owned_ids →
      Since supersedes (SawOutputsDiffer pair) (run step ({} : World) calls).log := by
  intro h
  have hsince := h [.begin 1 kept no_dimensions, .rebase no_dimensions, .inspect ⟨7, 1⟩ kept (kept_views 0)] kept (by decide) (by
    unfold Ordered
    decide)
  replace hsince : Since supersedes (SawOutputsDiffer kept)
      ((run step ({} : World) [.begin 1 kept no_dimensions, .rebase no_dimensions]).log ++ [_]) := hsince
  rcases hsince.of_snoc with
    ⟨seen, views, hcall, hdiffer⟩ | ⟨-, hkept⟩
  · cases hcall
    exact hdiffer 0 1 (by decide) (by decide) (by decide) rfl
  · cases hkept

end taxi_camera.native_camera.retained_profile
