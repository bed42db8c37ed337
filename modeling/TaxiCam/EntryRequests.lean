-- Creation follows the last request: a creation that is begun was asked for by
-- an enable that nothing replaced, cancelled or answered in between, in every
-- interleaving of the calls that post requests with the updates.
import TaxiCam.EntryPair

namespace taxi_camera.engine_camera

open histories runs
open Since (after now snoc)

namespace PairController

/-! ## The rules -/

/-- What ends a request in the mailbox: another request, an update that consumes it, or a
cancellation. -/
def unposts : Event → Bool
  | .requested _ | .consumed _ | .cancel_answered .cancelled => true
  | _ => false

/-- What ends the wish to create, or the creation: the next request that is consumed, a
cancellation, or the creation that is begun. -/
def unwants : Event → Bool
  | .consumed _ | .cancel_answered .cancelled | .attempted => true
  | _ => false

/-- The request was posted last, and is still in the mailbox. -/
def Posted (enabled : Bool) : List Event → Prop :=
  Since unposts fun _ e => e = .requested enabled

/-- An enable was consumed, from the mailbox it was posted to, and nothing came of it yet. -/
def Wanted : List Event → Prop :=
  Since unwants fun before e => e = .consumed true ∧ Posted true before

/-- A creation that was wanted is under way. -/
def Creating : List Event → Prop :=
  Since unwants fun before e => e = .attempted ∧ Wanted before

/-- What may be told of requests and creations after the past. -/
def Obedient (past : List Event) : Event → Prop
  | .consumed enabled => Posted enabled past
  | .attempted => Wanted past
  | .created _ _ => Creating past
  | _ => True

/-- The enable request at place `i` leads to the creation at place `j`: it is the one that is
consumed next, and the creation comes of it. -/
def LeadsTo (told : List Event) (i j : Nat) : Prop :=
  ∃ before posted pending later,
    told = before ++ .requested true :: (posted ++ .consumed true :: (pending ++ .attempted :: later)) ∧
      before.length = i ∧ i + posted.length + pending.length + 2 = j ∧
      (∀ e ∈ posted, unposts e = false) ∧ ∀ e ∈ pending, unwants e = false

/-- The call is a step of `cancel_uncreated_request`: it takes the flag, it looks under the mutex,
or it gives the flag back. -/
def OfCancel (s : PairController) (call : Call) : Prop :=
  call = .cancel_uncreated_request ∨
    ∃ answer, call = .resume answer ∧ (s.phase = .cancelling ∨ s.phase = .leaving)

/-- Nothing but the phase and what was told has changed. -/
def Untouched (s s' : PairController) : Prop :=
  s' = { s with phase := s'.phase, history := s'.history }

/-! ## The invariant -/

def Command.of : Bool → Command
  | true => .enable
  | false => .disable

def Under (s : PairController) : Phase → Prop
  | .preparing _ _ | .creating _ _ _ => Creating s.history
  | _ => True

structure Following (s : PairController) : Prop where
  explained : Explained Obedient s.history
  posted : ∀ enabled, s.mailbox.command = Command.of enabled → Posted enabled s.history
  wanted : s.creation_pending = true → Wanted s.history
  under : s.Under s.phase

theorem Following.initial : Following {} where
  explained := explained_nil
  posted enabled h := by cases enabled <;> cases h
  wanted h := by cases h
  under := trivial

section
variable {s : PairController} (h : s.Following)
include h

variable {e : Event}

theorem Following.explain (he : Obedient s.history e) :
    Explained Obedient (s.history ++ [e]) := explained_snoc h.explained he

/-- What is told without an end of any request. -/
theorem Following.tell (he : Obedient s.history e) (hpost : unposts e = false)
    (hwant : unwants e = false) : (s.tell e).Following where
  explained := h.explain he
  posted enabled hcommand := snoc (h.posted enabled hcommand) hpost
  wanted hpending := snoc (h.wanted hpending) hwant
  under := by
    have hunder := h.under
    show (s.tell e).Under s.phase
    revert hunder
    cases s.phase
    case preparing manager index => exact fun hc => snoc hc hwant
    case creating manager index descriptor => exact fun hc => snoc hc hwant
    all_goals exact id

/-- A request takes the place of what was in the mailbox. -/
theorem Following.request {enabled : Bool} {request : Request} (hrequest : request.command = Command.of enabled) :
    ({ s with mailbox := request }.tell (.requested enabled)).Following where
  explained := h.explain trivial
  posted other hother := by
    have hsame : other = enabled := by
      have : Command.of enabled = Command.of other := hrequest.symm.trans hother
      cases enabled <;> cases other <;> first | rfl | cases this
    subst hsame
    exact now rfl
  wanted hpending := snoc (h.wanted hpending) rfl
  under := by
    have hunder := h.under
    revert hunder
    cases s.phase
    case preparing manager index => exact fun hc => snoc hc rfl
    case creating manager index descriptor => exact fun hc => snoc hc rfl
    all_goals exact id

/-- The mailbox is emptied, and what was in it is told where it was a request. -/
theorem Following.take (manager : ManagerToken) (engine : EngineCallbacks) : (s.take manager engine).Following := by
  have hempty : ∀ {told : List Event} {enabled : Bool}, Command.none = Command.of enabled → Posted enabled told := by
    intro told enabled hnone
    cases enabled <;> cases hnone
  unfold PairController.take apply
  split
  · rename_i hcommand
    have hposted := h.posted true hcommand
    exact ⟨h.explain hposted, fun _ => hempty, fun _ => now ⟨rfl, hposted⟩, trivial⟩
  · rename_i hcommand
    have hposted := h.posted false hcommand
    exact ⟨h.explain hposted, fun _ => hempty, nofun, trivial⟩
  · exact ⟨h.explained, fun _ => hempty, h.wanted, trivial⟩

theorem Following.decide_update (manager : ManagerToken) (engine : EngineCallbacks) :
    (s.decide_update manager engine).Following := by
  unfold PairController.decide_update rest begin_cleanup
  repeat' split
  all_goals exact ⟨h.explained, h.posted, h.wanted, trivial⟩

theorem Following.end_cleanup (after : Cleanup) : (s.end_cleanup after).Following := by
  unfold PairController.end_cleanup
  cases s.has_owned_ids <;> cases after <;> exact ⟨h.explained, h.posted, h.wanted, trivial⟩

theorem Following.cleanup (left : List View) (after : Cleanup) (answer : Answer) :
    (s.cleanup left after answer).Following := by
  cases left with
  | nil => exact h.end_cleanup after
  | cons index rest =>
    have hgo : Following { s with phase := .erasing rest after } := ⟨h.explained, h.posted, h.wanted, trivial⟩
    unfold PairController.cleanup
    dsimp only
    split
    · exact hgo
    split
    · refine tell ?_ trivial rfl rfl
      exact ⟨h.explained, h.posted, h.wanted, trivial⟩
    · exact hgo.tell trivial rfl rfl

theorem Following.start (manager : ManagerToken) : (s.start manager).Following := by
  unfold PairController.start
  split
  · exact ⟨h.explained, h.posted, h.wanted, trivial⟩
  rename_i hpending
  simp only [Bool.or_eq_true, Bool.not_eq_true', not_or, Bool.not_eq_false] at hpending
  have hwanted := h.wanted hpending.2
  refine ⟨h.explain hwanted, ?_, nofun, now ⟨rfl, hwanted⟩⟩
  exact fun enabled hcommand => snoc (h.posted enabled hcommand) rfl

theorem Following.creation_failed (failure : Failure) : (s.creation_failed failure).Following := by
  unfold PairController.creation_failed begin_cleanup
  split <;> exact ⟨h.explained, h.posted, h.wanted, trivial⟩

theorem Following.prepare (hcreating : Creating s.history) (manager : ManagerToken) (index : View)
    (answer : Answer) : (s.prepare manager index answer).Following := by
  unfold PairController.prepare
  split
  · exact h.creation_failed _
  dsimp only
  split
  · exact h.creation_failed _
  · exact ⟨h.explained, h.posted, h.wanted, hcreating⟩

theorem Following.advance (hcreating : Creating s.history) (manager : ManagerToken)
    (index : View) : (s.advance manager index).Following := by
  unfold PairController.advance
  split
  · exact ⟨h.explained, h.posted, h.wanted, hcreating⟩
  · exact ⟨h.explained, h.posted, h.wanted, trivial⟩

theorem Following.create (hcreating : Creating s.history) (manager : ManagerToken) (index : View)
    (answer : Answer) : (s.create manager index answer).Following := by
  have htold : (s.tell (.created manager answer.create)).Following := h.tell hcreating rfl rfl
  unfold PairController.create
  split
  · exact htold.creation_failed _
  split
  · exact htold.creation_failed _
  have htold' : Creating (s.history ++ [.created manager answer.create]) := snoc hcreating rfl
  refine advance ?_ htold' manager index
  exact ⟨htold.explained, htold.posted, htold.wanted, htold.under⟩

theorem Following.cancel : s.cancel.Following := by
  unfold PairController.cancel
  split
  · refine tell ?_ trivial rfl rfl
    exact ⟨h.explained, h.posted, h.wanted, trivial⟩
  refine ⟨h.explain trivial, ?_, nofun, trivial⟩
  intro enabled hcommand
  cases enabled <;> cases hcommand

theorem Following.acknowledge (manager : ManagerToken) : (s.acknowledge manager).Following := by
  unfold PairController.acknowledge
  split
  · exact ⟨h.explained, h.posted, h.wanted, trivial⟩
  refine ⟨h.explain trivial, ?_, nofun, trivial⟩
  exact fun enabled hcommand => snoc (h.posted enabled hcommand) rfl

theorem Following.resume (answer : Answer) : (s.resume answer).Following := by
  have hunder := h.under
  unfold PairController.resume
  split <;> rename_i hphase <;> rw [hphase] at hunder
  · exact h
  · exact h.cancel
  · exact h.acknowledge _
  · refine ⟨h.explained, ?_, h.wanted, trivial⟩
    intro enabled hcommand
    cases enabled <;> cases hcommand
  · exact h.take _ _
  · exact h.decide_update _ _
  · exact h.cleanup _ _ _
  · exact h.start _
  · exact h.prepare hunder _ _ _
  · exact h.create hunder _ _ _
  · exact ⟨h.explained, h.posted, h.wanted, trivial⟩
  · exact ⟨h.explained, h.posted, h.wanted, trivial⟩

theorem Following.step (call : Call) : (PairController.step s call).Following := by
  cases call with
  | request_enable keys => exact @request s h true _ rfl
  | request_independent_pose feeds => exact @request s h true _ rfl
  | request_disable => exact @request s h false _ rfl
  | cancel_uncreated_request =>
    show (cancel_uncreated_request s).Following
    unfold cancel_uncreated_request
    split
    · exact h.tell trivial rfl rfl
    · exact ⟨h.explained, h.posted, h.wanted, trivial⟩
  | process_update manager engine =>
    show (process_update s manager engine).Following
    unfold process_update
    split
    · exact h
    · exact ⟨h.explained, h.posted, h.wanted, trivial⟩
  | acknowledge_manager_destroyed manager =>
    show (acknowledge_manager_destroyed s manager).Following
    unfold acknowledge_manager_destroyed
    split
    · exact h
    · exact ⟨h.explained, h.posted, h.wanted, trivial⟩
  | resume answer => exact h.resume answer

end

/-! ## The law -/

variable {told : List Event}

/-- A creation that is begun comes of an enable request. -/
theorem leads_to_of_attempted (h : Explained Obedient told) {j : Nat}
    (hj : told[j]? = some .attempted) : ∃ i, LeadsTo told i j := by
  obtain ⟨hlt, hget⟩ := List.getElem?_eq_some_iff.mp hj
  have hsplit : told = told.take j ++ .attempted :: told.drop (j + 1) := by
    rw [← hget, ← List.drop_eq_getElem_cons hlt, List.take_append_drop]
  obtain ⟨early, e, pending, hearly, ⟨rfl, hposted⟩, hpending⟩ := h _ _ _ hsplit
  obtain ⟨before, e, posted, rfl, rfl, hquiet⟩ := hposted
  have hlength : (told.take j).length = j := by
    rw [List.length_take]
    omega
  refine ⟨before.length, before, posted, pending, told.drop (j + 1), ?_, rfl, ?_, hquiet, hpending⟩
  · rw [hearly] at hsplit
    simpa using hsplit
  · rw [hearly] at hlength
    simp only [List.length_append, List.length_cons] at hlength
    omega

/-- An enable request leads to one creation at most. -/
theorem leads_to_unique {i j k : Nat} (hj : LeadsTo told i j) (hk : LeadsTo told i k) : j = k := by
  obtain ⟨before, posted, pending, later, rfl, rfl, rfl, hposted, hpending⟩ := hj
  obtain ⟨other, posted', pending', later', hsplit, hlength, rfl, hposted', hpending'⟩ := hk
  obtain ⟨rfl, hrest⟩ := List.append_inj hsplit hlength.symm
  obtain ⟨rfl, -, hrest⟩ := first_unique (List.cons.inj hrest).2 hposted hposted' rfl rfl
  obtain ⟨rfl, -⟩ := first_unique hrest hpending hpending' rfl rfl
  rfl

/-- After an event that ends every wish, a create is called only for an enable that was posted and
consumed later. -/
theorem enabled_again {before between later : List Event} {e : Event} {manager : ManagerToken}
    {id : EntryId} (h : Explained Obedient told) (he : e = .cancel_answered .cancelled ∨ e = .consumed false)
    (hsplit : told = before ++ e :: (between ++ .created manager id :: later)) :
    ∃ first posted rest, between = first ++ .requested true :: (posted ++ .consumed true :: rest) := by
  have hends : unposts e = true ∧ unwants e = true ∧ e ≠ .attempted ∧ e ≠ .consumed true ∧ e ≠ .requested true := by
    obtain rfl | rfl := he <;> exact ⟨rfl, rfl, nofun, nofun, nofun⟩
  obtain ⟨hunposts, hunwants, hattempted, hconsumed, hrequested⟩ := hends
  have hcreating : Creating (before ++ e :: between) := by
    refine h _ (.created manager id) later ?_
    rw [hsplit]
    simp
  obtain ⟨early, x, rest, rfl, ⟨rfl, hwanted⟩, -⟩ := after hcreating hunwants fun hw => hattempted hw.1
  obtain ⟨early, x, pending, rfl, ⟨rfl, hposted⟩, -⟩ := after hwanted hunwants fun hw => hconsumed hw.1
  obtain ⟨first, x, posted, rfl, rfl, -⟩ := after hposted hunposts hrequested
  exact ⟨first, posted, pending ++ .attempted :: rest, by simp⟩

/-- A cancellation that does not cancel touches nothing. -/
theorem untouched_of_cancel {s : PairController} {call : Call} (hcall : s.OfCancel call)
    (hanswer : (s.step call).history ≠ s.history ++ [.cancel_answered .cancelled]) :
    s.Untouched (s.step call) := by
  obtain rfl | ⟨answer, rfl, hphase | hphase⟩ := hcall
  · show s.Untouched s.cancel_uncreated_request
    unfold cancel_uncreated_request
    split <;> rfl
  · have hstep : s.step (.resume answer) = s.cancel := by
      simp only [step, resume, hphase]
    rw [hstep] at hanswer ⊢
    unfold cancel at hanswer ⊢
    split
    · rfl
    rename_i hfree
    rw [if_neg hfree] at hanswer
    exact absurd rfl hanswer
  have hstep : s.step (.resume answer) = { s with phase := .idle } := by
    simp only [step, resume, hphase]
  rw [hstep]
  rfl

/-- In every interleaving each creation comes of an enable request, and no request leads to two;
every create call is part of a creation that was begun; after a cancellation, or a disable that was
consumed, create is called only for an enable posted and consumed since. -/
theorem creation_follows_the_last_request (calls : List Call) :
    let s := run PairController.step {} calls
    (∀ j, s.history[j]? = some .attempted → ∃ i, LeadsTo s.history i j) ∧
      (∀ i j k, LeadsTo s.history i j → LeadsTo s.history i k → j = k) ∧
      (∀ past manager id later, s.history = past ++ .created manager id :: later →
        ∃ before inside, past = before ++ .attempted :: inside ∧ ∀ e ∈ inside, unwants e = false) ∧
      (∀ before e between manager id later, s.history = before ++ e :: (between ++ .created manager id :: later) →
        e = .cancel_answered .cancelled ∨ e = .consumed false →
        ∃ first posted rest, between = first ++ .requested true :: (posted ++ .consumed true :: rest)) ∧
      ∀ call, s.OfCancel call → (s.step call).history ≠ s.history ++ [.cancel_answered .cancelled] →
        s.Untouched (s.step call) := by
  intro s
  have h : s.Following := invariant (fun (s : PairController) call h => h.step call) calls .initial
  refine ⟨fun j hj => leads_to_of_attempted h.explained hj, fun i j k => leads_to_unique, ?_, ?_, ?_⟩
  · intro past manager id later hsplit
    obtain ⟨before, e, inside, rfl, ⟨rfl, -⟩, hinside⟩ := h.explained _ _ _ hsplit
    exact ⟨before, inside, rfl, hinside⟩
  · exact fun before e between manager id later hsplit he => enabled_again h.explained he hsplit
  · exact fun call hcall hanswer => untouched_of_cancel hcall hanswer

end PairController

end taxi_camera.engine_camera
