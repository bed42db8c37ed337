-- The observer of the camera manager, and the threads that ask it for a scene.
-- src/camera/probe.cpp, view_creation_wait.hpp, scene_session_reset.hpp and
-- retained_profile.hpp. A step is one block under the mutex, one call of the
-- pair controller, or one step of the call that is under way; between two of
-- them every other thread can come in. A request to disable goes with the step
-- beside it, for the other threads post no other request. What the observer
-- reads of the engine and of the aircraft comes with the step that reads it.
import TaxiCam.SceneRecovery
import TaxiCam.ViewPool

namespace taxi_camera.native_camera

open engine_camera runs

/-! ## The values of the mailbox -/

structure ViewCreationWait where
  pending : Bool := false
  revision : Nat := 0

def ViewCreationWait.defer (revision : Nat) : ViewCreationWait := { pending := true, revision }

/-- The public aircraft: a flight and whether it can be worked in. -/
structure Readiness where
  epoch : Nat := 0
  loading : Bool := false
  ready : Bool := false

def same_ids (ids other : OwnedIds) : Bool := (List.finRange kMaxOwnedViews).all fun k => ids k == other k

/-- The first two views are owned and every owned ID is distinct. -/
def distinct_owned (ids : OwnedIds) : Bool :=
  ids 0 != 0 && ids 1 != 0 &&
    (List.finRange kMaxOwnedViews).all fun i => (List.finRange kMaxOwnedViews).all fun j =>
      !decide (j < i) || ids i == 0 || ids i != ids j

namespace SceneSessionReset

def empty (pair : Snapshot) : Bool :=
  !pair.owner.valid && !any_owned pair.owned_ids && !pair.request_pending && !pair.creation_pending

end SceneSessionReset

/-- A reset holds from its request to the start that consumes it. -/
structure SceneSessionReset where
  profile : Nat := 0
  retired : Bool := false

namespace SceneSessionReset

variable (s : SceneSessionReset)

def work_allowed (reset_requested : Bool) (authorized_epoch : Nat) (readiness : Readiness) : Bool :=
  !reset_requested && authorized_epoch == readiness.epoch && readiness.ready

def holding : Bool := s.profile != 0

def begin (profile : Nat) : SceneSessionReset := { profile, retired := false }

def observe_empty (answer : EmptyPairCancel) (pair : Snapshot) : SceneSessionReset :=
  if s.holding && answer == .cancelled && empty pair then { s with retired := true } else s

def ready (public_ready : Bool) (pair : Snapshot) : Bool :=
  s.holding && s.retired && public_ready && empty pair

end SceneSessionReset

/-- The pair that the observer published last, as an expectation of its allocation. -/
structure AllocationEvidence where
  owner : ManagerToken := {}
  ids : OwnedIds := fun _ => 0

inductive Decision
  | wait | close | ready | refused
deriving DecidableEq

structure RetainedProfileTransition where
  id : Nat := 0
  owner : ManagerToken := {}
  ids : OwnedIds := fun _ => 0
  awaits : Bool := false
  state : Decision := .wait

namespace RetainedProfileTransition

variable (s : RetainedProfileTransition)

def session_changed (pair : Snapshot) (started current : Nat) : Bool :=
  any_owned pair.owned_ids && started != current

def valid_pair (pair : Snapshot) : Bool :=
  pair.state == .active && pair.owner.valid && distinct_owned pair.owned_ids && !pair.request_pending &&
    !pair.creation_pending && pair.failure == .none && pair.blocked == .none

def begin (id : Nat) (pair : Snapshot) : RetainedProfileTransition :=
  { id
    owner := pair.owner
    ids := pair.owned_ids
    state :=
      if id == 0 || pair.request_pending || pair.creation_pending then .refused
      else if !any_owned pair.owned_ids then .ready
      else if !valid_pair pair then .refused
      else .wait }

def defer_pair (id : Nat) : RetainedProfileTransition :=
  { id, awaits := id != 0, state := if id = 0 then .refused else .wait }

def begin_published (id : Nat) (pair : Snapshot) (evidence : AllocationEvidence) :
    RetainedProfileTransition :=
  if id != 0 && valid_pair pair &&
      !(evidence.owner == pair.owner && same_ids evidence.ids pair.owned_ids) then defer_pair id
  else begin id pair

def holding : Bool := s.id != 0
def awaiting_pair : Bool := s.holding && s.awaits
def ready : Bool := s.holding && s.state == .ready
def failed : Bool := s.holding && s.state == .refused

def can_resume (pair : Snapshot) : Bool :=
  s.ready && valid_pair pair && pair.owner == s.owner && same_ids pair.owned_ids s.ids

def consume : RetainedProfileTransition := { s with id := 0, awaits := false }

end RetainedProfileTransition

/-! ## What is told -/

/-- What ends a request: a stop, or the two changes that a thread asks for, or the flight change
that the observer begins. -/
inductive Ending
  | stop | profile_transition | session_reset | flight_change
deriving DecidableEq

inductive Event
  | started (revision : Nat) (retained : Bool)
  | ended (by_what : Ending)
  | retried (revision : Nat)
  | resumed (revision : Nat)
  | withdrawn (revision : Nat)
  | committed (revision : Nat)
  | began
  | attempted
  | snapshot (renderer : Nat) (pool : ViewPoolSnapshot)
  | cleared (renderer view : Nat)
  | created (renderer required : Nat) (id : EntryId)
  | recorded (renderer view : Nat)
  | handed (renderer view : Nat)
deriving DecidableEq

/-! ## What is read -/

/-- A manager that passed its inspection. -/
structure ManagerIdentity where
  renderer : Nat
  token : ManagerToken
  valid : token.valid = true
  rendered : renderer ≠ 0

/-- Where an update goes that holds neither a reset nor a transition. -/
inductive Route
  | idle | parked | inspected
deriving DecidableEq

/-- What one step of the observer reads. `met` is another call in the controller at that moment,
`throws` an exception; `revoked` says that the work was forbidden before a callback came to its end. -/
structure Sight where
  now : Nat := 0
  throws : Bool := false
  met : Bool := false
  route : Route := .idle
  feeds : Nat := 2
  manager : Option ManagerIdentity := none
  temporary : Bool := false
  detail : String := ""
  pool : ViewPoolSnapshot := {}
  pool_again : ViewPoolSnapshot := {}
  cleared_aa : Bool := false
  pose : Bool := false
  pose_busy : Bool := false
  revoked : Bool := false
  descriptor : DescriptorStorage := fun _ => 0
  /-- What the native create returns, the view of the entry where it is complete and ready, and
  whether the closed view passed the checks that follow. -/
  id : EntryId := 0
  view : Option Nat := none
  validated : Bool := false
  /-- Whether the entry is there, where the inspection of the entries is complete. -/
  found : Option Bool := none
  /-- A closed gate on an earlier update, and a mount that is back. -/
  may_erase : Bool := false
  address : Nat := 0
  absent : Bool := false
  /-- What an inspection of the retained views decided. -/
  decision : Decision := .wait
  resolution_changed : Bool := false
  restored : Bool := false
  checks_session : Bool := false
  lost : Option SceneStopReason := none

/-! ## The runtime -/

/-- What an update carries from step to step. -/
structure Update where
  before : Snapshot := {}
  readiness : Readiness := {}
  session_hold : Bool := false
  profile_hold : Bool := false
  requested_start : Bool := false
  start_revision : Nat := 0
  pair : Snapshot := {}

/-- Which of the updates of the controller is under way. -/
inductive Pass
  | first | second | removal | reset
deriving DecidableEq

/-- How far the observer is; `away` between two updates. -/
inductive Point
  | away
  | begun (u : Update)
  | sampled (u : Update)
  | resetting (u : Update)
  | retiring (u : Update)
  | draining (u : Update)
  | drained (u : Update) (answer : EmptyPairCancel) (retired : Bool)
  | transitioning (u : Update)
  | transitioned (u : Update) (transition : RetainedProfileTransition) (token : UInt64)
      (start_revision : Nat) (resume_requested : Bool)
  | refused (u : Update) (temporary : Bool)
  | consuming (u : Update) (temporary : Bool)
  | entering (u : Update)
  | processing (u : Update) (pass : Pass)
  | waiting (u : Update)
  | retrying (u : Update)
  | checking (u : Update)
  | committing (u : Update)
  | creating (u : Update)
  | failing (u : Update)
  | deferring (u : Update) (waits_for_pool : Bool)
  | stopping (u : Update)
  | settled (u : Update)
  | losing (u : Update) (reason : SceneStopReason)
  | removing (u : Update)
  | clearing (u : Update)
  | publishing (u : Update)

structure Runtime where
  requested_start : Bool := false
  requested_start_revision : Nat := 0
  retained_restart_requested : Bool := false
  recovery : SceneRecovery := {}
  stop_detail : String := ""
  session_reset : SceneSessionReset := {}
  session_reset_failed : Bool := false
  profile_transition : RetainedProfileTransition := {}
  profile_transition_token : UInt64 := 0
  flight_change_hold : Bool := false
  kept_resize_refused : Bool := false
  kept_resize_token : UInt64 := 0
  requested_profile : Nat := 1
  aircraft_profile : Nat := 1
  published_allocation : AllocationEvidence := {}
  hooked : Bool := false
  enabled : Bool := false
  suspended : Bool := false
  reset_requested : Bool := false
  scene_session_epoch : Nat := 0
  readiness : Readiness := {}
  pair : PairController := {}
  creation_wait : ViewCreationWait := {}
  creations : Nat := 0
  creation_valid : Bool := false
  creation_pool_deferred : Bool := false
  creation_pose_unavailable : Bool := false
  creation_revision : Nat := 0
  /-- The guards of `create` passed, for so many views: its native call is next. -/
  calling : Option Nat := none
  token : ManagerToken := {}
  renderer : Nat := 0
  feeds : Nat := 2
  retired_views : RetiredViewPool := {}
  retirement_waiting : Bool := false
  owned_pool_views : View → Nat := fun _ => 0
  owned_pool_renderer : Nat := 0
  point : Point := .away
  history : List Event := []

namespace Runtime

variable (s : Runtime)

def tell (e : Event) : Runtime := { s with history := s.history ++ [e] }

def session_work_allowed : Bool :=
  SceneSessionReset.work_allowed s.reset_requested s.scene_session_epoch s.readiness

/-- A whole cancellation: its answer is `busy` where another call is in the controller. -/
def cancel_uncreated_request : Runtime × EmptyPairCancel :=
  if s.pair.processing then ({ s with pair := s.pair.cancel_uncreated_request }, .busy)
  else
    ({ s with pair := (s.pair.cancel_uncreated_request.resume {}).resume {} },
      if s.pair.has_owned_ids || s.pair.owner != {} then .owned else .cancelled)

def record_stop (reason : SceneStopReason) (detail : String) (now : Nat)
    (expected_start_revision : Option Nat) : Runtime :=
  let stopped := SceneRecovery.Runtime.record_stop
    ⟨s.recovery, s.stop_detail, s.requested_start_revision⟩ reason detail now expected_start_revision
  { s with recovery := stopped.recovery, stop_detail := stopped.stop_detail }

/-! ## Resets and transitions -/

/-- What a stop, a transition and a reset have in common: no start is asked for any more. -/
def end_request (by_what : Ending) : Runtime :=
  { s with
    requested_start := false
    requested_start_revision := s.requested_start_revision + 1
    retained_restart_requested := false
    recovery := s.recovery.stop }.tell (.ended by_what)

def begin_session_reset (profile : Nat) : Runtime :=
  let ended := { s with
    flight_change_hold := false
    reset_requested := true
    suspended := true
    requested_profile := profile
    profile_transition := s.profile_transition.consume
    session_reset := SceneSessionReset.begin profile }.end_request .session_reset
  let cancelled := ended.cancel_uncreated_request
  let reset := cancelled.1
  let session_reset := if reset.hooked && reset.enabled then reset.session_reset
    else reset.session_reset.observe_empty cancelled.2 reset.pair.snapshot
  if s.profile_transition_token = UInt64.ofNat (UInt64.size - 1) then
    { reset with session_reset, session_reset_failed := true }
  else { reset with session_reset, profile_transition_token := s.profile_transition_token + 1 }

/-- The transition of a pair that is kept, or that is still in the hands of the controller. -/
def begin_transition (id : Nat) : Runtime :=
  let cancelled := s.cancel_uncreated_request
  { cancelled.1 with
    profile_transition :=
      if cancelled.2 = .busy then RetainedProfileTransition.defer_pair id
      else RetainedProfileTransition.begin_published id cancelled.1.pair.snapshot s.published_allocation
    profile_transition_token := s.profile_transition_token + 1 }

def begin_flight_change : Runtime :=
  let owned := any_owned s.pair.snapshot.owned_ids
  let profile := s.requested_profile
  if owned && profile == s.aircraft_profile && s.profile_transition.holding &&
      s.profile_transition.id == profile && !s.profile_transition.failed then
    { s with flight_change_hold := true }
  else if !owned || profile != s.aircraft_profile || s.profile_transition.holding ||
      s.profile_transition_token = UInt64.ofNat (UInt64.size - 1) then s.begin_session_reset profile
  else
    { ({ s with suspended := true }.end_request .flight_change).begin_transition profile with
      flight_change_hold := true }

/-! ## The requests of the other threads -/

/-- The part under the mutex of a request that got so far. -/
def request_scene_test : Runtime :=
  let pair := s.pair.snapshot
  if !s.readiness.ready || s.session_reset_failed ||
      (s.session_reset.holding && !s.session_reset.ready s.readiness.ready pair) then s
  else
    let allowed := { s with
      reset_requested := false
      session_reset := if s.session_reset.holding then {} else s.session_reset }
    let retained := s.profile_transition.can_resume pair
    if s.profile_transition.holding && any_owned pair.owned_ids && !retained then allowed
    else
      let begun := if retained then
          { allowed with retained_restart_requested := true, flight_change_hold := false }
        else { allowed with
          pair := s.pair.request_disable
          profile_transition := s.profile_transition.consume }
      { begun with
        scene_session_epoch := s.readiness.epoch
        recovery := s.recovery.start
        stop_detail := ""
        requested_start := !retained
        requested_start_revision := s.requested_start_revision + 1
        enabled := true }.tell (.started (s.requested_start_revision + 1) retained)

def request_scene_stop : Runtime :=
  let stopped := { s with stop_detail := "Explicit camera OFF/Stop requested." }.end_request .stop
  if !s.session_reset.holding &&
      (!s.profile_transition.holding || !any_owned s.pair.snapshot.owned_ids) then
    { stopped with
      profile_transition := s.profile_transition.consume
      pair := s.pair.request_disable }
  else stopped

def request_scene_profile_transition (id : Nat) : Runtime :=
  if id = 0 || s.profile_transition_token = UInt64.ofNat (UInt64.size - 1) then s
  else if s.session_reset.holding then s.begin_session_reset id
  else
    ({ s with suspended := true, requested_profile := id }.end_request .profile_transition).begin_transition id

def request_scene_session_reset (id : Nat) : Runtime :=
  if id = 0 || s.profile_transition_token = UInt64.ofNat (UInt64.size - 1) then s
  else s.begin_session_reset id

def request_scene_profile (id : Nat) : Runtime :=
  let pair := s.pair.snapshot
  if id = 0 || any_owned pair.owned_ids || pair.creation_pending then s
  else { s with requested_profile := id }

def suspend_scene_rendering (suspended : Bool) : Runtime :=
  { s with suspended := suspended || !s.session_work_allowed }

/-! ## The pool and the ledger -/

/-- An inspection for a creation, and what it takes out of the ledger. -/
def creation_pool (pool : ViewPoolSnapshot) : Runtime :=
  let observed := s.retired_views.observe s.renderer pool
  { s with
    retired_views := observed.1
    retirement_waiting := !pool.valid || !observed.2
    history := s.history ++ .snapshot s.renderer pool ::
      (s.retired_views.released s.renderer pool).map (.cleared s.renderer) }

/-- A flag that was handed back changes the pool: it is read again. -/
def creation_capacity (required : Nat) (sight : Sight) : Runtime × Bool :=
  let first := s.creation_pool sight.pool
  let again := sight.pool.valid && !first.retirement_waiting && sight.cleared_aa
  let last := if again then first.creation_pool sight.pool_again else first
  let pool := if again then sight.pool_again else sight.pool
  if !last.retirement_waiting && pool.creation_available required then (last, true)
  else ({ last with retirement_waiting := true }, false)

/-- The manager of the update, where it passes its inspection. -/
def manager_context (manager : ManagerIdentity) : Runtime :=
  { s with renderer := manager.renderer, token := manager.token }

/-- The ledger takes a recorded view where it can. -/
def transfer (index : View) : Runtime :=
  let retained := s.retired_views.retain s.owned_pool_renderer (s.owned_pool_views index)
  if s.owned_pool_views index != 0 && retained.2 then
    { s with
      retired_views := retained.1
      owned_pool_views := Function.update s.owned_pool_views index 0 }
  else s

def clear_retired_pair : Runtime := (List.finRange kMaxOwnedViews).foldl transfer s

/-! ## The callbacks of the controller -/

/-- The pool makes the creation wait, at the revision of its request. -/
def defer_creation : Runtime :=
  { s with
    creation_valid := false
    creation_pool_deferred := true
    creation_wait := ViewCreationWait.defer s.creation_revision }

def required_feeds : Nat := max 2 s.feeds

def first_initialize (sight : Sight) : Runtime :=
  let capacity := { s with creation_pose_unavailable := false }.creation_capacity s.required_feeds sight
  if !capacity.2 then capacity.1.defer_creation
  else { capacity.1 with
    creation_valid := sight.pose
    creation_pose_unavailable := !sight.pose && sight.pose_busy }

def initializer (sight : Sight) : Runtime × Option DescriptorStorage :=
  if !s.session_work_allowed then
    ({ s with creation_valid := false, creation_pose_unavailable := true }, none)
  else
    let begun := if s.creations = 0 then s.first_initialize sight else s
    (begun, if begun.creation_valid && !sight.revoked then some sight.descriptor else none)

/-- The guards of `create`, each before the native call. -/
def guard_create (manager : ManagerToken) (sight : Sight) : Runtime × Bool :=
  if kMaxOwnedViews ≤ s.creations then ({ s with creation_valid := false }, false)
  else if !s.session_work_allowed || !s.creation_valid then (s, false)
  else match sight.manager with
    | none => (s, false)
    | some identity =>
      let inspected := s.manager_context identity
      if identity.token != manager then (inspected, false)
      else
        let required := if s.creations = 0 then s.required_feeds else 1
        let capacity := inspected.creation_capacity required sight
        if !capacity.2 then (capacity.1.defer_creation, false)
        else if sight.revoked then ({ capacity.1 with creation_valid := false }, false)
        else ({ capacity.1 with calling := some required }, true)

/-- The view of the new entry is recorded where its entry is complete and ready. -/
def record_view (sight : Sight) : Runtime :=
  match sight.view with
  | none => { s with creation_valid := false }
  | some view =>
    { s with
      owned_pool_renderer := s.renderer
      owned_pool_views := fun k => if k.val + 1 = s.creations then view else s.owned_pool_views k
      creation_valid := sight.validated }.tell (.recorded s.renderer view)

def native_create (required : Nat) (sight : Sight) : Runtime :=
  let called := { s with calling := none }.tell (.created s.renderer required sight.id)
  if sight.id = 0 then called else { called with creations := s.creations + 1 }.record_view sight

def erase_allowed (sight : Sight) : Bool :=
  sight.may_erase && !s.readiness.loading && (!s.reset_requested || s.readiness.ready)

/-- The ledger has the view before its entry is erased. -/
def erase (manager : ManagerToken) (sight : Sight) : Runtime × Bool :=
  match sight.manager with
  | none => (s, false)
  | some identity =>
    let inspected := s.manager_context identity
    if identity.token != manager then (inspected, false)
    else match sight.found with
      | none => (inspected, false)
      | some false => (inspected, true)
      | some true =>
        let retained := s.retired_views.retain identity.renderer sight.address
        if !s.erase_allowed sight || !retained.2 then (inspected, false)
        else ({ inspected with retired_views := retained.1 }.tell
          (.handed identity.renderer sight.address), sight.absent)

/-- The next step of the update of the controller that is under way. -/
def turn (sight : Sight) : Runtime :=
  let go (s : Runtime) (answer : Answer) : Runtime := { s with pair := s.pair.resume answer }
  match s.pair.phase with
  | .starting _ =>
    go (if s.pair.desired_enabled && s.pair.creation_pending then s.tell .attempted else s) {}
  | .preparing _ _ =>
    let prepared := s.initializer sight
    go prepared.1 { initializer := prepared.2 }
  | .creating manager _ _ =>
    match s.calling with
    | some required => go (s.native_create required sight) { create := sight.id }
    | none =>
      let guarded := s.guard_create manager sight
      if guarded.2 then guarded.1 else go guarded.1 { create := 0 }
  | .erasing (index :: _) _ =>
    if s.pair.ids index = 0 then go s {}
    else
      let erased := s.erase s.pair.owner sight
      go erased.1 { erase := erased.2 }
  | _ => go s {}

/-! ## The observer -/

def go_to (point : Point) : Runtime := { s with point }

/-- An update of the controller begins, or meets another call and is over at once. -/
def process_update (u : Update) (pass : Pass) (sight : Sight) : Runtime :=
  if sight.met then s.go_to (.processing u pass)
  else { s with pair := s.pair.process_update s.token {} }.tell .began |>.go_to (.processing u pass)

/-- A cancellation without the mutex, which can meet another. -/
def cancel_outside (sight : Sight) : Runtime × EmptyPairCancel :=
  if sight.met then ({ s with pair := s.pair.tell (.cancel_answered .busy) }, .busy)
  else s.cancel_uncreated_request

/-- A guard outside the lifecycle looks at the manager where it can. -/
def look (manager : Option ManagerIdentity) : Runtime :=
  match manager with
  | none => s
  | some identity => s.manager_context identity

def adopt_profile (u : Update) : Runtime :=
  if any_owned u.before.owned_ids || u.before.creation_pending then s
  else { s with aircraft_profile := s.requested_profile }

/-- A refusal that was recorded for an earlier transition decides no newer one. -/
def forget_refusal : Runtime :=
  if s.kept_resize_refused && s.kept_resize_token != s.profile_transition_token then
    { s with kept_resize_refused := false }
  else s

/-- The kept pair could not be validated or resized: the full reset retires it. -/
def fall_back : Runtime :=
  if (s.flight_change_hold || s.kept_resize_refused) && s.profile_transition.failed then
    { s with kept_resize_refused := false }.begin_session_reset s.requested_profile
  else s

def follow_flight (u : Update) : Runtime :=
  if !s.session_reset.holding && !s.flight_change_hold && (u.readiness.loading ||
      RetainedProfileTransition.session_changed u.before s.scene_session_epoch u.readiness.epoch) then
    s.begin_flight_change
  else s

/-- The first block under the mutex of an update. -/
def sample (u : Update) : Runtime :=
  let ready := ((s.adopt_profile u).forget_refusal.fall_back).follow_flight u
  ready.go_to (.sampled { u with
    session_hold := ready.session_reset.holding
    profile_hold := ready.profile_transition.holding &&
      (any_owned u.before.owned_ids || ready.profile_transition.awaiting_pair)
    requested_start := ready.requested_start
    start_revision := ready.requested_start_revision })

/-- Where the update goes with what it sampled. -/
def choose (u : Update) (sight : Sight) : Runtime :=
  let scheduled := { s with feeds := sight.feeds }
  if sight.route = .idle then scheduled.go_to .away
  else if u.session_hold then scheduled.go_to (.resetting u)
  else if u.profile_hold then scheduled.go_to (.transitioning u)
  else if !u.readiness.ready || sight.route = .parked then
    (scheduled.look sight.manager).go_to (.publishing { u with pair := s.pair.snapshot })
  else match sight.manager with
    | none => scheduled.go_to (.refused u sight.temporary)
    | some identity => (scheduled.manager_context identity).go_to (.entering u)

/-- A reset retires an owned pair, where its manager is the one at hand. -/
def service_reset (u : Update) (sight : Sight) : Runtime :=
  let cancelled := s.cancel_outside sight
  match sight.manager with
  | none => cancelled.1.go_to (.draining u)
  | some identity =>
    if cancelled.2 != .owned then cancelled.1.go_to (.draining u)
    else
      let inspected := cancelled.1.manager_context identity
      if identity.token != inspected.pair.snapshot.owner then inspected.go_to (.draining u)
      else inspected.go_to (.retiring u)

/-- The pair is gone where the cancellation says so and the published pair too. -/
def clear_drained (answer : EmptyPairCancel) : Runtime :=
  if answer == .cancelled && SceneSessionReset.empty s.pair.snapshot then s.clear_retired_pair else s

def drain (u : Update) (sight : Sight) : Runtime :=
  let drained := s.cancel_outside sight
  let u := { u with pair := drained.1.pair.snapshot }
  let cleared := drained.1.clear_drained drained.2
  if !cleared.retired_views.pending then cleared.go_to (.drained u drained.2 true)
  else match sight.manager with
    | none => cleared.go_to (.drained u drained.2 false)
    | some identity =>
      let pooled := (cleared.manager_context identity).creation_pool sight.pool
      pooled.go_to (.drained u drained.2 (sight.pool.valid && !pooled.retirement_waiting))

/-- The pair of a transition is waited for, or its transition is inspected. -/
def service_transition (u : Update) : Runtime :=
  if !s.profile_transition.holding then s.go_to (.publishing { u with pair := s.pair.snapshot })
  else if s.profile_transition.awaiting_pair then
    let cancelled := s.cancel_uncreated_request
    let u := { u with pair := cancelled.1.pair.snapshot }
    if cancelled.2 = .busy then cancelled.1.go_to (.publishing u)
    else
      let begun := { cancelled.1 with
        profile_transition := RetainedProfileTransition.begin_published s.profile_transition.id u.pair
          s.published_allocation }
      if begun.profile_transition.awaiting_pair || cancelled.2 = .cancelled then
        begun.go_to (.publishing u)
      else begun.go_to (.transitioned u begun.profile_transition begun.profile_transition_token
        begun.requested_start_revision begun.retained_restart_requested)
  else s.go_to (.transitioned { u with pair := s.pair.snapshot } s.profile_transition
    s.profile_transition_token s.requested_start_revision s.retained_restart_requested)

/-- What the inspection of a transition came to, where it was made. -/
def inspected (transition : RetainedProfileTransition) (sight : Sight) : RetainedProfileTransition :=
  if sight.manager.isNone || transition.failed then transition
  else { transition with state := sight.decision }

/-- A kept pair that was asked back, and that has its pose, resumes in the flight at hand. -/
def resume_kept (ready : Bool) (start_revision : Nat) : Runtime :=
  if ready && s.retained_restart_requested && start_revision = s.requested_start_revision &&
      s.recovery.requested && s.session_work_allowed then
    { s with
      profile_transition := s.profile_transition.consume
      retained_restart_requested := false
      scene_session_epoch := s.readiness.epoch }
  else s

/-- The last block of a transition: what was inspected counts where it is still the same one. -/
def settle_transition (u : Update) (transition : RetainedProfileTransition) (token : UInt64)
    (start_revision : Nat) (resume_requested : Bool) (sight : Sight) : Runtime :=
  let looked := s.look sight.manager
  if token != s.profile_transition_token then looked.go_to (.publishing u)
  else
    let now := inspected transition sight
    let kept := { looked with
      profile_transition := now
      kept_resize_refused := s.kept_resize_refused || (resume_requested && now.failed)
      kept_resize_token := if resume_requested && now.failed then token else s.kept_resize_token
      aircraft_profile := if now.ready then s.requested_profile else s.aircraft_profile }
    (kept.resume_kept (now.ready && resume_requested && sight.pose) start_revision).go_to (.publishing u)

/-- A start that was sampled is consumed: only the recovery may create after this. -/
def withdraw (u : Update) (temporary : Bool) : Runtime :=
  let consumed := if u.requested_start && s.requested_start && s.requested_start_revision = u.start_revision then
      { s with
        requested_start := false
        requested_start_revision := s.requested_start_revision + 1 }.tell (.withdrawn u.start_revision)
    else s
  let asked := if temporary then { consumed with pair := consumed.pair.request_disable } else consumed
  asked.go_to (.publishing { u with pair := asked.pair.snapshot })

def enter (u : Update) (sight : Sight) : Runtime :=
  { s with
    creations := 0
    creation_pose_unavailable := false
    creation_pool_deferred := false
    creation_revision := u.start_revision
    creation_valid := sight.validated }.process_update u .first sight

/-- A creation that waited for the pool is asked for again, at its own revision. -/
def resume_creation (u : Update) : Runtime :=
  if !s.creation_wait.pending then s.go_to (.retrying u)
  else if s.requested_start_revision != s.creation_wait.revision || !s.recovery.requested then
    { s with creation_wait := { s.creation_wait with pending := false } }.go_to (.retrying u)
  else if s.suspended || !s.session_work_allowed then s.go_to (.retrying u)
  else
    let cancelled := s.cancel_uncreated_request
    if cancelled.2 != .cancelled then cancelled.1.go_to (.retrying u)
    else
      { cancelled.1 with
        creation_wait := { s.creation_wait with pending := false }
        requested_start := true }.tell (.resumed s.requested_start_revision) |>.go_to
        (.retrying { u with requested_start := true, pair := cancelled.1.pair.snapshot })

def retry (u : Update) (sight : Sight) : Runtime :=
  if u.requested_start || any_owned u.pair.owned_ids then s.go_to (.checking u)
  else
    let retried := s.recovery.retry sight.now u.pair sight.pose
    if !s.requested_start && s.requested_start_revision = u.start_revision && !s.suspended &&
        s.session_work_allowed && retried.2 then
      { s with
        recovery := retried.1
        requested_start := true
        requested_start_revision := s.requested_start_revision + 1 }.tell
        (.retried (s.requested_start_revision + 1)) |>.go_to
        (.checking { u with requested_start := true, start_revision := s.requested_start_revision + 1 })
    else s.go_to (.checking u)

def check (u : Update) (sight : Sight) : Runtime :=
  if !u.requested_start || any_owned u.pair.owned_ids then s.go_to (.settled u)
  else
    let capacity := s.creation_capacity s.required_feeds sight
    capacity.1.go_to (if capacity.2 && sight.pose then .committing u else .settled u)

/-- A stop and a new start share this block: a slow calibration does not bring back what was
cancelled. -/
def commit (u : Update) : Runtime :=
  if s.requested_start && s.requested_start_revision = u.start_revision && !s.suspended &&
      s.session_work_allowed then
    { s with
      creation_revision := u.start_revision
      pair := s.pair.request_independent_pose s.feeds
      requested_start := false }.tell (.committed u.start_revision) |>.go_to (.creating u)
  else s.go_to (.settled u)

/-- After the update that was to create: the pool may make it wait. -/
def fail (u : Update) (sight : Sight) : Runtime :=
  if u.pair.state = .active then s.go_to (.settled u)
  else if s.creation_pool_deferred then
    let disabled := { s with pair := s.pair.request_disable }
    let cancelled := disabled.cancel_outside sight
    cancelled.1.go_to (.deferring { u with pair := cancelled.1.pair.snapshot } true)
  else s.go_to (.deferring u false)

def defer_failure (u : Update) (waits_for_pool : Bool) (sight : Sight) : Runtime :=
  if waits_for_pool then { s with stop_detail := sight.detail }.go_to (.settled u)
  else
    let deferred := SceneRecovery.defer_initial_pose_failure s.pair s.token s.recovery
      s.creation_pose_unavailable s.creations u.start_revision s.requested_start_revision sight.now
    let told := { s with pair := deferred.1, recovery := deferred.2.1 }
    if deferred.2.2 then
      { told with stop_detail := sight.detail }.go_to (.settled { u with pair := deferred.1.snapshot })
    else told.go_to (.stopping u)

/-- A pair that is kept through a change of its resolution. -/
def keep_resolution (sight : Sight) : Runtime :=
  let paused := if sight.resolution_changed then
      s.record_stop .resolution_changed sight.detail sight.now none
    else s
  if sight.restored then
    { paused with recovery := paused.recovery.resumed_retained_resolution, stop_detail := "" }
  else paused

/-- An active pair is kept, or lost for a reason; a change of the flight is looked for first where
the branch does so. -/
def settle (u : Update) (sight : Sight) : Runtime :=
  if u.pair.state != .active then s.go_to (.clearing u)
  else match sight.lost with
  | none => (s.keep_resolution sight).go_to (.clearing u)
  | some reason =>
    if !sight.checks_session then s.go_to (.losing u reason)
    else if s.session_reset.holding || s.flight_change_hold then s.go_to (.clearing u)
    else if !s.readiness.loading &&
        !RetainedProfileTransition.session_changed u.pair s.scene_session_epoch s.readiness.epoch then
      s.go_to (.losing u reason)
    else s.begin_flight_change.go_to (.clearing u)

/-- What follows an update of the controller. -/
def finish_pass (u : Update) (pass : Pass) : Runtime :=
  let u := { u with pair := s.pair.snapshot }
  s.go_to <| match pass with
    | .first => .waiting u
    | .second => .failing u
    | .removal => .clearing u
    | .reset => .draining u

def clear (u : Update) : Runtime :=
  (if any_owned u.pair.owned_ids then s else s.clear_retired_pair).go_to (.publishing u)

def publish (u : Update) : Runtime :=
  { s with published_allocation := ⟨u.pair.owner, u.pair.owned_ids⟩ }.go_to .away

/-- An exception ends the update. -/
def thrown (sight : Sight) : Runtime :=
  { s with pair := s.pair.request_disable }.record_stop .exception sight.detail sight.now none |>.go_to .away

/-- Whether the observer is in the hands of the controller, which does not throw. -/
def in_controller : Bool := match s.point with
  | .away | .processing _ _ => true
  | _ => false

def observe (sight : Sight) : Runtime :=
  if sight.throws && !s.in_controller then s.thrown sight
  else match s.point with
  | .away => if s.enabled then s.go_to (.begun { before := s.pair.snapshot, readiness := s.readiness }) else s
  | .begun u => s.sample u
  | .sampled u => s.choose u sight
  | .resetting u => s.service_reset u sight
  | .retiring u => { s with pair := s.pair.request_disable }.process_update u .reset sight
  | .draining u => s.drain u sight
  | .drained u answer retired =>
    { s with
      session_reset :=
        if retired then s.session_reset.observe_empty answer u.pair else s.session_reset }.go_to (.publishing u)
  | .transitioning u => s.service_transition u
  | .transitioned u transition token start_revision resume_requested =>
    s.settle_transition u transition token start_revision resume_requested sight
  | .refused u temporary =>
    (s.record_stop (if temporary then .inspection_unavailable else .identity_refused) sight.detail
      sight.now (some u.start_revision)).go_to (.consuming u temporary)
  | .consuming u temporary => s.withdraw u temporary
  | .entering u => s.enter u sight
  | .processing u pass => if s.pair.processing then s.turn sight else s.finish_pass u pass
  | .waiting u => s.resume_creation u
  | .retrying u => s.retry u sight
  | .checking u => s.check u sight
  | .committing u => s.commit u
  | .creating u => s.process_update u .second sight
  | .failing u => s.fail u sight
  | .deferring u waits_for_pool => s.defer_failure u waits_for_pool sight
  | .stopping u =>
    (s.record_stop .creation_failed sight.detail sight.now (some u.start_revision)).go_to (.settled u)
  | .settled u => s.settle u sight
  | .losing u reason => (s.record_stop reason sight.detail sight.now none).go_to (.removing u)
  | .removing u => { s with pair := s.pair.request_disable }.process_update u .removal sight
  | .clearing u => s.clear u
  | .publishing u => s.publish u

/-! ## Steps -/

inductive Op
  | request_scene_test
  | request_scene_stop
  | request_scene_profile_transition (id : Nat)
  | request_scene_session_reset (id : Nat)
  | request_scene_profile (id : Nat)
  | suspend_scene_rendering (suspended : Bool)
  | note_scene_capture_progress (now : Nat)
  | hook
  | aircraft (readiness : Readiness)
  | observe (sight : Sight)

def step : Op → Runtime
  | .request_scene_test => s.request_scene_test
  | .request_scene_stop => s.request_scene_stop
  | .request_scene_profile_transition id => s.request_scene_profile_transition id
  | .request_scene_session_reset id => s.request_scene_session_reset id
  | .request_scene_profile id => s.request_scene_profile id
  | .suspend_scene_rendering suspended => s.suspend_scene_rendering suspended
  | .note_scene_capture_progress now => { s with recovery := s.recovery.capture_progress now }
  | .hook => { s with hooked := true }
  | .aircraft readiness => { s with readiness }
  | .observe sight => s.observe sight

end Runtime

end taxi_camera.native_camera
