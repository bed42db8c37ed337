-- The controller of the camera entries: a mailbox whose last request wins, and
-- one update at a time that erases and creates the entries of a set.
-- src/camera/entry_pair.cpp. Every thread takes its steps by itself: a call
-- that holds the processing flag goes on with `resume`, and between two of its
-- steps any other call can come, also from inside a callback of the engine.
import TaxiCam.Histories
import TaxiCam.Runs
import Mathlib.Data.List.FinRange

namespace taxi_camera.engine_camera

/-! ## Values -/

abbrev EntryId := Nat

abbrev kMaxOwnedViews : Nat := 4

/-- The place of a view in a set. -/
abbrev View := Fin kMaxOwnedViews

abbrev PoseKey := Vector UInt8 16
abbrev PairKeys := Vector PoseKey kMaxOwnedViews
abbrev OwnedIds := View → EntryId

def any_owned (ids : OwnedIds) : Bool := (List.finRange kMaxOwnedViews).any fun k => ids k != 0

structure ManagerToken where
  identity : Nat := 0
  generation : Nat := 0
deriving DecidableEq

def ManagerToken.valid (manager : ManagerToken) : Bool :=
  manager.identity != 0 && manager.generation != 0

/-- A number of views that a set can have. -/
structure Feeds where
  count : Nat := 2
  some : 1 ≤ count := by omega
  fits : count ≤ 4 := by omega

def clamp_feeds (feeds : Nat) : Feeds :=
  if low : feeds < 1 then { count := 1 }
  else if high : feeds > 4 then { count := 4 }
  else { count := feeds }

/-! ## Descriptors -/

abbrev DescriptorStorage := Fin 256 → UInt8

def zero_dword (descriptor : DescriptorStorage) (offset : Fin 253) : Bool :=
  (List.finRange 4).all fun i => descriptor ⟨offset + i, by omega⟩ == 0

/-- The two names are empty and inline. The mode, its flag and the key are written. -/
def pack_mode_zero (descriptor : DescriptorStorage) (key : PoseKey) : Option DescriptorStorage :=
  if descriptor 0 != 0 || !zero_dword descriptor 32 || descriptor 64 != 0 ||
      !zero_dword descriptor 192 then none
  else some fun i =>
    if 40 ≤ i.val ∧ i.val < 44 then 0
    else if i.val = 44 then 1
    else if h : 48 ≤ i.val ∧ i.val < 64 then key[i.val - 48]
    else descriptor i

def pack_independent_pose (descriptor : DescriptorStorage) : Option DescriptorStorage :=
  (pack_mode_zero descriptor (Vector.replicate 16 0)).map fun packed => Function.update packed 40 2

/-! ## What is published -/

inductive State
  | disabled | active | cleanup_pending | failed | blocked
deriving DecidableEq

inductive Failure
  | none | initializer_failed | initializer_contract | first_create_failed | second_create_failed
  | third_create_failed | fourth_create_failed | duplicate_id | manager_destroyed
deriving DecidableEq

inductive Blocked
  | none | invalid_manager | missing_callbacks | manager_mismatch
deriving DecidableEq

inductive EmptyPairCancel
  | cancelled | busy | owned
deriving DecidableEq

structure Snapshot where
  state : State := .disabled
  failure : Failure := .none
  blocked : Blocked := .none
  owner : ManagerToken := {}
  owned_ids : OwnedIds := fun _ => 0
  request_pending : Bool := false
  creation_pending : Bool := false

def create_failure_for (index : View) : Failure :=
  if index = 0 then .first_create_failed
  else if index = 1 then .second_create_failed
  else if index = 2 then .third_create_failed
  else .fourth_create_failed

/-! ## The engine and the requests -/

/-- Which callbacks an update was given. -/
structure EngineCallbacks where
  initializer : Bool := true
  create : Bool := true
  erase : Bool := true
deriving DecidableEq

/-- What the engine answers to the callback that is made next: the descriptor that the initializer
left where it returned true, the ID that create returned, and whether erase was confirmed. -/
structure Answer where
  initializer : Option DescriptorStorage := none
  create : EntryId := 0
  erase : Bool := false

inductive Command
  | none | enable | disable
deriving DecidableEq

structure Request where
  command : Command := .none
  keys : PairKeys := Vector.replicate 4 (Vector.replicate 16 0)
  independent_pose : Bool := false
  feeds : Nat := 2

/-- What is told of a run: requests that were posted and consumed, cancellations with their answer,
creations that were begun, and the calls of the engine with what they returned. -/
inductive Event
  | requested (enabled : Bool)
  | consumed (enabled : Bool)
  | cancel_answered (answer : EmptyPairCancel)
  | attempted
  | created (manager : ManagerToken) (id : EntryId)
  | erased (owner : ManagerToken) (id : EntryId) (confirmed : Bool)
  | destroyed (owner : ManagerToken)
deriving DecidableEq

/-! ## The controller -/

/-- What follows a cleanup: the creation of the update, or the end of a creation that failed. -/
inductive Cleanup
  | before_creation (manager : ManagerToken)
  | of_failed_creation
deriving DecidableEq

/-- How far the call is that holds the processing flag; `idle` where none does. -/
inductive Phase
  | idle
  | cancelling
  | acknowledging (manager : ManagerToken)
  | forgetting
  | taking (manager : ManagerToken) (engine : EngineCallbacks)
  | deciding (manager : ManagerToken) (engine : EngineCallbacks)
  | erasing (left : List View) (after : Cleanup)
  | starting (manager : ManagerToken)
  | preparing (manager : ManagerToken) (index : View)
  | creating (manager : ManagerToken) (index : View) (descriptor : DescriptorStorage)
  | publishing (state : State) (blocked : Blocked)
  | leaving

structure PairController where
  mailbox : Request := {}
  published : Snapshot := {}
  phase : Phase := .idle
  owner : ManagerToken := {}
  ids : OwnedIds := fun _ => 0
  desired_keys : PairKeys := Vector.replicate 4 (Vector.replicate 16 0)
  owned_keys : PairKeys := Vector.replicate 4 (Vector.replicate 16 0)
  desired_independent_pose : Bool := false
  owned_independent_pose : Bool := false
  desired_feeds : Feeds := {}
  owned_feeds : Nat := 0
  desired_enabled : Bool := false
  creation_pending : Bool := false
  active_pair : Bool := false
  failure : Failure := .none
  history : List Event := []

namespace PairController

variable (s : PairController)

def tell (e : Event) : PairController := { s with history := s.history ++ [e] }

/-- `processing_` is set. -/
def processing : Bool := match s.phase with
  | .idle => false
  | _ => true

/-! ## Requests -/

def request_enable (keys : PairKeys) : PairController :=
  { s with mailbox := { command := .enable, keys } }.tell (.requested true)

def request_independent_pose (feeds : Nat) : PairController :=
  { s with
    mailbox := { command := .enable, independent_pose := true, feeds := (clamp_feeds feeds).count } }.tell
    (.requested true)

def request_disable : PairController :=
  { s with mailbox := { command := .disable } }.tell (.requested false)

def snapshot : Snapshot :=
  { s.published with request_pending := s.mailbox.command != .none }

def has_owned_ids : Bool := any_owned s.ids

def complete_owned_set : Bool :=
  decide (1 ≤ s.owned_feeds) && decide (s.owned_feeds ≤ kMaxOwnedViews) &&
    (List.finRange kMaxOwnedViews).all fun k =>
      if k.val < s.owned_feeds then s.ids k != 0 else s.ids k == 0

/-! ## Calls that take the processing flag -/

def cancel_uncreated_request : PairController :=
  if s.processing then s.tell (.cancel_answered .busy) else { s with phase := .cancelling }

/-- An update under way refuses the other: its answer is false and nothing changes. -/
def process_update (manager : ManagerToken) (engine : EngineCallbacks) : PairController :=
  if s.processing then s else { s with phase := .taking manager engine }

def acknowledge_manager_destroyed (manager : ManagerToken) : PairController :=
  if s.processing then s else { s with phase := .acknowledging manager }

/-- The cancellation, under the mutex of the mailbox. -/
def cancel : PairController :=
  if s.has_owned_ids || s.owner != {} then
    { s with phase := .leaving }.tell (.cancel_answered .owned)
  else
    { s with
      mailbox := {}
      desired_enabled := false
      creation_pending := false
      active_pair := false
      failure := .none
      published := {}
      phase := .leaving }.tell (.cancel_answered .cancelled)

def acknowledge (manager : ManagerToken) : PairController :=
  if !s.has_owned_ids || manager != s.owner then { s with phase := .leaving }
  else
    { s with
      ids := fun _ => 0
      owner := {}
      owned_feeds := 0
      desired_enabled := false
      creation_pending := false
      active_pair := false
      failure := .manager_destroyed
      phase := .forgetting }.tell (.destroyed manager)

def publish (state : State) (blocked : Blocked) : PairController :=
  { s with
    published := {
      state, failure := s.failure, blocked, owner := s.owner, owned_ids := s.ids
      request_pending := false, creation_pending := s.creation_pending }
    phase := .leaving }

/-! ## An update -/

/-- The request that was taken from the mailbox. Re-enabling the active set is idempotent. -/
def apply (request : Request) : PairController :=
  match request.command with
  | .enable =>
    let feeds := clamp_feeds request.feeds
    let same := s.active_pair && s.complete_owned_set && s.owned_feeds == feeds.count &&
      s.owned_keys == request.keys && s.owned_independent_pose == request.independent_pose
    { s with
      desired_keys := request.keys
      desired_independent_pose := request.independent_pose
      desired_feeds := feeds
      desired_enabled := true
      creation_pending := !same
      failure := .none }.tell (.consumed true)
  | .disable =>
    { s with desired_enabled := false, creation_pending := false, failure := .none }.tell (.consumed false)
  | .none => s

def take (manager : ManagerToken) (engine : EngineCallbacks) : PairController :=
  { s with mailbox := {}, phase := .deciding manager engine }.apply s.mailbox

/-- The update ends without the engine: there is no set and none is wanted. -/
def rest : PairController :=
  { s with phase := .publishing (if s.failure = .none then .disabled else .failed) .none }

/-- Views are erased in the reverse of the order they were created in. -/
def begin_cleanup (after : Cleanup) : PairController :=
  { s with active_pair := false, phase := .erasing (List.finRange kMaxOwnedViews).reverse after }

def decide_update (manager : ManagerToken) (engine : EngineCallbacks) : PairController :=
  if !s.has_owned_ids && !s.creation_pending then s.rest
  else if !manager.valid then { s with phase := .publishing .blocked .invalid_manager }
  else if s.has_owned_ids && manager != s.owner then
    { s with phase := .publishing .blocked .manager_mismatch }
  else if !engine.initializer || !engine.create || !engine.erase then
    { s with phase := .publishing .blocked .missing_callbacks }
  else if s.has_owned_ids then
    if s.desired_enabled && s.active_pair && !s.creation_pending && s.failure == .none &&
        s.complete_owned_set then { s with phase := .publishing .active .none }
    else s.begin_cleanup (.before_creation manager)
  else { s with phase := .starting manager }

def end_cleanup (after : Cleanup) : PairController :=
  let cleaned := if s.has_owned_ids then s else { s with owner := {}, owned_feeds := 0 }
  match after with
  | .of_failed_creation =>
    { cleaned with
      phase := .publishing (if s.has_owned_ids then .cleanup_pending else .failed) .none }
  | .before_creation manager =>
    { cleaned with
      phase := if s.has_owned_ids then .publishing .cleanup_pending .none else .starting manager }

/-- One turn of the loop of `cleanup`. An ID stays where its removal is not confirmed. -/
def cleanup (left : List View) (after : Cleanup) (answer : Answer) : PairController :=
  match left with
  | [] => s.end_cleanup after
  | index :: rest =>
    if s.ids index = 0 then { s with phase := .erasing rest after }
    else if answer.erase then
      { s with ids := Function.update s.ids index 0, phase := .erasing rest after }.tell
        (.erased s.owner (s.ids index) true)
    else { s with phase := .erasing rest after }.tell (.erased s.owner (s.ids index) false)

def creation_failed (failure : Failure) : PairController :=
  if s.has_owned_ids then { s with failure }.begin_cleanup .of_failed_creation
  else { s with failure, phase := .publishing .failed .none }

/-- The request is consumed once, before any callback can come back. -/
def start (manager : ManagerToken) : PairController :=
  if !s.desired_enabled || !s.creation_pending then s.rest
  else
    { s with
      creation_pending := false
      ids := fun _ => 0
      owned_feeds := 0
      phase := .preparing manager 0 }.tell .attempted

def prepare (manager : ManagerToken) (index : View) (answer : Answer) : PairController :=
  match answer.initializer with
  | none => s.creation_failed .initializer_failed
  | some descriptor =>
    let packed := if s.desired_independent_pose then pack_independent_pose descriptor
      else pack_mode_zero descriptor s.desired_keys[index]
    match packed with
    | none => s.creation_failed .initializer_contract
    | some descriptor => { s with phase := .creating manager index descriptor }

/-- The next view of the set, or the end of the loop. -/
def advance (manager : ManagerToken) (index : View) : PairController :=
  if more : index.val + 1 < s.desired_feeds.count then
    { s with phase := .preparing manager ⟨index.val + 1, Nat.lt_of_lt_of_le more s.desired_feeds.fits⟩ }
  else
    { s with
      owned_keys := s.desired_keys
      owned_independent_pose := s.desired_independent_pose
      owned_feeds := s.desired_feeds.count
      active_pair := true
      phase := .publishing .active .none }

def create (manager : ManagerToken) (index : View) (answer : Answer) : PairController :=
  let told := s.tell (.created manager answer.create)
  if answer.create = 0 then told.creation_failed (create_failure_for index)
  else if ∃ previous, previous < index ∧ s.ids previous = answer.create then
    told.creation_failed .duplicate_id
  else
    { told with
      owner := if index = 0 then manager else s.owner
      ids := Function.update s.ids index answer.create }.advance manager index

/-! ## Steps -/

/-- The next step of the call that holds the processing flag. -/
def resume (answer : Answer) : PairController :=
  match s.phase with
  | .idle => s
  | .cancelling => s.cancel
  | .acknowledging manager => s.acknowledge manager
  | .forgetting => { s with mailbox := {}, phase := .publishing .failed .none }
  | .taking manager engine => s.take manager engine
  | .deciding manager engine => s.decide_update manager engine
  | .erasing left after => s.cleanup left after answer
  | .starting manager => s.start manager
  | .preparing manager index => s.prepare manager index answer
  | .creating manager index _ => s.create manager index answer
  | .publishing state blocked => s.publish state blocked
  | .leaving => { s with phase := .idle }

inductive Call
  | request_enable (keys : PairKeys)
  | request_independent_pose (feeds : Nat)
  | request_disable
  | cancel_uncreated_request
  | process_update (manager : ManagerToken) (engine : EngineCallbacks)
  | acknowledge_manager_destroyed (manager : ManagerToken)
  | resume (answer : Answer)

def step : Call → PairController
  | .request_enable keys => s.request_enable keys
  | .request_independent_pose feeds => s.request_independent_pose feeds
  | .request_disable => s.request_disable
  | .cancel_uncreated_request => s.cancel_uncreated_request
  | .process_update manager engine => s.process_update manager engine
  | .acknowledge_manager_destroyed manager => s.acknowledge_manager_destroyed manager
  | .resume answer => s.resume answer

end PairController

end taxi_camera.engine_camera
