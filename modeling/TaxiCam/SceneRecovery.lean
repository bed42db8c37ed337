-- The recovery of a scene after its capture stopped: at most three retries on
-- one budget, each some time after its failure. src/camera/scene_recovery.hpp,
-- and `record_stop` of src/camera/probe.cpp. Times are in milliseconds.
import TaxiCam.EntryPair

namespace taxi_camera.native_camera

open engine_camera histories runs

/-! ## Reasons -/

inductive SceneStopReason
  | none | explicit_stop | inspection_unavailable | owned_entry_absent | resolution_changed
  | capture_stalled | identity_refused | pose_invalid | creation_failed | exception
deriving DecidableEq

def retryable_scene_stop (reason : SceneStopReason) : Bool :=
  reason == .inspection_unavailable || reason == .owned_entry_absent

def latched_scene_stop (reason : SceneStopReason) : Bool :=
  reason == .identity_refused || reason == .creation_failed

/-! ## The recovery -/

structure SceneRecovery where
  requested : Bool := false
  pending : Bool := false
  attempts : Nat := 0
  sequence : UInt64 := 0
  stopped_at : Nat := 0
  healthy_since : Nat := 0
  last_progress : Nat := 0
  reason : SceneStopReason := .none

namespace SceneRecovery

def maximum_retries : Nat := 3
def retry_delay_ms : Nat := 2000

variable (s : SceneRecovery)

def start : SceneRecovery :=
  { s with
    requested := true, pending := false, attempts := 0, reason := .none
    healthy_since := 0, last_progress := 0 }

def stop : SceneRecovery :=
  { s with
    requested := false, pending := false, reason := .explicit_stop, sequence := s.sequence + 1 }

/-- A refusal that is latched keeps its reason, and a failure that is pending its deadline. -/
def failed (reason : SceneStopReason) (now : Nat) : SceneRecovery :=
  if latched_scene_stop s.reason && reason != s.reason then s
  else if s.pending && s.reason == reason then s
  else
    { s with
      reason
      stopped_at := now
      healthy_since := 0
      last_progress := 0
      pending := s.requested && retryable_scene_stop reason && decide (s.attempts < maximum_retries)
      sequence := s.sequence + 1 }

/-- No entry is owned, asked for or to be created, and nothing failed. -/
def clean (pair : Snapshot) : Bool :=
  !(any_owned pair.owned_ids || pair.request_pending || pair.creation_pending ||
    pair.state != .disabled || pair.failure != .none || pair.blocked != .none)

def may_retry (now : Nat) (pair : Snapshot) (fresh_pose : Bool) : Bool :=
  s.requested && s.pending && fresh_pose && decide (s.stopped_at ≤ now) &&
    decide (retry_delay_ms ≤ now - s.stopped_at) && clean pair

def retry (now : Nat) (pair : Snapshot) (fresh_pose : Bool) : SceneRecovery × Bool :=
  if s.may_retry now pair fresh_pose then
    ({ s with pending := false, attempts := s.attempts + 1 }, true)
  else (s, false)

def resumed_retained_resolution : SceneRecovery :=
  if s.requested && !s.pending && s.reason == .resolution_changed then
    { s with reason := .none, sequence := s.sequence + 1 }
  else s

def capture_progress (now : Nat) : SceneRecovery :=
  if !s.requested || s.pending || !retryable_scene_stop s.reason then s
  else
    let since := if s.last_progress = 0 ∨ now < s.last_progress ∨ now - s.last_progress > 2000 then now
      else s.healthy_since
    let progressed := { s with healthy_since := since, last_progress := now }
    if since ≤ now ∧ now - since ≥ 10000 then { progressed with attempts := 0, reason := .none }
    else progressed

/-! ## Calls -/

inductive Call
  | start
  | stop
  | failed (reason : SceneStopReason) (now : Nat)
  | retry (now : Nat) (pair : Snapshot) (fresh_pose : Bool)
  | capture_progress (now : Nat)
  | resumed_retained_resolution

def step : Call → SceneRecovery
  | .start => s.start
  | .stop => s.stop
  | .failed reason now => s.failed reason now
  | .retry now pair fresh_pose => (s.retry now pair fresh_pose).1
  | .capture_progress now => s.capture_progress now
  | .resumed_retained_resolution => s.resumed_retained_resolution

def grants : Call → Bool
  | .retry now pair fresh_pose => (s.retry now pair fresh_pose).2
  | _ => false

/-- A call, with what was to be seen of the recovery when it came: the failure that was pending,
and whether the call was a retry that was granted. -/
structure Entry where
  call : Call
  pending : Option SceneStopReason
  granted : Bool

def entry (call : Call) : Entry :=
  ⟨call, if s.pending then some s.reason else none, s.grants call⟩

/-! ## The callers that report a failure -/

/-- What `record_stop` reads and writes of the runtime, under its mutex. -/
structure Runtime where
  recovery : SceneRecovery := {}
  stop_detail : String := ""
  requested_start_revision : Nat := 0

/-- An inspection belongs to the request that it sampled, and a failure that says nothing new is
not reported again. -/
def Runtime.record_stop (runtime : Runtime) (reason : SceneStopReason) (detail : String) (now : Nat)
    (expected_start_revision : Option Nat) : Runtime :=
  if expected_start_revision.any (runtime.requested_start_revision != ·) then runtime
  else if latched_scene_stop runtime.recovery.reason && reason != runtime.recovery.reason then runtime
  else if runtime.recovery.reason == reason && runtime.stop_detail == detail &&
      (runtime.recovery.pending || !retryable_scene_stop reason) then runtime
  else { runtime with recovery := runtime.recovery.failed reason now, stop_detail := detail }

/-- The update of the controller that is made without any callback: it ends in five steps. -/
def process_without_callbacks (controller : PairController) (manager : ManagerToken) : PairController :=
  run PairController.step controller
    (.process_update manager ⟨false, false, false⟩ :: List.replicate 4 (.resume {}))

def defer_initial_pose_failure (controller : PairController) (manager : ManagerToken)
    (recovery : SceneRecovery) (temporary_pose : Bool) (created inspected_revision current_revision
    now : Nat) : PairController × SceneRecovery × Bool :=
  let pair := controller.snapshot
  if !temporary_pose || created != 0 || inspected_revision != current_revision ||
      !recovery.requested || decide (maximum_retries ≤ recovery.attempts) ||
      (recovery.reason != .none && !retryable_scene_stop recovery.reason) ||
      pair.state != .failed || pair.failure != .initializer_failed || pair.blocked != .none ||
      pair.owner != {} || any_owned pair.owned_ids || pair.request_pending || pair.creation_pending then
    (controller, recovery, false)
  else
    let disabled := controller.request_disable
    if disabled.processing then (disabled, recovery, false)
    else
      let updated := process_without_callbacks disabled manager
      if !clean updated.snapshot then (updated, recovery, false)
      else
        let failed := recovery.failed .inspection_unavailable now
        (updated, failed, failed.pending)

end SceneRecovery

end taxi_camera.native_camera
