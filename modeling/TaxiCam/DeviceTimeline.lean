-- The timeline of a device: a fence that orders the receipts of the manager on
-- all queues of the device, and the watchdog that signals it when the
-- submission gate closes. The transaction, private submission and gate parts
-- of src/graphics/scene_capture_manager.cpp.
import TaxiCam.FenceQueues
import TaxiCam.Runs

namespace taxi_camera.SceneCaptureManager

open fence_queues

def MaximumCounter : Nat := 0xfffffffffffffffe

/-- How far the thread of a transaction has come: its Wait is to be queued, or to be published, or
the thread may forward work. -/
inductive Phase | reserved | waited | submitting
deriving DecidableEq

structure Transaction where
  queue : Nat
  value : Nat
  private_work : Bool
  phase : Phase := .reserved
deriving DecidableEq

/-- The locals of `release_queued_waits`, for the slot of the device. -/
inductive Watchdog
  | idle
  | loaded (waited : Nat)
  | signalling (waited : Nat)
deriving DecidableEq

/-- What is told of a value that was reserved. -/
structure Receipt where
  queue : Nat
  private_work : Bool
deriving DecidableEq

/-- The fields of `Device` and of its published timeline. `receipts` are the receipts by their
values, `waits` the values that their Waits are for, and `signals` the values that the watchdog
signalled. -/
structure DeviceTimeline where
  fence : Fence := {}
  last_signal : Nat := 0
  last_simulator_queue : Nat := 0
  last_simulator_signal : Nat := 0
  failed : Bool := false
  transaction : Option Transaction := none
  waited : Nat := 0
  released : Nat := 0
  watchdog : Watchdog := .idle
  receipts : Nat → Option Receipt := fun _ => none
  waits : Nat → Option Nat := fun _ => none
  signals : List Nat := []

namespace DeviceTimeline

def fail_device (s : DeviceTimeline) : DeviceTimeline := { s with failed := true }

/-! ## Receipts -/

def begin_transaction (s : DeviceTimeline) (queue : Nat) (private_work : Bool) : DeviceTimeline :=
  if s.failed || decide (MaximumCounter ≤ s.last_signal) then s.fail_device
  else
    let value := s.last_signal + 1
    { s with
      transaction := some { queue, value, private_work }
      receipts := Function.update s.receipts value (some { queue, private_work }) }

/-- The last simulator receipt came from another queue, and the timeline has not reached it. -/
def cross_queue_unfinished (s : DeviceTimeline) (queue : Nat) : Bool :=
  s.last_simulator_signal != 0 && s.last_simulator_queue != queue &&
    decide (s.fence.completed < s.last_simulator_signal)

/-- An ordered batch of the simulator. `mask` says that it has capture packets. A batch that finds
the receipt of another queue unfinished is forwarded without a receipt. -/
def before_submission (s : DeviceTimeline) (queue : Nat) (mask : Bool) : DeviceTimeline :=
  match s.transaction with
  | some _ => s
  | none =>
    if s.cross_queue_unfinished queue && !mask then s else s.begin_transaction queue false

def begin_private_submission (s : DeviceTimeline) (queue : Nat) : DeviceTimeline :=
  match s.transaction with
  | some _ => s
  | none => s.begin_transaction queue true

/-- `succeeded` is the answer of the Wait, where there is a receipt to wait for. A failed Wait
undoes the reservation. -/
def queue_transaction_wait (s : DeviceTimeline) (succeeded : Bool) : DeviceTimeline :=
  match s.transaction with
  | some t =>
    if t.phase ≠ .reserved then s
    else if s.last_signal = 0 then { s with transaction := some { t with phase := .submitting } }
    else if succeeded then
      { s with
        fence := s.fence.enqueue t.queue (.wait s.last_signal)
        waits := Function.update s.waits t.value (some s.last_signal)
        transaction := some { t with phase := .waited } }
    else { s.fail_device with transaction := none }
  | none => s

def publish_queued_wait (s : DeviceTimeline) : DeviceTimeline :=
  match s.transaction with
  | some t =>
    if t.phase ≠ .waited then s
    else
      { s with
        waited := max s.waited s.last_signal
        transaction := some { t with phase := .submitting } }
  | none => s

/-- Work of the receipt: lists of the application, private work or the tails. -/
def forward (s : DeviceTimeline) : DeviceTimeline :=
  match s.transaction with
  | some t =>
    if t.phase ≠ .submitting then s
    else { s with fence := s.fence.enqueue t.queue (.work t.value) }
  | none => s

/-- `succeeded` is the answer of the Signal. A refused receipt is signalled too. -/
def finish_transaction (s : DeviceTimeline) (succeeded : Bool) : DeviceTimeline :=
  match s.transaction with
  | some t =>
    if t.phase ≠ .submitting then s
    else if !succeeded then { s.fail_device with transaction := none }
    else
      { s with
        fence := s.fence.enqueue t.queue (.signal t.value)
        last_signal := t.value
        last_simulator_queue := if t.private_work then s.last_simulator_queue else t.queue
        last_simulator_signal := if t.private_work then s.last_simulator_signal else t.value
        transaction := none }
  | none => s

/-! ## The gate -/

/-- The gate closes: the watchdog loads the value that was waited for last. -/
def release_queued_waits (s : DeviceTimeline) : DeviceTimeline :=
  match s.watchdog with
  | .idle =>
    if s.waited = 0 ∨ s.waited ≤ s.released then s
    else { s with watchdog := .loaded s.waited }
  | _ => s

def read_completed (s : DeviceTimeline) : DeviceTimeline :=
  match s.watchdog with
  | .loaded waited =>
    if waited ≤ s.fence.completed then { s with released := waited, watchdog := .idle }
    else { s with watchdog := .signalling waited }
  | _ => s

/-- `succeeded` is the answer of the Signal from the CPU. -/
def signal_waited (s : DeviceTimeline) (succeeded : Bool) : DeviceTimeline :=
  match s.watchdog with
  | .signalling waited =>
    if succeeded then
      { s with
        fence := s.fence.signal waited
        released := waited
        signals := s.signals ++ [waited]
        watchdog := .idle }
    else { s with watchdog := .idle }
  | _ => s

/-! ## Runs -/

/-- The threads of the manager, the watchdog and the queues take turns; `fail` is a failure of the
device that comes from elsewhere. -/
inductive Turn
  | before_submission (queue : Nat) (mask : Bool)
  | begin_private_submission (queue : Nat)
  | queue_transaction_wait (succeeded : Bool)
  | publish_queued_wait
  | forward
  | finish_transaction (succeeded : Bool)
  | fail
  | release_queued_waits
  | read_completed
  | signal_waited (succeeded : Bool)
  | advance (queue : Nat)
deriving DecidableEq

def step (s : DeviceTimeline) : Turn → DeviceTimeline
  | .before_submission queue mask => s.before_submission queue mask
  | .begin_private_submission queue => s.begin_private_submission queue
  | .queue_transaction_wait succeeded => s.queue_transaction_wait succeeded
  | .publish_queued_wait => s.publish_queued_wait
  | .forward => s.forward
  | .finish_transaction succeeded => s.finish_transaction succeeded
  | .fail => s.fail_device
  | .release_queued_waits => s.release_queued_waits
  | .read_completed => s.read_completed
  | .signal_waited succeeded => s.signal_waited succeeded
  | .advance queue => { s with fence := s.fence.advance queue }

/-- The queue that owns a value. -/
def owner (s : DeviceTimeline) (value : Nat) : Option Nat := (s.receipts value).map Receipt.queue

end DeviceTimeline

end taxi_camera.SceneCaptureManager
