-- Auto camera mode: the latch that carries a pause to the end of its rate
-- window, and the policy that judges a window once, when it completes.
-- `WindowPauseLatch` and `AutoCameraPolicy` of src/shared/camera_rate_policy.hpp.
-- A rate is an exact rational, or unknown.
import TaxiCam.Runs
import Mathlib.Data.Rat.Floor

namespace taxi_camera

/-! ## The pause latch -/

structure WindowPauseLatch where
  window : Nat := 0
  seen : Bool := false
deriving DecidableEq

/-- The latch after a tick, and what it reports. -/
def WindowPauseLatch.observe (l : WindowPauseLatch) (window : Nat) (paused : Bool) :
    WindowPauseLatch × Bool :=
  let touched := l.seen || paused
  -- The tick that completes a window also starts the next one.
  if window ≠ l.window then ({ window, seen := paused }, touched)
  else ({ l with seen := touched }, touched)

/-! ## The policy -/

namespace AutoCameraPolicy

def kLevels : Nat := 3
def kAllowedLoss : Rat := 1 / 10
def kMinimumFps : Rat := 20
def kStepUpHeadroom : Rat := 103 / 100
def kHoldWindows : Nat := 3
def kForgiveWindows : Nat := 30
def kCooldownMs : Nat := 60000
def kMaximumCooldownMs : Nat := 480000

structure Input where
  now_ms : Nat := 0
  window : Nat := 0
  fps : Option Rat := none
  cameras_active : Bool := false
  paused : Bool := false
  next_helps : Bool := true
deriving DecidableEq

/-- A finite rate above 0. -/
def Input.known (t : Input) : Option Rat := t.fps.filter fun fps => decide (0 < fps)

end AutoCameraPolicy

open AutoCameraPolicy

structure AutoCameraPolicy where
  level : Nat := 0
  held : Nat := 0
  settled : Bool := false
  base_known : Bool := false
  off_settled : Bool := false
  base : Rat := 0
  window : Nat := 0
  failures : Nat → Nat := fun _ => 0
  blocked_until : Nat → Nat := fun _ => 0

namespace AutoCameraPolicy

def floor (p : AutoCameraPolicy) : Rat :=
  max kMinimumFps (if p.base_known then p.base * (1 - kAllowedLoss) else kMinimumFps)

/-- The camera-off rate is never below a measured rate; at the first level it follows it. -/
def rebase (p : AutoCameraPolicy) (fps : Rat) : AutoCameraPolicy :=
  if p.base_known = false ∨ fps > p.base then { p with base := fps, base_known := true }
  else if p.level = 0 then { p with base := 3 / 4 * p.base + 1 / 4 * fps }
  else p

/-- A count of failures in 32 bits, less one and at most 3. -/
def doublings (failures : Nat) : Nat := min ((failures + 0xFFFFFFFF) % 0x100000000) 3

def back_off (p : AutoCameraPolicy) (now_ms : Nat) : AutoCameraPolicy :=
  let failures := (p.failures p.level + 1) % 0x100000000
  let cooldown := min kMaximumCooldownMs (kCooldownMs <<< doublings failures)
  { p with
    failures := Function.update p.failures p.level failures
    blocked_until := Function.update p.blocked_until p.level
      ((now_ms + cooldown) % 0x10000000000000000)
    level := p.level - 1
    settled := false
    held := 0 }

/-- One more window at the level: a level that held long forgets its failures. -/
def hold (p : AutoCameraPolicy) : AutoCameraPolicy :=
  let held := (p.held + 1) % 0x100000000
  { p with
    held
    failures := if held ≥ kForgiveWindows then Function.update p.failures p.level 0 else p.failures }

def step_up (p : AutoCameraPolicy) (t : Input) (fps : Rat) : AutoCameraPolicy :=
  if p.held ≥ kHoldWindows ∧ p.level + 1 < kLevels ∧ t.now_ms ≥ p.blocked_until (p.level + 1) ∧
      t.next_helps = true ∧ fps ≥ p.floor * kStepUpHeadroom then
    { p with level := p.level + 1, settled := false, held := 0 }
  else p

/-- A settled window with the cameras active. -/
def judge (p : AutoCameraPolicy) (t : Input) (fps : Rat) : AutoCameraPolicy :=
  let p := p.rebase fps
  if p.level > 0 ∧ fps < p.floor then p.back_off t.now_ms else p.hold.step_up t fps

/-- A completed window. -/
def complete (p : AutoCameraPolicy) (t : Input) : AutoCameraPolicy :=
  if t.paused then { p with off_settled := false, settled := false, held := 0 }
  else match t.known with
    -- An unknown update rate holds.
    | none => p
    | some fps =>
      if t.cameras_active = false then
        let p := if p.off_settled then { p with base := fps, base_known := true } else p
        { p with off_settled := true, settled := false, held := 0 }
      else
        let p := { p with off_settled := false }
        if p.settled = false then { p with settled := true } else p.judge t fps

def update (p : AutoCameraPolicy) (t : Input) : AutoCameraPolicy :=
  if t.window = p.window then p else { p with window := t.window }.complete t

end AutoCameraPolicy

/-! ## Control ticks -/

/-- The latch and the policy of the control thread. -/
structure AutoCamera where
  latch : WindowPauseLatch := {}
  policy : AutoCameraPolicy := {}

/-- A control tick: its pause goes through the latch. -/
def AutoCamera.tick (s : AutoCamera) (t : Input) : AutoCamera :=
  let seen := s.latch.observe t.window t.paused
  { latch := seen.1, policy := s.policy.update { t with paused := seen.2 } }

end taxi_camera
