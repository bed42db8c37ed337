-- What Auto may do with the camera level: a watch of the control ticks says
-- which windows were paused, which follow a switch, and how long a level has
-- held or failed, and from it what the next tick may change.
import TaxiCam.CameraPolicy

namespace taxi_camera

open AutoCameraPolicy runs
open Function (update_of_ne update_self)

/-! ## The watch -/

/-- What the ticks so far say, with the levels and the floors that were seen. -/
structure Watch where
  /-- The window under way, and whether a tick of it was paused. -/
  window : Nat := 0
  touched : Bool := false
  /-- No window with a known rate has ended with the cameras active since the start, the last
  level change, paused window or window that ended with the cameras off. -/
  fresh : Bool := true
  /-- The judged windows since then, and whether one was below the floor. -/
  judged : Nat := 0
  below : Bool := false
  /-- The times a level was backed off from since it last held, and when it was last. -/
  failed : Nat → Nat := fun _ => 0
  last : Nat → Nat := fun _ => 0

namespace Watch

/-- Since the last change, pause or switch-off there is nothing. -/
def restart (w : Watch) : Watch := { w with fresh := true, judged := 0, below := false }

/-- The failures after one more judged window at `level`. -/
def forget (w : Watch) (level : Nat) : Nat → Nat :=
  if w.judged + 1 ≥ kForgiveWindows then Function.update w.failed level 0 else w.failed

/-- A judged window, that left the level as it is, moved it up, or moved it down. -/
def judge (w : Watch) (t : Input) (fps : Rat) (level level' : Nat) (floor : Rat) : Watch :=
  if level' < level then
    { w.restart with
      failed := Function.update w.failed level (w.failed level + 1)
      last := Function.update w.last level t.now_ms }
  else if level' = level then
    { w with
      judged := w.judged + 1
      below := w.below || decide (fps < floor)
      failed := w.forget level }
  else { w.restart with failed := w.forget level }

/-- The tick `t` took `level` to `level'`; `floor` is the floor after it. -/
def see (w : Watch) (t : Input) (level level' : Nat) (floor : Rat) : Watch :=
  let touched := w.touched || t.paused
  if t.window = w.window then { w with touched }
  else
    let w := { w with window := t.window, touched := t.paused }
    if touched = true ∨ t.cameras_active = false then w.restart
    else match t.known with
      | none => w
      | some fps =>
        if w.fresh then { w with fresh := false } else w.judge t fps level level' floor

/-- What a tick may do with the level. -/
structure Allowed (w : Watch) (t : Input) (level level' : Nat) (floor : Rat) : Prop where
  range : level' < kLevels
  one_step : level' ≤ level + 1 ∧ level ≤ level' + 1
  once : t.window = w.window → level' = level
  paused : (w.touched || t.paused) = true → level' = level
  unjudged : t.cameras_active = false ∨ t.known = none → level' = level
  first : w.fresh = true → level' = level
  raised : level' = level + 1 → kHoldWindows ≤ w.judged + 1 ∧ w.below = false ∧
    ∀ fps, t.known = some fps → floor ≤ fps
  /-- A cooldown of a minute, twice as long with every failure, and eight minutes at most. -/
  rested : level' = level + 1 → 0 < w.failed level' →
    w.last level' + min kMaximumCooldownMs (kCooldownMs <<< (w.failed level' - 1)) ≤ t.now_ms

end Watch

/-- The control thread and its watch. -/
structure WatchedCamera where
  auto : AutoCamera := {}
  watch : Watch := {}

namespace WatchedCamera

def tick (s : WatchedCamera) (t : Input) : WatchedCamera :=
  let auto := s.auto.tick t
  { auto, watch := s.watch.see t s.auto.policy.level auto.policy.level auto.policy.floor }

/-- The tick does what it may. -/
def Disciplined (s : WatchedCamera) (t : Input) : Prop :=
  s.watch.Allowed t s.auto.policy.level (s.auto.tick t).policy.level (s.auto.tick t).policy.floor

/-- The tick completes a window without a pause. -/
def Completes (s : WatchedCamera) (t : Input) : Prop :=
  t.window ≠ s.auto.policy.window ∧ (s.auto.latch.seen || t.paused) = false

/-- A window that ends with the cameras off has a known rate, unless Auto is not settled anyway; a
judged window of the first level is not below the floor; clocks and counters do not wrap. -/
structure Sound (s : WatchedCamera) (t : Input) : Prop where
  off_known : s.Completes t → t.cameras_active = false → t.known = none →
    s.auto.policy.settled = false
  first_level : ∀ fps ∈ t.known, s.Completes t → t.cameras_active = true →
    s.auto.policy.settled = true → s.auto.policy.level = 0 → (s.auto.policy.rebase fps).floor ≤ fps
  clock : t.now_ms + kMaximumCooldownMs < 0x10000000000000000
  count : s.auto.policy.failures s.auto.policy.level + 1 < 0x100000000

instance (s : WatchedCamera) (t : Input) : Decidable (s.Completes t) :=
  inferInstanceAs (Decidable (_ ∧ _))

instance (s : WatchedCamera) (t : Input) : Decidable (s.Sound t) :=
  decidable_of_iff
    ((s.Completes t → t.cameras_active = false → t.known = none → s.auto.policy.settled = false) ∧
      (∀ fps ∈ t.known, s.Completes t → t.cameras_active = true → s.auto.policy.settled = true →
        s.auto.policy.level = 0 → (s.auto.policy.rebase fps).floor ≤ fps) ∧
      t.now_ms + kMaximumCooldownMs < 0x10000000000000000 ∧
      s.auto.policy.failures s.auto.policy.level + 1 < 0x100000000)
    ⟨fun h => ⟨h.1, h.2.1, h.2.2.1, h.2.2.2⟩, fun h => ⟨h.1, h.2, h.3, h.4⟩⟩

/-! ## What the watch knows -/

structure Watches (s : WatchedCamera) : Prop where
  latch : s.auto.latch = { window := s.watch.window, seen := s.watch.touched }
  window : s.auto.policy.window = s.watch.window
  level : s.auto.policy.level < kLevels
  settled : s.auto.policy.settled = !s.watch.fresh
  held : s.auto.policy.held = s.watch.judged % 0x100000000
  start : s.watch.fresh = true → s.watch.judged = 0
  below : s.watch.below = false
  failures : s.auto.policy.failures = s.watch.failed
  forgiven : kForgiveWindows ≤ s.watch.judged → s.watch.failed s.auto.policy.level = 0
  blocked : ∀ l, 0 < s.watch.failed l → s.watch.last l +
    min kMaximumCooldownMs (kCooldownMs <<< (s.watch.failed l - 1)) ≤ s.auto.policy.blocked_until l

theorem watches_initial : Watches {} :=
  ⟨rfl, rfl, by decide, rfl, rfl, fun _ => rfl, rfl, rfl, fun _ => rfl, fun _ h => absurd h (Nat.lt_irrefl 0)⟩

end WatchedCamera

namespace AutoCameraPolicy

variable (p : AutoCameraPolicy) (t : Input) (fps : Rat)

/-- Only the reference moves. -/
theorem rebase_eq : p.rebase fps =
    { p with base := (p.rebase fps).base, base_known := (p.rebase fps).base_known } := by
  unfold rebase
  split
  · rfl
  · split <;> rfl

theorem doublings_eq {n : Nat} (h : n + 1 < 0x100000000) :
    min kMaximumCooldownMs (kCooldownMs <<< doublings (n + 1)) = min kMaximumCooldownMs (kCooldownMs <<< n) := by
  have hcount : doublings (n + 1) = min n 3 := by
    unfold doublings
    omega
  rw [hcount]
  rcases Nat.lt_or_ge n 3 with hlt | hge
  · rw [Nat.min_eq_left (Nat.le_of_lt hlt)]
  obtain ⟨k, rfl⟩ := Nat.exists_eq_add_of_le hge
  have hfull : kCooldownMs <<< 3 = kMaximumCooldownMs := by decide
  rw [show min (3 + k) 3 = 3 by omega, Nat.shiftLeft_add, hfull, Nat.min_self, Nat.min_eq_left]
  rw [Nat.shiftLeft_eq]
  exact Nat.le_mul_of_pos_right _ (Nat.two_pow_pos k)

/-- What a settled window does: it backs off, it holds, or it holds and moves up. -/
theorem judge_cases :
    (0 < p.level ∧ fps < (p.rebase fps).floor ∧ p.judge t fps = (p.rebase fps).back_off t.now_ms) ∨
      (¬ (0 < p.level ∧ fps < (p.rebase fps).floor) ∧ p.judge t fps = (p.rebase fps).hold) ∨
      (¬ (0 < p.level ∧ fps < (p.rebase fps).floor) ∧
        kHoldWindows ≤ (p.held + 1) % 0x100000000 ∧ p.level + 1 < kLevels ∧
        (p.rebase fps).hold.blocked_until (p.level + 1) ≤ t.now_ms ∧
        p.judge t fps = { (p.rebase fps).hold with level := p.level + 1, settled := false, held := 0 }) := by
  have hlevel : (p.rebase fps).level = p.level := by rw [rebase_eq]
  have hheld : (p.rebase fps).hold.held = (p.held + 1) % 0x100000000 := by
    rw [rebase_eq]
    rfl
  have hholdlevel : (p.rebase fps).hold.level = p.level := hlevel
  unfold judge
  dsimp only
  by_cases hlow : 0 < p.level ∧ fps < (p.rebase fps).floor
  · left
    refine ⟨hlow.1, hlow.2, ?_⟩
    rw [hlevel]
    exact if_pos hlow
  right
  rw [hlevel, if_neg hlow]
  unfold step_up
  split
  · rename_i hup
    right
    rw [hheld, hholdlevel] at hup
    refine ⟨hlow, hup.1, hup.2.1, hup.2.2.1, ?_⟩
    rw [hholdlevel]
  · exact .inl ⟨hlow, rfl⟩

end AutoCameraPolicy

namespace WatchedCamera

variable {s : WatchedCamera} {t : Input}

/-! ## One tick -/

theorem allowed_same {w : Watch} {level : Nat} {floor : Rat} (h : level < kLevels) :
    w.Allowed t level level floor where
  range := h
  one_step := ⟨Nat.le_succ level, Nat.le_succ level⟩
  once _ := rfl
  paused _ := rfl
  unjudged _ := rfl
  first _ := rfl
  raised hup := absurd hup (Nat.ne_of_lt (Nat.lt_succ_self level))
  rested hup := absurd hup (Nat.ne_of_lt (Nat.lt_succ_self level))

/-- A tick inside a window. -/
theorem Watches.tick_inside (h : Watches s) (hwindow : t.window = s.watch.window) :
    s.Disciplined t ∧ Watches (s.tick t) := by
  have hlatch : s.auto.latch.observe t.window t.paused =
      ({ window := s.watch.window, seen := s.watch.touched || t.paused }, s.watch.touched || t.paused) := by
    rw [h.latch]
    unfold WindowPauseLatch.observe
    rw [if_neg (not_not.mpr hwindow)]
  have hauto : s.auto.tick t = { s.auto with
      latch := { window := s.watch.window, seen := s.watch.touched || t.paused } } := by
    unfold AutoCamera.tick update
    rw [hlatch]
    dsimp only
    rw [if_pos (hwindow.trans h.window.symm)]
  have hwatch (level : Nat) (floor : Rat) : s.watch.see t level level floor =
      { s.watch with touched := s.watch.touched || t.paused } := if_pos hwindow
  constructor
  · unfold Disciplined
    rw [hauto]
    exact allowed_same h.level
  · unfold tick
    rw [hauto]
    dsimp only
    rw [hwatch]
    exact ⟨rfl, h.window, h.level, h.settled, h.held, h.start, h.below, h.failures, h.forgiven, h.blocked⟩

/-- The tick that completes a window. -/
theorem Watches.tick_complete (h : Watches s) (hwindow : t.window ≠ s.watch.window) :
    s.auto.tick t =
      { latch := { window := t.window, seen := t.paused }
        policy := { s.auto.policy with window := t.window }.complete
          { t with paused := s.watch.touched || t.paused } } := by
  have hlatch : s.auto.latch.observe t.window t.paused =
      ({ window := t.window, seen := t.paused }, s.watch.touched || t.paused) := by
    rw [h.latch]
    unfold WindowPauseLatch.observe
    rw [if_pos hwindow]
  unfold AutoCamera.tick update
  rw [hlatch]
  dsimp only
  rw [if_neg (fun heq => hwindow (heq.trans h.window))]

theorem Watches.see_complete (hwindow : t.window ≠ s.watch.window) (level level' : Nat)
    (floor : Rat) : s.watch.see t level level' floor =
      (if (s.watch.touched || t.paused) = true ∨ t.cameras_active = false then
        { s.watch with window := t.window, touched := t.paused }.restart
      else match t.known with
        | none => { s.watch with window := t.window, touched := t.paused }
        | some fps =>
          if s.watch.fresh then
            { s.watch with window := t.window, touched := t.paused, fresh := false }
          else { s.watch with window := t.window, touched := t.paused }.judge t fps level level' floor) := by
  unfold Watch.see
  rw [if_neg hwindow]

/-- A window that is paused or ends with the cameras off. -/
theorem Watches.tick_idle (h : Watches s) (hs : s.Sound t) (hwindow : t.window ≠ s.watch.window)
    (hidle : (s.watch.touched || t.paused) = true ∨ t.cameras_active = false) :
    s.Disciplined t ∧ Watches (s.tick t) := by
  have hcomplete := h.tick_complete hwindow
  -- The level and what it has failed stay; nothing is settled.
  have hkeep : (s.auto.tick t).policy.level = s.auto.policy.level ∧
      (s.auto.tick t).policy.window = t.window ∧ (s.auto.tick t).policy.settled = false ∧
      (s.auto.tick t).policy.held = 0 ∧ (s.auto.tick t).policy.failures = s.auto.policy.failures ∧
      (s.auto.tick t).policy.blocked_until = s.auto.policy.blocked_until := by
    rw [hcomplete]
    unfold complete
    split
    · exact ⟨rfl, rfl, rfl, rfl, rfl, rfl⟩
    rename_i hunpaused
    have hquiet : (s.watch.touched || t.paused) = false := by simpa using hunpaused
    have hoff : t.cameras_active = false := by
      rcases hidle with hpaused | hoff
      · rw [hquiet] at hpaused
        cases hpaused
      · exact hoff
    have hknown : Input.known { t with paused := s.watch.touched || t.paused } = t.known := rfl
    rw [hknown]
    split
    · rename_i hunknown
      have hunsettled := hs.off_known
        ⟨fun heq => hwindow (heq.trans h.window), by rw [h.latch]; exact hquiet⟩ hoff hunknown
      refine ⟨rfl, rfl, hunsettled, ?_, rfl, rfl⟩
      have hfresh : s.watch.fresh = true := by
        have := h.settled
        rw [hunsettled] at this
        simpa using this.symm
      have hzero := h.start hfresh
      rw [h.held, hzero]
    rw [if_pos hoff]
    refine ⟨?_, ?_, rfl, rfl, ?_, ?_⟩ <;> dsimp only <;> split <;> rfl
  obtain ⟨hlevel, hnewwindow, hsettled, hheld, hfailures, hblocked⟩ := hkeep
  constructor
  · unfold Disciplined
    rw [hlevel]
    exact allowed_same h.level
  · unfold tick
    dsimp only
    rw [see_complete hwindow, if_pos hidle]
    refine ⟨?_, hnewwindow, ?_, hsettled, hheld, fun _ => rfl, rfl, ?_, fun hge => ?_, ?_⟩ <;>
      dsimp only [Watch.restart] at *
    · rw [hcomplete]
    · rw [hlevel]
      exact h.level
    · rw [hfailures]
      exact h.failures
    · exact absurd hge (by decide)
    · rw [hblocked]
      exact h.blocked

/-- A window without a pause that ends with the cameras active and an unknown rate. -/
theorem Watches.tick_unknown (h : Watches s) (hwindow : t.window ≠ s.watch.window)
    (hbusy : ¬ ((s.watch.touched || t.paused) = true ∨ t.cameras_active = false))
    (hknown : t.known = none) : s.Disciplined t ∧ Watches (s.tick t) := by
  obtain ⟨hquiet, hactive⟩ := not_or.mp hbusy
  have hauto : s.auto.tick t = { latch := { window := t.window, seen := t.paused }
                                 policy := { s.auto.policy with window := t.window } } := by
    rw [h.tick_complete hwindow]
    congr 1
    unfold complete
    rw [if_neg hquiet]
    change (match t.known with | none => _ | some fps => _) = _
    rw [hknown]
  constructor
  · unfold Disciplined
    rw [hauto]
    exact allowed_same h.level
  · unfold tick
    dsimp only
    rw [see_complete hwindow, if_neg hbusy, hknown, hauto]
    exact ⟨rfl, rfl, h.level, h.settled, h.held, h.start, h.below, h.failures, h.forgiven, h.blocked⟩

variable {fps : Rat}

/-- The first window after a switch that ends with the cameras active and a known rate. -/
theorem Watches.tick_first (h : Watches s) (hwindow : t.window ≠ s.watch.window)
    (hbusy : ¬ ((s.watch.touched || t.paused) = true ∨ t.cameras_active = false))
    (hknown : t.known = some fps) (hfresh : s.watch.fresh = true) :
    s.Disciplined t ∧ Watches (s.tick t) := by
  obtain ⟨hquiet, hactive⟩ := not_or.mp hbusy
  have hunsettled : s.auto.policy.settled = false := by
    rw [h.settled, hfresh]
    rfl
  have hauto : s.auto.tick t =
      { latch := { window := t.window, seen := t.paused }
        policy := { s.auto.policy with window := t.window, off_settled := false, settled := true } } := by
    rw [h.tick_complete hwindow]
    congr 1
    unfold complete
    rw [if_neg hquiet]
    change (match t.known with | none => _ | some fps => _) = _
    rw [hknown]
    dsimp only
    rw [if_neg hactive, if_pos hunsettled]
  constructor
  · unfold Disciplined
    rw [hauto]
    exact allowed_same h.level
  · unfold tick
    dsimp only
    rw [see_complete hwindow, if_neg hbusy, hknown, hauto]
    dsimp only
    rw [if_pos hfresh]
    exact ⟨rfl, rfl, h.level, rfl, h.held, nofun, h.below, h.failures, h.forgiven, h.blocked⟩

/-- The policy after a judged window is the one that `judge` gives. -/
theorem Watches.tick_judge (h : Watches s) (hwindow : t.window ≠ s.watch.window)
    (hbusy : ¬ ((s.watch.touched || t.paused) = true ∨ t.cameras_active = false))
    (hknown : t.known = some fps) (hfresh : s.watch.fresh = false) :
    s.auto.tick t =
      { latch := { window := t.window, seen := t.paused }
        policy := { s.auto.policy with window := t.window, off_settled := false }.judge
          { t with paused := s.watch.touched || t.paused } fps } := by
  obtain ⟨hquiet, hactive⟩ := not_or.mp hbusy
  rw [h.tick_complete hwindow]
  congr 1
  unfold complete
  rw [if_neg hquiet]
  change (match t.known with | none => _ | some fps => _) = _
  have hsettled : s.auto.policy.settled = true := by
    rw [h.settled, hfresh]
    rfl
  rw [hknown]
  dsimp only
  rw [if_neg hactive, if_neg (by rw [hsettled]; exact Bool.noConfusion)]

/-- The policy that judges: only its reference has moved. -/
def judging (s : WatchedCamera) (t : Input) (base : Rat) (base_known : Bool) : AutoCameraPolicy :=
  { s.auto.policy with window := t.window, off_settled := false, base, base_known }

/-- The watch that sees a judged window. -/
def judged_watch (s : WatchedCamera) (t : Input) : Watch :=
  { s.watch with window := t.window, touched := t.paused }

/-- A tick that the policy judges, from its new policy and its new watch. -/
structure Judges (s : WatchedCamera) (t : Input) (fps base : Rat) (base_known : Bool)
    (policy : AutoCameraPolicy) : Prop where
  auto : s.auto.tick t = { latch := { window := t.window, seen := t.paused }, policy }
  watch : ∀ level level' floor,
    s.watch.see t level level' floor = (s.judged_watch t).judge t fps level level' floor
  window : t.window ≠ s.watch.window
  quiet : (s.watch.touched || t.paused) = false
  active : t.cameras_active = true
  known : t.known = some fps
  fresh : s.watch.fresh = false

section
variable {fps base : Rat} {base_known : Bool} {policy : AutoCameraPolicy}

/-- What a judged window may do, when it does not raise the level. -/
theorem Judges.allowed (hj : s.Judges t fps base base_known policy) {level level' : Nat} {floor : Rat}
    (hrange : level' < kLevels) (hstep : level' ≤ level + 1 ∧ level ≤ level' + 1)
    (hraised : level' = level + 1 → kHoldWindows ≤ s.watch.judged + 1 ∧ s.watch.below = false ∧ floor ≤ fps)
    (hrested : level' = level + 1 → 0 < s.watch.failed level' → s.watch.last level' +
      min kMaximumCooldownMs (kCooldownMs <<< (s.watch.failed level' - 1)) ≤ t.now_ms) :
    s.watch.Allowed t level level' floor where
  range := hrange
  one_step := hstep
  once heq := absurd heq hj.window
  paused hp := by
    rw [hj.quiet] at hp
    cases hp
  unjudged hu := by
    rw [hj.active, hj.known] at hu
    rcases hu with hu | hu <;> cases hu
  first hf := by
    rw [hj.fresh] at hf
    cases hf
  raised hup := by
    obtain ⟨hheld, hbelow, hfloor⟩ := hraised hup
    refine ⟨hheld, hbelow, fun rate hrate => ?_⟩
    rw [hj.known] at hrate
    cases hrate
    exact hfloor
  rested := hrested

theorem Watches.tick_down (h : Watches s) (hs : s.Sound t) (hpos : 0 < s.auto.policy.level)
    (hj : s.Judges t fps base base_known ((s.judging t base base_known).back_off t.now_ms)) :
    s.Disciplined t ∧ Watches (s.tick t) := by
  have hlevel := h.level
  have hnext : ((s.judging t base base_known).back_off t.now_ms).level = s.auto.policy.level - 1 := rfl
  have hclock := hs.clock
  have hcount := hs.count
  have hfailures : (s.auto.policy.failures s.auto.policy.level + 1) % 0x100000000 =
      s.watch.failed s.auto.policy.level + 1 := by
    rw [Nat.mod_eq_of_lt hcount, h.failures]
  constructor
  · unfold Disciplined
    rw [hj.auto]
    rw [hnext]
    exact hj.allowed (by omega) (by omega) (fun he => by omega) (fun he => by omega)
  · unfold tick
    dsimp only
    rw [hj.watch, hj.auto]
    rw [hnext]
    unfold Watch.judge
    rw [if_pos (by omega)]
    refine ⟨rfl, rfl, ?_, rfl, rfl, fun _ => rfl, rfl, ?_, fun hge => ?_, fun l hl => ?_⟩ <;>
      dsimp only [judging, back_off, judged_watch, Watch.restart] at *
    · omega
    · rw [hfailures, h.failures]
    · exact absurd hge (by decide)
    · by_cases hlast : l = s.auto.policy.level
      · subst hlast
        rw [update_self, update_self, update_self, hfailures,
          doublings_eq (by rw [← h.failures]; exact hcount), Nat.add_sub_cancel]
        rw [Nat.mod_eq_of_lt (by omega)]
      rw [update_of_ne hlast] at hl
      rw [update_of_ne hlast, update_of_ne hlast, update_of_ne hlast]
      exact h.blocked l hl

theorem forget_long (w : Watch) (level : Nat) (h : kForgiveWindows ≤ w.judged + 1) : w.forget level level = 0 := by
  unfold Watch.forget
  rw [if_pos h, update_self]

/-- What is not forgotten is as it was. -/
theorem forget_pos (w : Watch) (level l : Nat) (h : 0 < w.forget level l) : w.forget level l = w.failed l := by
  unfold Watch.forget at *
  split at h
  · rename_i hlong
    rw [if_pos hlong]
    by_cases hl : l = level
    · rw [hl, update_self] at h
      exact absurd h (Nat.lt_irrefl 0)
    · exact update_of_ne hl ..
  rename_i hshort
  rw [if_neg hshort]

/-- A level that held long enough has no failures, in the policy and in the watch. -/
theorem Watches.forgive (h : Watches s) :
    (if (s.auto.policy.held + 1) % 0x100000000 ≥ kForgiveWindows then
      Function.update s.auto.policy.failures s.auto.policy.level 0 else s.auto.policy.failures) =
    (s.judged_watch t).forget s.auto.policy.level := by
  have hheld := h.held
  unfold Watch.forget kForgiveWindows judged_watch
  rw [h.failures]
  by_cases hlong : s.watch.judged + 1 ≥ 30
  · split
    · rfl
    rename_i hshort
    have hzero := h.forgiven (by unfold kForgiveWindows; omega)
    rw [← hzero, Function.update_eq_self]
  · rw [if_neg hlong, if_neg (by omega)]

theorem Watches.tick_hold (h : Watches s) (hfloor : (s.judging t base base_known).floor ≤ fps)
    (hj : s.Judges t fps base base_known (s.judging t base base_known).hold) :
    s.Disciplined t ∧ Watches (s.tick t) := by
  have hlevel : (s.judging t base base_known).hold.level = s.auto.policy.level := rfl
  have hsame : (s.judging t base base_known).hold.floor = (s.judging t base base_known).floor := rfl
  constructor
  · unfold Disciplined
    rw [hj.auto]
    exact allowed_same h.level
  · unfold tick
    dsimp only
    rw [hj.watch, hj.auto]
    rw [hlevel, hsame]
    unfold Watch.judge
    rw [if_neg (Nat.lt_irrefl _), if_pos rfl]
    have hbelow : (s.watch.below || decide (fps < (s.judging t base base_known).floor)) = false := by
      rw [h.below, Bool.false_or, decide_eq_false_iff_not]
      exact Rat.not_lt.mpr hfloor
    refine ⟨rfl, rfl, h.level, h.settled, ?_, fun he => ?_, hbelow, h.forgive, fun hge => ?_, fun l hl => ?_⟩
    · have hheld := h.held
      dsimp only [judging, hold, judged_watch]
      omega
    · exact Bool.noConfusion (hj.fresh.symm.trans he)
    · exact forget_long _ _ hge
    · have hfailed := forget_pos _ _ _ hl
      dsimp only at hl ⊢
      rw [hfailed] at hl ⊢
      exact h.blocked l hl

theorem Watches.tick_up (h : Watches s) (hfloor : (s.judging t base base_known).floor ≤ fps)
    (hheld : kHoldWindows ≤ (s.auto.policy.held + 1) % 0x100000000)
    (hroom : s.auto.policy.level + 1 < kLevels)
    (hrest : s.auto.policy.blocked_until (s.auto.policy.level + 1) ≤ t.now_ms)
    (hj : s.Judges t fps base base_known { (s.judging t base base_known).hold with
      level := s.auto.policy.level + 1, settled := false, held := 0 }) :
    s.Disciplined t ∧ Watches (s.tick t) := by
  have hjudged := h.held
  have hnone : ¬ s.auto.policy.level + 1 < s.auto.policy.level := by omega
  have hmoved : ¬ s.auto.policy.level + 1 = s.auto.policy.level := by omega
  constructor
  · unfold Disciplined
    rw [hj.auto]
    refine hj.allowed hroom ⟨Nat.le_refl _, by dsimp only; omega⟩ (fun _ => ⟨?_, h.below, hfloor⟩)
      (fun _ hfailed => ?_)
    · omega
    · exact Nat.le_trans (h.blocked _ hfailed) hrest
  · unfold tick
    dsimp only
    rw [hj.watch, hj.auto]
    unfold Watch.judge
    rw [if_neg hnone, if_neg hmoved]
    refine ⟨rfl, rfl, hroom, rfl, rfl, fun _ => rfl, rfl, h.forgive, fun hge => ?_, fun l hl => ?_⟩
    · exact absurd hge (show ¬ kForgiveWindows ≤ 0 by decide)
    · have hfailed := forget_pos _ _ _ hl
      dsimp only at hl ⊢
      rw [hfailed] at hl ⊢
      exact h.blocked l hl

end

/-- A judged window: the level is backed off from, held, or left for the next one. -/
theorem Watches.tick_judged (h : Watches s) (hs : s.Sound t) (hwindow : t.window ≠ s.watch.window)
    (hbusy : ¬ ((s.watch.touched || t.paused) = true ∨ t.cameras_active = false))
    (hknown : t.known = some fps) (hfresh : s.watch.fresh = false) :
    s.Disciplined t ∧ Watches (s.tick t) := by
  have hpolicy := h.tick_judge hwindow hbusy hknown hfresh
  have hseen (level level' : Nat) (floor : Rat) :
      s.watch.see t level level' floor = (s.judged_watch t).judge t fps level level' floor := by
    rw [see_complete hwindow, if_neg hbusy, hknown]
    dsimp only
    rw [if_neg (by rw [hfresh]; exact Bool.noConfusion)]
    rfl
  obtain ⟨hquiet, hactive⟩ := not_or.mp hbusy
  have hquiet : (s.watch.touched || t.paused) = false := by simpa using hquiet
  have hactive : t.cameras_active = true := by simpa using hactive
  have hcompletes : s.Completes t := ⟨fun heq => hwindow (heq.trans h.window), by rw [h.latch]; exact hquiet⟩
  have hsettled : s.auto.policy.settled = true := by
    rw [h.settled, hfresh]
    rfl
  generalize hq : ({ s.auto.policy with window := t.window, off_settled := false } : AutoCameraPolicy) = q at hpolicy
  have hfloor : (q.rebase fps).floor = (s.auto.policy.rebase fps).floor := by
    subst hq
    unfold rebase
    split
    · rfl
    · split <;> rfl
  have hrebased : q.rebase fps = s.judging t (q.rebase fps).base (q.rebase fps).base_known := by
    conv_lhs => rw [rebase_eq]
    subst hq
    rfl
  have hjudges {policy : AutoCameraPolicy} (hjudge : q.judge
      { t with paused := s.watch.touched || t.paused } fps = policy) :
      s.Judges t fps (q.rebase fps).base (q.rebase fps).base_known policy :=
    ⟨hpolicy.trans (by rw [hjudge]), hseen, hwindow, hquiet, hactive, hknown, hfresh⟩
  have hhigh (hno : ¬ (0 < q.level ∧ fps < (q.rebase fps).floor)) :
      (s.judging t (q.rebase fps).base (q.rebase fps).base_known).floor ≤ fps := by
    rw [← hrebased]
    by_cases hzero : s.auto.policy.level = 0
    · rw [hfloor]
      exact hs.first_level fps hknown hcompletes hactive hsettled hzero
    have hpos : 0 < q.level := by
      subst hq
      exact Nat.pos_of_ne_zero hzero
    exact Rat.not_lt.mp fun hlow => hno ⟨hpos, hlow⟩
  rcases judge_cases q { t with paused := s.watch.touched || t.paused } fps with
    ⟨hpos, _, hjudge⟩ | ⟨hno, hjudge⟩ | ⟨hno, hheld, hroom, hrest, hjudge⟩ <;>
    have hj := hjudges hjudge
  · rw [hrebased] at hj
    subst hq
    exact h.tick_down hs hpos hj
  · rw [hrebased] at hj
    exact h.tick_hold (hhigh hno) hj
  rw [hrebased] at hj hrest
  subst hq
  exact h.tick_up (hhigh hno) hheld hroom hrest hj

theorem Watches.tick (h : Watches s) (hs : s.Sound t) : s.Disciplined t ∧ Watches (s.tick t) := by
  by_cases hwindow : t.window = s.watch.window
  · exact h.tick_inside hwindow
  by_cases hidle : (s.watch.touched || t.paused) = true ∨ t.cameras_active = false
  · exact h.tick_idle hs hwindow hidle
  cases hknown : t.known with
  | none => exact h.tick_unknown hwindow hidle hknown
  | some fps =>
    cases hfresh : s.watch.fresh with
    | true => exact h.tick_first hwindow hidle hknown hfresh
    | false => exact h.tick_judged hs hwindow hidle hknown hfresh

/-! ## Runs -/

theorem camera_level_is_disciplined (ticks : List Input) (h : Guarded WatchedCamera.tick Sound {} ticks) :
    Guarded WatchedCamera.tick Disciplined {} ticks :=
  guarded_of_invariant (fun _ _ hw hs => Watches.tick hw hs) ticks watches_initial h

/-- A window every two seconds: the cameras are turned on, and Auto moves to the second level. -/
def climb : List Input :=
  [{ now_ms := 2000, window := 1, fps := some 60, cameras_active := true },
    { now_ms := 4000, window := 2, fps := some 60, cameras_active := true },
    { now_ms := 6000, window := 3, fps := some 60, cameras_active := true },
    { now_ms := 8000, window := 4, fps := some 60, cameras_active := true }]

/-- The second level is too slow: Auto moves back. -/
theorem climb_and_fall_is_disciplined :
    let ticks := climb ++ [{ now_ms := 9000, window := 4, paused := true },
      { now_ms := 10000, window := 5, fps := some 30, cameras_active := true },
      { now_ms := 12000, window := 6, fps := some 59, cameras_active := true },
      { now_ms := 14000, window := 7, fps := some 30, cameras_active := true }]
    Guarded WatchedCamera.tick Sound {} ticks ∧ Guarded WatchedCamera.tick Disciplined {} ticks :=
  ⟨by decide +kernel, camera_level_is_disciplined _ (by decide +kernel)⟩

/-- The cameras are turned off and on again, and the rate is unknown while they are off: the first
window after that is judged. And the first level is left with a window below the floor among the
ones that held. -/
theorem discipline_is_broken :
    ¬ Guarded WatchedCamera.tick Disciplined {} (climb ++
        [{ now_ms := 10000, window := 5, fps := some 60, cameras_active := true },
          { now_ms := 12000, window := 6, fps := none, cameras_active := false },
          { now_ms := 14000, window := 7, fps := some 30, cameras_active := true }]) ∧
      ¬ Guarded WatchedCamera.tick Disciplined {}
        [{ now_ms := 2000, window := 1, fps := some 100, cameras_active := true },
          { now_ms := 4000, window := 2, fps := some 100, cameras_active := true },
          { now_ms := 6000, window := 3, fps := some 50, cameras_active := true },
          { now_ms := 8000, window := 4, fps := some 90, cameras_active := true }] := by
  constructor
  · intro h
    have hlast := guarded_at (i := 6) h rfl
    exact absurd (hlast.first (by decide +kernel)) (by decide +kernel)
  · intro h
    have hlast := guarded_at (i := 3) h rfl
    exact absurd (hlast.raised (by decide +kernel)).2.1 (by decide +kernel)

end WatchedCamera

end taxi_camera
