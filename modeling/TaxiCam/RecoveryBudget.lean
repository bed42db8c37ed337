-- The budget of the recovery, over every sequence of its calls: three retries
-- between two renewals, each after the delay of its failure, and none after a
-- refusal that is latched.
import TaxiCam.SceneRecovery
import Mathlib.Data.List.Chain

namespace taxi_camera.native_camera

open engine_camera histories runs
open PairController (apply decide_update processing publish rest resume take)

namespace SceneRecovery

/-! ## The rules -/

/-- The recovery, and the calls that it had. -/
structure Logged where
  recovery : SceneRecovery := {}
  log : List Entry := []

def Logged.step (s : Logged) (call : Call) : Logged :=
  ⟨s.recovery.step call, s.log ++ [s.recovery.entry call]⟩

def progress_time (e : Entry) : Option Nat := match e.call with
  | .capture_progress now => some now
  | _ => none

/-- Nothing was pending, and captures went on for ten seconds with no gap above two. -/
def Healthy (stretch : List Entry) : Prop :=
  (∀ e ∈ stretch, e.pending = none) ∧
    ∃ first last, (stretch.filterMap progress_time).head? = some first ∧
      (stretch.filterMap progress_time).getLast? = some last ∧
      (stretch.filterMap progress_time).IsChain (fun a b => a ≤ b ∧ b ≤ a + 2000) ∧
      first + 10000 ≤ last

/-- The call renews the budget: an explicit start, or the end of a healthy stretch of captures. -/
def Renews (past : List Entry) (e : Entry) : Prop :=
  e.call = .start ∨ ((∃ now, e.call = .capture_progress now) ∧
    ∃ before stretch, past = before ++ stretch ∧ Healthy (stretch ++ [e]))

/-- What ends a failure, or a retry's right to it: an explicit start or stop, a retry that was
granted, and the first report of another failure. -/
def ends (e : Entry) : Bool := match e.call with
  | .start | .stop => true
  | .failed reason _ => e.pending != some reason
  | .retry _ _ _ => e.granted
  | _ => false

/-- A failure was reported for the first time, no later than the deadline, and it goes on. -/
def Reported (deadline : Nat) : List Entry → Prop :=
  Since ends fun _ e => ∃ reason now, e.call = .failed reason now ∧ e.pending ≠ some reason ∧
    now ≤ deadline

def Call.retries : Call → Bool
  | .retry _ _ _ => true
  | _ => false

/-- A retry that is granted. -/
def Due (past : List Entry) (e : Entry) : Prop :=
  ∀ now pair fresh_pose, e.call = .retry now pair fresh_pose → e.granted = true →
    clean pair = true ∧ ∃ deadline, deadline + 2000 ≤ now ∧ Reported deadline past

/-! ## What a step does -/

variable {reason : SceneStopReason}

theorem retryable_of_latched (h : latched_scene_stop reason = true) : retryable_scene_stop reason = false := by
  cases reason <;> first | rfl | cases h

section
variable {s : SceneRecovery}

theorem failed_cases (s : SceneRecovery) (reason : SceneStopReason) (now : Nat) :
    s.failed reason now = s ∧
        ((latched_scene_stop s.reason = true ∧ reason ≠ s.reason) ∨ (s.pending = true ∧ s.reason = reason)) ∨
      (¬(s.pending = true ∧ s.reason = reason) ∧ (latched_scene_stop s.reason = true → reason = s.reason) ∧
        s.failed reason now = { s with
          reason, stopped_at := now, healthy_since := 0, last_progress := 0
          pending := s.requested && retryable_scene_stop reason && decide (s.attempts < maximum_retries)
          sequence := s.sequence + 1 }) := by
  by_cases hlatched : (latched_scene_stop s.reason && reason != s.reason) = true
  · left
    refine ⟨by rw [failed, if_pos hlatched], .inl ?_⟩
    simpa using hlatched
  by_cases hsame : (s.pending && s.reason == reason) = true
  · left
    refine ⟨by rw [failed, if_neg hlatched, if_pos hsame], .inr ?_⟩
    simpa using hsame
  right
  refine ⟨by simpa using hsame, ?_, by rw [failed, if_neg hlatched, if_neg hsame]⟩
  intro hl
  simpa [hl] using hlatched

theorem may_retry_spec {now : Nat} {pair : Snapshot} {fresh_pose : Bool}
    (h : s.may_retry now pair fresh_pose = true) :
    s.pending = true ∧ s.stopped_at + 2000 ≤ now ∧ clean pair = true := by
  simp only [may_retry, Bool.and_eq_true, decide_eq_true_eq] at h
  obtain ⟨⟨⟨⟨⟨-, hpending⟩, -⟩, hle⟩, hdelay⟩, hclean⟩ := h
  have hdelay : 2000 ≤ now - s.stopped_at := hdelay
  exact ⟨hpending, by omega, hclean⟩

theorem retry_fst (now : Nat) (pair : Snapshot) (fresh_pose : Bool) :
    (s.retry now pair fresh_pose).1 = if s.may_retry now pair fresh_pose then
      { s with pending := false, attempts := s.attempts + 1 } else s := by
  unfold retry
  split <;> rfl

theorem retry_snd (now : Nat) (pair : Snapshot) (fresh_pose : Bool) :
    (s.retry now pair fresh_pose).2 = s.may_retry now pair fresh_pose := by
  unfold retry
  split <;> rename_i h
  · exact h.symm
  · exact (Bool.not_eq_true _ ▸ h).symm

/-- The time that a progress counts from. -/
def healthy_from (s : SceneRecovery) (now : Nat) : Nat :=
  if s.last_progress = 0 ∨ now < s.last_progress ∨ now - s.last_progress > 2000 then now
  else s.healthy_since

theorem capture_progress_cases (s : SceneRecovery) (now : Nat) :
    ((s.requested = false ∨ s.pending = true ∨ retryable_scene_stop s.reason = false) ∧ s.capture_progress now = s) ∨
      (s.requested = true ∧ s.pending = false ∧ retryable_scene_stop s.reason = true ∧
        (s.healthy_from now + 10000 ≤ now ∧ s.capture_progress now = { s with
            healthy_since := s.healthy_from now, last_progress := now, attempts := 0, reason := .none } ∨
          s.capture_progress now = { s with healthy_since := s.healthy_from now, last_progress := now })) := by
  by_cases hoff : (!s.requested || s.pending || !retryable_scene_stop s.reason) = true
  · left
    refine ⟨?_, by rw [capture_progress, if_pos hoff]⟩
    simpa [or_assoc] using hoff
  right
  have hon : (s.requested = true ∧ s.pending = false) ∧ retryable_scene_stop s.reason = true := by
    simpa using hoff
  refine ⟨hon.1.1, hon.1.2, hon.2, ?_⟩
  rw [capture_progress, if_neg hoff]
  by_cases hlong : s.healthy_from now ≤ now ∧ now - s.healthy_from now ≥ 10000
  · left
    refine ⟨by omega, ?_⟩
    exact if_pos hlong
  right
  exact if_neg hlong

end

/-! ## The invariant -/

/-- The captures since `healthy_since`, with nothing pending. -/
def Going (s : SceneRecovery) (log : List Entry) : Prop :=
  ∃ before stretch, log = before ++ stretch ∧ (∀ e ∈ stretch, e.pending = none) ∧
    (stretch.filterMap progress_time).head? = some s.healthy_since ∧
    (stretch.filterMap progress_time).getLast? = some s.last_progress ∧
    (stretch.filterMap progress_time).IsChain fun a b => a ≤ b ∧ b ≤ a + 2000

structure Sound (s : SceneRecovery) (log : List Entry) : Prop where
  due : Explained Due log
  within : s.attempts ≤ maximum_retries
  spare : s.pending = true → s.attempts < maximum_retries
  waiting : s.pending = true → retryable_scene_stop s.reason = true ∧ s.last_progress = 0
  reported : s.pending = true → Reported s.stopped_at log
  going : s.requested = true → s.pending = false → retryable_scene_stop s.reason = true →
    s.last_progress ≠ 0 → s.Going log

/-- A call that is no capture, while nothing is pending. -/
theorem Going.snoc {s : SceneRecovery} {log : List Entry} {e : Entry} (hgoing : s.Going log)
    (he : e.pending = none) (hcall : progress_time e = none) : s.Going (log ++ [e]) := by
  obtain ⟨before, stretch, rfl, hpending, hhead, hlast, hchain⟩ := hgoing
  have hsame : (stretch ++ [e]).filterMap progress_time = stretch.filterMap progress_time := by
    simp [List.filterMap_append, hcall]
  refine ⟨before, stretch ++ [e], by simp, ?_, ?_⟩
  · intro x hx
    rcases List.mem_append.mp hx with hx | hx
    · exact hpending x hx
    rw [List.mem_singleton.mp hx]
    exact he
  · rw [hsame]
    exact ⟨hhead, hlast, hchain⟩

theorem Sound.initial : Sound {} [] where
  due := explained_nil
  within := Nat.zero_le _
  spare h := by cases h
  waiting h := by cases h
  reported h := by cases h
  going h := by cases h

section
variable {s : SceneRecovery} {log : List Entry} (h : s.Sound log)
include h

/-- A call that is no retry is due anyway. -/
theorem Sound.explain {e : Entry} (he : e.call.retries = false) : Explained Due (log ++ [e]) := by
  refine explained_snoc h.due fun now pair fresh_pose hcall => ?_
  rw [hcall] at he
  cases he

theorem Sound.start : s.start.Sound (log ++ [s.entry .start]) where
  due := h.explain rfl
  within := Nat.zero_le _
  spare := nofun
  waiting := nofun
  reported := nofun
  going _ _ hretryable := by cases hretryable

theorem Sound.stop : s.stop.Sound (log ++ [s.entry .stop]) where
  due := h.explain rfl
  within := h.within
  spare := nofun
  waiting := nofun
  reported := nofun
  going hrequested := by cases hrequested

theorem Sound.failed (reason : SceneStopReason) (now : Nat) :
    (s.failed reason now).Sound (log ++ [s.entry (.failed reason now)]) := by
  obtain ⟨hsame, hwhy⟩ | ⟨hnew, -, hchanged⟩ := failed_cases s reason now
  · rw [hsame]
    refine ⟨h.explain rfl, h.within, h.spare, h.waiting, ?_, ?_⟩
    · intro hpending
      refine Since.snoc (h.reported hpending) ?_
      -- while it is pending it is no refusal that is latched, so this is its report again
      obtain ⟨hlatched, -⟩ | ⟨-, hreason⟩ := hwhy
      · have hretryable := (h.waiting hpending).1
        rw [retryable_of_latched hlatched] at hretryable
        cases hretryable
      · simp [ends, entry, hpending, hreason]
    · intro hrequested hpending hretryable hprogress
      refine Going.snoc (h.going hrequested hpending hretryable hprogress) ?_ rfl
      simp [entry, hpending]
  rw [hchanged]
  refine ⟨h.explain rfl, h.within, ?_, ?_, ?_, fun _ _ _ hprogress => absurd rfl hprogress⟩
  · intro hpending
    simp only [Bool.and_eq_true, decide_eq_true_eq] at hpending
    exact hpending.2
  · intro hpending
    simp only [Bool.and_eq_true] at hpending
    exact ⟨hpending.1.2, rfl⟩
  · intro _
    refine Since.now ⟨reason, now, rfl, ?_, Nat.le_refl _⟩
    intro heq
    by_cases hp : s.pending = true
    · refine hnew ⟨hp, ?_⟩
      simpa [entry, hp] using heq
    · simp [entry, hp] at heq

theorem Sound.retry (now : Nat) (pair : Snapshot) (fresh_pose : Bool) :
    (s.retry now pair fresh_pose).1.Sound (log ++ [s.entry (.retry now pair fresh_pose)]) := by
  rw [retry_fst]
  by_cases hmay : s.may_retry now pair fresh_pose = true
  · rw [if_pos hmay]
    obtain ⟨hpending, hdelay, hclean⟩ := may_retry_spec hmay
    refine ⟨explained_snoc h.due ?_, h.spare hpending, nofun, nofun, nofun, ?_⟩
    · intro now' pair' fresh' hcall _
      cases hcall
      exact ⟨hclean, s.stopped_at, hdelay, h.reported hpending⟩
    · intro _ _ _ hprogress
      exact absurd (h.waiting hpending).2 hprogress
  rw [if_neg hmay]
  have hrefused : (s.entry (.retry now pair fresh_pose)).granted = false := by
    simp [entry, grants, retry_snd, hmay]
  refine ⟨explained_snoc h.due ?_, h.within, h.spare, h.waiting, ?_, ?_⟩
  · intro now' pair' fresh' _ hgranted
    rw [hrefused] at hgranted
    cases hgranted
  · exact fun hpending => Since.snoc (h.reported hpending) hrefused
  · intro hrequested hpending hretryable hprogress
    refine Going.snoc (h.going hrequested hpending hretryable hprogress) ?_ rfl
    simp [entry, hpending]

theorem Sound.resumed_retained_resolution :
    s.resumed_retained_resolution.Sound (log ++ [s.entry .resumed_retained_resolution]) := by
  unfold SceneRecovery.resumed_retained_resolution
  split
  · rename_i hresumed
    simp only [Bool.and_eq_true, Bool.not_eq_true'] at hresumed
    have hpending := hresumed.1.2
    refine ⟨h.explain rfl, h.within, ?_, ?_, ?_, nofun⟩ <;>
      exact fun hp => absurd hp (by simp [hpending])
  refine ⟨h.explain rfl, h.within, h.spare, h.waiting, ?_, ?_⟩
  · exact fun hpending => Since.snoc (h.reported hpending) rfl
  · intro hrequested hpending hretryable hprogress
    refine Going.snoc (h.going hrequested hpending hretryable hprogress) ?_ rfl
    simp [entry, hpending]

/-- The stretch of captures, with one more. -/
theorem Sound.stretch (now : Nat) (hrequested : s.requested = true) (hpending : s.pending = false)
    (hretryable : retryable_scene_stop s.reason = true) :
    ∃ before stretch, log = before ++ stretch ∧
      (∀ e ∈ stretch ++ [s.entry (.capture_progress now)], e.pending = none) ∧
      (((stretch ++ [s.entry (.capture_progress now)]).filterMap progress_time).head? = some (s.healthy_from now) ∧
        ((stretch ++ [s.entry (.capture_progress now)]).filterMap progress_time).getLast? = some now ∧
        ((stretch ++ [s.entry (.capture_progress now)]).filterMap progress_time).IsChain
          fun a b => a ≤ b ∧ b ≤ a + 2000) := by
  have hentry : (s.entry (.capture_progress now)).pending = none := by simp [entry, hpending]
  have htime : progress_time (s.entry (.capture_progress now)) = some now := rfl
  by_cases hfresh : s.last_progress = 0 ∨ now < s.last_progress ∨ now - s.last_progress > 2000
  · refine ⟨log, [], by simp, by simpa using hentry, ?_⟩
    have hfrom : s.healthy_from now = now := if_pos hfresh
    simp [htime, hfrom]
  have hfrom : s.healthy_from now = s.healthy_since := if_neg hfresh
  obtain ⟨before, stretch, rfl, hnone, hhead, hlast, hchain⟩ :=
    h.going hrequested hpending hretryable fun hzero => hfresh (.inl hzero)
  have htimes : (stretch ++ [s.entry (.capture_progress now)]).filterMap progress_time =
      stretch.filterMap progress_time ++ [now] := by
    simp [List.filterMap_append, htime]
  refine ⟨before, stretch, rfl, ?_, ?_⟩
  · intro e he
    rcases List.mem_append.mp he with he | he
    · exact hnone e he
    rw [List.mem_singleton.mp he]
    exact hentry
  · rw [htimes, hfrom]
    refine ⟨by simp [hhead], by simp, ?_⟩
    refine hchain.append (by simp) ?_
    intro x hx y hy
    rw [hlast] at hx
    simp only [Option.mem_def, Option.some.injEq, List.head?_cons] at hx hy
    omega

theorem Sound.capture_progress (now : Nat) :
    (s.capture_progress now).Sound (log ++ [s.entry (.capture_progress now)]) := by
  obtain ⟨hoff, hsame⟩ | ⟨hrequested, hpending, hretryable, hdone⟩ := capture_progress_cases s now
  · rw [hsame]
    refine ⟨h.explain rfl, h.within, h.spare, h.waiting, ?_, ?_⟩
    · exact fun hpending => Since.snoc (h.reported hpending) rfl
    · intro hrequested hpending hretryable
      simp [hrequested, hpending, hretryable] at hoff
  have hnever : ∀ {p : Prop}, s.pending = true → p := fun hp => absurd hp (by simp [hpending])
  obtain ⟨-, hrenewed⟩ | hgone := hdone
  · rw [hrenewed]
    refine ⟨h.explain rfl, Nat.zero_le _, fun hp => hnever hp, fun hp => hnever hp,
      fun hp => hnever hp, nofun⟩
  rw [hgone]
  refine ⟨h.explain rfl, h.within, fun hp => hnever hp, fun hp => hnever hp, fun hp => hnever hp, fun _ _ _ _ => ?_⟩
  obtain ⟨before, stretch, rfl, hstretch⟩ := h.stretch now hrequested hpending hretryable
  exact ⟨before, stretch ++ [s.entry (.capture_progress now)], by simp, hstretch⟩

theorem Sound.step (call : Call) : (SceneRecovery.step s call).Sound (log ++ [s.entry call]) := by
  cases call with
  | start => exact h.start
  | stop => exact h.stop
  | failed reason now => exact h.failed reason now
  | retry now pair fresh_pose => exact h.retry now pair fresh_pose
  | capture_progress now => exact h.capture_progress now
  | resumed_retained_resolution => exact h.resumed_retained_resolution

/-! ## The budget -/

/-- A call that does not renew the budget spends one for each retry it grants. -/
theorem Sound.spend {call : Call} (hcall : ¬Renews log (s.entry call)) :
    (SceneRecovery.step s call).attempts = s.attempts + if s.grants call then 1 else 0 := by
  cases call with
  | start => exact absurd (.inl rfl) hcall
  | stop => rfl
  | failed reason now =>
    show (s.failed reason now).attempts = s.attempts
    obtain ⟨hsame, -⟩ | ⟨-, -, hchanged⟩ := failed_cases s reason now
    · rw [hsame]
    · rw [hchanged]
  | retry now pair fresh_pose =>
    show (s.retry now pair fresh_pose).1.attempts = s.attempts + if (s.retry now pair fresh_pose).2 then 1 else 0
    rw [retry_fst, retry_snd]
    split <;> rfl
  | resumed_retained_resolution =>
    show s.resumed_retained_resolution.attempts = s.attempts
    unfold SceneRecovery.resumed_retained_resolution
    split <;> rfl
  | capture_progress now =>
    show (s.capture_progress now).attempts = s.attempts
    obtain ⟨-, hsame⟩ | ⟨hrequested, hpending, hretryable, hdone⟩ := capture_progress_cases s now
    · rw [hsame]
    obtain ⟨hlong, -⟩ | hgone := hdone
    · obtain ⟨before, stretch, hlog, hnone, hhead, hlast, hchain⟩ := h.stretch now hrequested hpending hretryable
      refine absurd (.inr ⟨⟨now, rfl⟩, before, stretch, hlog, hnone, ?_⟩) hcall
      exact ⟨_, now, hhead, hlast, hchain, hlong⟩
    · rw [hgone]

end

theorem Sound.run (calls : List Call) {s : Logged} (h : s.recovery.Sound s.log) :
    (run Logged.step s calls).recovery.Sound (run Logged.step s calls).log :=
  invariant (fun (s : Logged) call (h : s.recovery.Sound s.log) => h.step call) calls h

/-- How many retries were granted. -/
def granted (log : List Entry) : Nat := log.countP Entry.granted

theorem granted_snoc (log : List Entry) (e : Entry) :
    granted (log ++ [e]) = granted log + if e.granted then 1 else 0 := by
  simp only [granted, List.countP_append, List.countP_singleton]

/-- Without a renewal the grants are taken from the attempts. -/
theorem spent_run (segment : List Call) (s : Logged) (h : s.recovery.Sound s.log)
    (hsegment : Guarded Logged.step (fun s call => ¬Renews s.log (s.recovery.entry call)) s segment) :
    granted (run Logged.step s segment).log + s.recovery.attempts =
      granted s.log + (run Logged.step s segment).recovery.attempts := by
  induction segment generalizing s with
  | nil => rfl
  | cons call rest ih =>
    obtain ⟨hcall, hrest⟩ := hsegment
    have hspent := ih (s.step call) (h.step call) hrest
    have hone : (s.step call).recovery.attempts = _ := h.spend hcall
    have hlog : granted (s.step call).log = granted s.log + if s.recovery.grants call then 1 else 0 :=
      granted_snoc s.log (s.recovery.entry call)
    rw [run_cons]
    omega

/-! ## Refusals that are latched -/

/-- A recovery that stopped for a reason that is latched, and what it grants until a start or a
stop. -/
def Latched (reason : SceneStopReason) (attempts count : Nat) (s : Logged) : Prop :=
  latched_scene_stop reason = true ∧ s.recovery.reason = reason ∧ s.recovery.pending = false ∧
    s.recovery.attempts = attempts ∧ granted s.log = count

theorem Latched.step {attempts count : Nat} (s : Logged) (call : Call)
    (h : Latched reason attempts count s) (hcall : call ≠ .start ∧ call ≠ .stop) :
    Latched reason attempts count (s.step call) := by
  obtain ⟨hlatched, hreason, hpending, hattempts, hcount⟩ := h
  have hretryable : retryable_scene_stop s.recovery.reason = false := retryable_of_latched (hreason ▸ hlatched)
  have hlog : granted (s.step call).log = granted s.log + if s.recovery.grants call then 1 else 0 :=
    granted_snoc s.log (s.recovery.entry call)
  have hquiet : (s.recovery.step call).reason = reason ∧ (s.recovery.step call).pending = false ∧
      (s.recovery.step call).attempts = attempts ∧ s.recovery.grants call = false := by
    cases call with
    | start => exact absurd rfl hcall.1
    | stop => exact absurd rfl hcall.2
    | failed other now =>
      show (s.recovery.failed other now).reason = reason ∧ (s.recovery.failed other now).pending = false ∧
        (s.recovery.failed other now).attempts = attempts ∧ false = false
      obtain ⟨hsame, -⟩ | ⟨-, hkeeps, hchanged⟩ := failed_cases s.recovery other now
      · rw [hsame]
        exact ⟨hreason, hpending, hattempts, rfl⟩
      have hother := hkeeps (hreason ▸ hlatched)
      rw [hchanged]
      refine ⟨hother.trans hreason, ?_, hattempts, rfl⟩
      simp [hother, hretryable]
    | retry now pair fresh_pose =>
      have hno : s.recovery.may_retry now pair fresh_pose = false := by simp [may_retry, hpending]
      show (s.recovery.retry now pair fresh_pose).1.reason = reason ∧
        (s.recovery.retry now pair fresh_pose).1.pending = false ∧
        (s.recovery.retry now pair fresh_pose).1.attempts = attempts ∧
        (s.recovery.retry now pair fresh_pose).2 = false
      rw [retry_fst, retry_snd, hno]
      exact ⟨hreason, hpending, hattempts, rfl⟩
    | capture_progress now =>
      have hsame : s.recovery.capture_progress now = s.recovery := by
        simp [capture_progress, hretryable]
      rw [SceneRecovery.step, hsame]
      exact ⟨hreason, hpending, hattempts, rfl⟩
    | resumed_retained_resolution =>
      have hother : s.recovery.reason ≠ .resolution_changed := by
        rintro heq
        rw [← hreason, heq] at hlatched
        cases hlatched
      have hsame : s.recovery.resumed_retained_resolution = s.recovery := by
        simp [resumed_retained_resolution, hother]
      rw [SceneRecovery.step, hsame]
      exact ⟨hreason, hpending, hattempts, rfl⟩
  obtain ⟨hreason', hpending', hattempts', hgrants⟩ := hquiet
  refine ⟨hlatched, hreason', hpending', hattempts', ?_⟩
  rw [hlog, hgrants]
  simpa using hcount

/-! ## The law -/

/-- Over every sequence of calls: between two renewals of the budget three retries are granted at
most, each two seconds after the first report of its failure at the earliest and for an empty pair;
after a latched refusal the reason stays and no retry comes, up to the next start or stop. -/
theorem recovery_stays_within_its_budget (calls : List Call) :
    let s := run Logged.step {} calls
    (∀ segment, Guarded Logged.step (fun s call => ¬Renews s.log (s.recovery.entry call)) s segment →
      granted (run Logged.step s segment).log ≤ granted s.log + 3) ∧
    Explained Due s.log ∧
    (latched_scene_stop s.recovery.reason = true → ∀ later, (∀ call ∈ later, call ≠ .start ∧ call ≠ .stop) →
      let t := run Logged.step s later
      t.recovery.reason = s.recovery.reason ∧ t.recovery.pending = false ∧
        t.recovery.attempts = s.recovery.attempts ∧ granted t.log = granted s.log) := by
  intro s
  have h : s.recovery.Sound s.log := Sound.run calls .initial
  refine ⟨?_, h.due, ?_⟩
  · intro segment hsegment
    have hspent := spent_run segment s h hsegment
    have hwithin : (run Logged.step s segment).recovery.attempts ≤ 3 := (Sound.run segment h).within
    omega
  · intro hlatched later hlater t
    have hpending : s.recovery.pending = false := by
      by_contra hp
      have hretryable := (h.waiting (Bool.not_eq_false _ ▸ hp)).1
      rw [retryable_of_latched hlatched] at hretryable
      cases hretryable
    have hstill := guarded_invariant Latched.step later
      (⟨hlatched, rfl, hpending, rfl, rfl⟩ : Latched s.recovery.reason _ _ s)
      (guarded_of_forall later hlater)
    exact hstill.2

/-! ## The callers -/

/-- An update without callbacks decides to publish. -/
theorem decide_without_callbacks (controller : PairController) (manager : ManagerToken) :
    ∃ state blocked, controller.decide_update manager ⟨false, false, false⟩ =
      { controller with phase := .publishing state blocked } := by
  unfold decide_update rest
  split
  · exact ⟨_, _, rfl⟩
  split
  · exact ⟨_, _, rfl⟩
  split
  · exact ⟨_, _, rfl⟩
  · exact ⟨_, _, rfl⟩

theorem take_cases (controller : PairController) (manager : ManagerToken) (engine : EngineCallbacks) :
    (controller.take manager engine).phase = .deciding manager engine ∧
      ((controller.take manager engine).history = controller.history ∨
        ∃ enabled, (controller.take manager engine).history = controller.history ++ [.consumed enabled]) := by
  unfold take apply
  split
  · exact ⟨rfl, .inr ⟨true, rfl⟩⟩
  · exact ⟨rfl, .inr ⟨false, rfl⟩⟩
  · exact ⟨rfl, .inl rfl⟩

/-- Without callbacks an update takes the request, publishes and ends. -/
theorem process_without_callbacks_eq (controller : PairController) (manager : ManagerToken)
    (hidle : controller.phase = .idle) :
    ∃ state blocked, process_without_callbacks controller manager =
      { (publish { take
          { controller with phase := .taking manager ⟨false, false, false⟩ } manager
            ⟨false, false, false⟩ with phase := .publishing state blocked } state blocked) with
        phase := .idle } := by
  obtain ⟨hphase, -⟩ := take_cases
    { controller with phase := .taking manager ⟨false, false, false⟩ } manager ⟨false, false, false⟩
  obtain ⟨state, blocked, hdecide⟩ := decide_without_callbacks
    (take { controller with phase := .taking manager ⟨false, false, false⟩ } manager ⟨false, false, false⟩) manager
  have hfree : controller.processing = false := by rw [processing, hidle]
  refine ⟨state, blocked, ?_⟩
  simp only [process_without_callbacks, List.replicate, run_cons, run_nil, PairController.step,
    PairController.process_update, hfree, Bool.false_eq_true, if_false, resume, hphase,
    hdecide, publish]

end SceneRecovery

end taxi_camera.native_camera
