-- What the decisions of the watchdog say about the calls before them, for any
-- samples and releases: trips and recoveries alternate, and each decision has
-- the stall, the progress or the trips behind it that it stands for.
import TaxiCam.StallWatchdog

namespace taxi_camera

open runs FreezeWatchdog List
open Bool (and_eq_true false_ne_true)

/-! ## The samples of a log -/

/-- Each sample, the newest first, meets `P` with the ones before it, back to one at `since`. -/
inductive BackTo (P : Sample → List Sample → Prop) (since : Nat) : List Sample → Prop
  | there {s : Sample} {rest : List Sample} (hs : P s rest) (hsince : s.now_ms = since) :
    BackTo P since (s :: rest)
  | more {s : Sample} {rest : List Sample} (hs : P s rest) (h : BackTo P since rest) :
    BackTo P since (s :: rest)

/-- Armed, and the count is `value`. -/
def StillAt (count : Sample → Nat) (value : Nat) (s : Sample) (_rest : List Sample) : Prop :=
  s.armed = true ∧ count s = value

/-- Armed, and a count has changed; so has every one at the first armed sample after a gap. -/
def Progressing (s : Sample) (rest : List Sample) : Prop :=
  s.armed = true ∧
    ∀ before ∈ rest.head?, before.armed = true →
      if s.pulse_available then s.frame_pulse ≠ before.frame_pulse
      else s.sim_frames ≠ before.sim_frames

namespace LogEntry

def sample : LogEntry → Option Sample
  | ⟨.observe s, _⟩ => some s
  | ⟨.release, _⟩ => none

/-- A decision that moves the gate: true for a trip, false for a recovery. -/
def gate (e : LogEntry) : Option Bool :=
  if e.decision.trip then some true else if e.decision.recover then some false else none

/-- The time of a trip while cameras were requested. -/
def wanted_trip (e : LogEntry) : Option Nat :=
  if e.decision.trip && e.decision.cameras_wanted then e.sample.map (·.now_ms) else none

end LogEntry

namespace LoggedWatchdog

variable (l : LoggedWatchdog)

def samples : List Sample := l.log.filterMap LogEntry.sample

/-- The gate is closed: the last decision about it was a trip. -/
def closed : Bool := (l.log.filterMap LogEntry.gate).headD false

/-- A hold was decided, and no release was called since. -/
def holding : Bool :=
  (l.log.takeWhile fun e => decide (e.call ≠ .release)).any (·.decision.hold)

def wanted_trips : List Nat := l.log.filterMap LogEntry.wanted_trip

/-- The sample comes at a positive time, not before the samples before it. -/
def Timed (l : LoggedWatchdog) : Call → Prop
  | .release => True
  | .observe s =>
    0 < s.now_ms ∧ s.now_ms < 0x10000000000000000 ∧ ∀ before ∈ l.samples, before.now_ms ≤ s.now_ms

instance (l : LoggedWatchdog) : DecidablePred l.Timed
  | .release => .isTrue trivial
  | .observe s =>
    inferInstanceAs (Decidable (0 < s.now_ms ∧ s.now_ms < 0x10000000000000000 ∧
      ∀ before ∈ l.samples, before.now_ms ≤ s.now_ms))

/-- For three seconds of armed samples, up to this one, the count has not changed. -/
def Still (count : Sample → Nat) (samples : List Sample) (s : Sample) : Prop :=
  ∃ since, since + StallMs ≤ s.now_ms ∧ BackTo (StillAt count (count s)) since (s :: samples)

/-- The pulse is still when it is available, and so are the simulator's frames when there are any or
no pulse is available. -/
def Stalled (samples : List Sample) (s : Sample) : Prop :=
  (s.pulse_available = true → Still (·.frame_pulse) samples s) ∧
    (s.pulse_available = false ∨ s.sim_frames ≠ 0 → Still (·.sim_frames) samples s)

/-- What a call decides follows from the log. -/
structure Follows (l : LoggedWatchdog) (c : Call) : Prop where
  /-- Trips and recoveries alternate, the first is a trip. -/
  trip : (l.watchdog.call c).2.trip = true → l.closed = false
  recover : (l.watchdog.call c).2.recover = true → l.closed = true
  once : ¬ ((l.watchdog.call c).2.trip = true ∧ (l.watchdog.call c).2.recover = true)
  stalled : (l.watchdog.call c).2.trip = true → ∃ s, c = .observe s ∧ Stalled l.samples s
  resumed : ∀ s, c = .observe s → (l.watchdog.call c).2.recover = true →
    ∃ since, since + RecoveryMs ≤ s.now_ms ∧ BackTo Progressing since (s :: l.samples)
  repeated : (l.watchdog.call c).2.hold = true →
    ∃ s, c = .observe s ∧ s.cameras_wanted = true ∧
      HoldTrips ≤ l.wanted_trips.countP (recent s.now_ms)
  released : l.holding = true → ((l.watchdog.call c).2.recover = true ↔ c = .release)

end LoggedWatchdog

/-! ## The turns of `observe` -/

namespace FreezeWatchdog

/-- The counter that shows progress. -/
def progressing (w : FreezeWatchdog) (s : Sample) : Bool :=
  if s.pulse_available then w.pulse_advanced s else w.sim_advanced s

def quiet (s : Sample) : Decision := { worker_alive := s.worker_alive }

/-- What a sample can do. -/
inductive Observed (w : FreezeWatchdog) (s : Sample) : FreezeWatchdog × Decision → Prop
  | disarmed (harmed : s.armed = false) : Observed w s (w.disarm, quiet s)
  | waiting (harmed : s.armed = true) (htripped : w.tripped = true)
      (hwait : w.held = true ∨ w.progressing s = false) :
      Observed w s ({ w.track s with recover_since := 0 }, quiet s)
  | resuming (harmed : s.armed = true) (htripped : w.tripped = true) (hheld : w.held = false)
      (hprogress : w.progressing s = true) :
      Observed w s ({ w.track s with recover_since := s.now_ms }, quiet s)
  | running (harmed : s.armed = true) (htripped : w.tripped = true) (hheld : w.held = false)
      (hprogress : w.progressing s = true) (hsince : w.recover_since ≠ 0) :
      Observed w s (w.track s, quiet s)
  | holds (harmed : s.armed = true) (htripped : w.tripped = true) (hheld : w.held = false)
      (hprogress : w.progressing s = true) (hwanted : s.cameras_wanted = true)
      (htrips : w.recent_trips s.now_ms ≥ HoldTrips) :
      Observed w s ({ w.track s with recover_since := 0, held := true },
        { quiet s with hold := true, reason := "repeated_stalls" })
  | recovers (harmed : s.armed = true) (htripped : w.tripped = true) (hheld : w.held = false)
      (hprogress : w.progressing s = true) (hsince : w.recover_since ≠ 0)
      (helapsed : elapsed s.now_ms w.recover_since ≥ RecoveryMs) :
      Observed w s ({ w.track s with recover_since := 0, tripped := false },
        { quiet s with recover := true, reason := "presentation_resumed" })
  | trips (harmed : s.armed = true) (htripped : w.tripped = false)
      (hstalled : (w.track s).stalled s = true) : Observed w s ((w.track s).trip s)
  | notes (harmed : s.armed = true) (htripped : w.tripped = false) :
      Observed w s ((w.track s).note s)

theorem observed (w : FreezeWatchdog) (s : Sample) : Observed w s (w.observe s) := by
  unfold observe
  rcases harmed : s.armed with _ | _
  · exact .disarmed harmed
  rw [if_neg (by decide)]
  rcases htripped : w.tripped with _ | _
  · rw [if_neg (by decide)]
    split
    · exact .trips harmed htripped ‹_›
    · exact .notes harmed htripped
  rw [if_pos rfl]
  have hheld : (w.track s).held = w.held := rfl
  have hsince : (w.track s).recover_since = w.recover_since := rfl
  have htrips : (w.track s).recent_trips s.now_ms = w.recent_trips s.now_ms := rfl
  have hprogressing : (if s.pulse_available = true then w.pulse_advanced s else w.sim_advanced s) =
      w.progressing s := rfl
  unfold resume
  rw [hheld, hsince, htrips, hprogressing]
  split
  · exact .waiting harmed htripped ‹_›
  rename_i hgo
  push Not at hgo
  have hheld : w.held = false := Bool.eq_false_iff.mpr hgo.1
  have hprogress : w.progressing s = true := Bool.ne_false_iff.mp hgo.2
  split
  · exact .resuming harmed htripped hheld hprogress
  split
  · split
    · rename_i hhold
      exact .holds harmed htripped hheld hprogress hhold.1 hhold.2
    · exact .recovers harmed htripped hheld hprogress ‹_› ‹_›
  · exact .running harmed htripped hheld hprogress ‹_›

end FreezeWatchdog

/-! ## The timers -/

/-- A timer of a count runs since the count of the last armed samples is what it is. -/
structure Timer (count : Sample → Nat) (last since : Nat) (samples : List Sample) : Prop where
  armed : ∀ s ∈ samples.head?, s.armed = true →
    last = count s ∧ since ≠ 0 ∧ BackTo (StillAt count last) since samples
  unarmed : (∀ s ∈ samples.head?, s.armed = false) → since = 0

variable {samples : List Sample} {last since : Nat} {s : Sample} {count : Sample → Nat}

theorem Timer.running (h : Timer count last since samples) (hsince : since ≠ 0) :
    BackTo (StillAt count last) since samples := by
  by_contra hno
  apply hsince
  apply h.unarmed
  intro s hs
  rcases harmed : s.armed with _ | _
  · rfl
  · exact absurd (h.armed s hs harmed).2.2 hno

theorem Timer.disarm (count : Sample → Nat) (last : Nat) (samples : List Sample)
    (harmed : s.armed = false) : Timer count last 0 (s :: samples) := by
  refine ⟨?_, fun _ => rfl⟩
  rintro before ⟨⟩ hbefore
  rw [harmed] at hbefore
  cases hbefore

/-- An armed sample starts the timer, or its count is the one that the timer is for. -/
theorem Timer.track (h : Timer count last since samples) (harmed : s.armed = true) (hnow : 0 < s.now_ms)
    {start : Bool} (hsame : start = false → since ≠ 0 ∧ count s = last) :
    Timer count (if start then count s else last) (if start then s.now_ms else since) (s :: samples) := by
  refine ⟨?_, fun hno => absurd (harmed.symm.trans (hno s rfl)) (by decide)⟩
  rintro before ⟨⟩ -
  cases start with
  | true => exact ⟨rfl, Nat.pos_iff_ne_zero.mp hnow, .there ⟨harmed, rfl⟩ rfl⟩
  | false =>
    obtain ⟨hsince, hcount⟩ := hsame rfl
    exact ⟨hcount.symm, hsince, .more ⟨harmed, hcount⟩ (h.running hsince)⟩

theorem BackTo.mem {P : Sample → List Sample → Prop}
    (h : BackTo P since samples) : ∃ s ∈ samples, s.now_ms = since := by
  induction h with
  | there hs hsince => exact ⟨_, mem_cons_self, hsince⟩
  | more hs h ih =>
    obtain ⟨s, hmem, hsince⟩ := ih
    exact ⟨s, mem_cons_of_mem _ hmem, hsince⟩

/-- A timer that has run out is for the count of the sample. -/
theorem Timer.still (h : Timer count last since (s :: samples)) (harmed : s.armed = true)
    (hlong : s.now_ms ≥ since ∧ s.now_ms - since ≥ StallMs) : LoggedWatchdog.Still count samples s := by
  obtain ⟨hlast, -, hback⟩ := h.armed s rfl harmed
  rw [hlast] at hback
  refine ⟨since, ?_, hback⟩
  omega

/-! ## The log and the watchdog -/

namespace LoggedWatchdog

variable {l : LoggedWatchdog} {s : Sample} {out : FreezeWatchdog × Decision}

/-- The log after a sample. -/
def observes (l : LoggedWatchdog) (s : Sample) (out : FreezeWatchdog × Decision) : LoggedWatchdog :=
  ⟨out.1, ⟨.observe s, out.2⟩ :: l.log⟩

theorem closed_observes : (l.observes s out).closed =
    if out.2.trip then true else if out.2.recover then false else l.closed := by
  unfold closed observes
  rw [filterMap_cons]
  unfold LogEntry.gate
  cases out.2.trip <;> cases out.2.recover <;> rfl

theorem holding_observes : (l.observes s out).holding = (out.2.hold || l.holding) := rfl

theorem wanted_trips_observes : (l.observes s out).wanted_trips =
    if out.2.trip && out.2.cameras_wanted then s.now_ms :: l.wanted_trips else l.wanted_trips := by
  unfold wanted_trips observes
  rw [filterMap_cons]
  unfold LogEntry.wanted_trip
  cases out.2.trip && out.2.cameras_wanted <;> rfl

/-- What the watchdog knows of its log. -/
structure Traced (l : LoggedWatchdog) : Prop where
  pulse : Timer (·.frame_pulse) l.watchdog.last_pulse l.watchdog.pulse_since l.samples
  sim : Timer (·.sim_frames) l.watchdog.last_sim l.watchdog.sim_since l.samples
  progress : l.watchdog.recover_since ≠ 0 → BackTo Progressing l.watchdog.recover_since l.samples
  idle : l.watchdog.tripped = false → l.watchdog.recover_since = 0
  closed : l.watchdog.tripped = l.closed
  holding : l.watchdog.held = l.holding
  held : l.watchdog.held = true → l.watchdog.tripped = true
  trips : (l.watchdog.trip_ms.filter (decide <| · ≠ 0)).Subperm l.wanted_trips

theorem traced_initial : Traced {} where
  pulse := ⟨nofun, fun _ => rfl⟩
  sim := ⟨nofun, fun _ => rfl⟩
  progress h := absurd rfl h
  idle _ := rfl
  closed := rfl
  holding := rfl
  held h := by cases h
  trips := by decide

theorem Traced.pulse_track (h : Traced l) (harmed : s.armed = true) (hnow : 0 < s.now_ms) :
    Timer (·.frame_pulse) (l.watchdog.track s).last_pulse (l.watchdog.track s).pulse_since (s :: l.samples) := by
  apply h.pulse.track harmed hnow
  intro hsame
  rw [Bool.or_eq_false_iff, Bool.not_eq_false'] at hsame
  unfold pulse_advanced at hsame
  rw [hsame.2, Bool.true_and, Bool.or_eq_false_iff, decide_eq_false_iff_not,
    decide_eq_false_iff_not, not_not] at hsame
  exact hsame.1

theorem Traced.sim_track (h : Traced l) (harmed : s.armed = true) (hnow : 0 < s.now_ms) :
    Timer (·.sim_frames) (l.watchdog.track s).last_sim (l.watchdog.track s).sim_since (s :: l.samples) := by
  apply h.sim.track harmed hnow
  intro hsame
  unfold sim_advanced at hsame
  rw [Bool.or_eq_false_iff, decide_eq_false_iff_not, decide_eq_false_iff_not, not_not] at hsame
  exact hsame

theorem Traced.progressing (h : Traced l) (harmed : s.armed = true)
    (hprogress : l.watchdog.progressing s = true) : Progressing s l.samples := by
  refine ⟨harmed, ?_⟩
  intro before hbefore harmed'
  obtain ⟨hpulse, hpulse_since, -⟩ := h.pulse.armed before hbefore harmed'
  obtain ⟨hsim, hsim_since, -⟩ := h.sim.armed before hbefore harmed'
  unfold FreezeWatchdog.progressing pulse_advanced sim_advanced at hprogress
  rw [hpulse, hsim] at hprogress
  rcases havailable : s.pulse_available with _ | _
  · simpa [havailable, hsim_since] using hprogress
  · simpa [havailable, hpulse_since] using hprogress

theorem set_subperm (times : List Nat) (i t : Nat) : (times.set i t).Subperm (t :: times) := by
  induction times generalizing i with
  | nil => exact nil_subperm
  | cons a rest ih =>
    cases i with
    | zero => exact ((sublist_cons_self a rest).cons_cons t).subperm
    | succ i =>
      have hrest : (a :: rest.set i t).Subperm (a :: t :: rest) := (subperm_cons a).mpr (ih i)
      exact hrest.trans (List.Perm.swap t a rest).subperm

/-- A sample that leaves the trips as they are. -/
theorem Traced.next (h : Traced l) (htimers : out.1.trip_ms = l.watchdog.trip_ms)
    (hpulse : Timer (·.frame_pulse) out.1.last_pulse out.1.pulse_since (s :: l.samples))
    (hsim : Timer (·.sim_frames) out.1.last_sim out.1.sim_since (s :: l.samples))
    (hprogress : out.1.recover_since ≠ 0 → BackTo Progressing out.1.recover_since (s :: l.samples))
    (hidle : out.1.tripped = false → out.1.recover_since = 0) (htrip : out.2.trip = false)
    (hclosed : out.1.tripped = (!out.2.recover && l.watchdog.tripped))
    (hholding : out.1.held = (out.2.hold || l.watchdog.held))
    (hheld : out.1.held = true → out.1.tripped = true) : Traced (l.observes s out) where
  pulse := hpulse
  sim := hsim
  progress := hprogress
  idle := hidle
  closed := by
    rw [closed_observes, htrip, if_neg (by decide), ← h.closed]
    unfold observes
    rw [hclosed]
    cases out.2.recover <;> rfl
  holding := by
    rw [holding_observes, ← h.holding]
    exact hholding
  held := hheld
  trips := by
    rw [wanted_trips_observes, htrip, Bool.false_and, if_neg (by decide)]
    unfold observes
    rw [htimers]
    exact h.trips

theorem Traced.trips_track (h : Traced l) (hnow : 0 < s.now_ms) :
    let out := (l.watchdog.track s).trip s
    (out.1.trip_ms.filter (decide <| · ≠ 0)).Subperm (l.observes s out).wanted_trips := by
  dsimp only
  rw [wanted_trips_observes]
  unfold trip
  rw [Bool.true_and]
  rcases hwanted : (l.watchdog.track s).wanted_at_progress with _ | _
  · exact h.trips
  rw [if_pos rfl, if_pos rfl, if_pos (Nat.pos_iff_ne_zero.mp hnow)]
  have hset := (set_subperm (l.watchdog.track s).trip_ms
    ((l.watchdog.track s).counted % HoldTrips) s.now_ms).filter (decide <| · ≠ 0)
  rw [filter_cons_of_pos (by simpa using Nat.pos_iff_ne_zero.mp hnow)] at hset
  exact hset.trans ((subperm_cons _).mpr h.trips)

theorem Traced.observe (h : Traced l) (ht : l.Timed (.observe s)) : Traced (l.step (.observe s)) := by
  obtain ⟨hnow, -, -⟩ := ht
  have hobserved := observed l.watchdog s
  have hstep : l.step (.observe s) = l.observes s (l.watchdog.observe s) := rfl
  rw [hstep]
  have hpulse := fun harmed => h.pulse_track harmed hnow
  have hsim := fun harmed => h.sim_track harmed hnow
  generalize l.watchdog.observe s = out at hobserved
  cases hobserved with
  | disarmed harmed =>
    have hnone : l.watchdog.disarm.recover_since = 0 := rfl
    exact h.next rfl (Timer.disarm _ _ _ harmed) (Timer.disarm _ _ _ harmed)
      (fun hsince => absurd hnone hsince) (fun _ => hnone) rfl rfl rfl h.held
  | waiting harmed htripped hwait =>
    exact h.next rfl (hpulse harmed) (hsim harmed) (fun hsince => absurd rfl hsince) (fun _ => rfl) rfl rfl rfl h.held
  | resuming harmed htripped hheld hprogress =>
    exact h.next rfl (hpulse harmed) (hsim harmed) (fun _ => .there (h.progressing harmed hprogress) rfl)
      (fun hno => absurd (htripped.symm.trans hno) (by decide)) rfl rfl rfl h.held
  | running harmed htripped hheld hprogress hsince =>
    exact h.next rfl (hpulse harmed) (hsim harmed)
      (fun _ => .more (h.progressing harmed hprogress) (h.progress hsince)) h.idle rfl rfl rfl h.held
  | holds harmed htripped hheld hprogress hwanted htrips =>
    exact h.next rfl (hpulse harmed) (hsim harmed) (fun hsince => absurd rfl hsince) (fun _ => rfl)
      rfl rfl rfl fun _ => htripped
  | recovers harmed htripped hheld hprogress hsince helapsed =>
    exact h.next rfl (hpulse harmed) (hsim harmed) (fun hsince => absurd rfl hsince) (fun _ => rfl)
      rfl rfl rfl fun hno => absurd (hheld.symm.trans hno) (by decide)
  | trips harmed htripped hstalled =>
    refine ⟨hpulse harmed, hsim harmed, fun hno => absurd rfl hno, fun _ => rfl, ?_, ?_, fun _ => rfl,
      h.trips_track hnow⟩
    · rw [closed_observes]
      rfl
    · rw [holding_observes, ← h.holding]
      rfl
  | notes harmed htripped =>
    exact h.next rfl (hpulse harmed) (hsim harmed) (fun hsince => absurd (h.idle htripped) hsince)
      h.idle rfl rfl rfl h.held

theorem Traced.release (h : Traced l) : Traced (l.step .release) := by
  unfold step call FreezeWatchdog.release
  rcases hheld : l.watchdog.held with _ | _
  · exact ⟨h.pulse, h.sim, h.progress, h.idle, h.closed, hheld, h.held, h.trips⟩
  exact ⟨h.pulse, h.sim, fun hno => absurd rfl hno, fun _ => rfl, rfl, rfl,
    fun hno => absurd hno false_ne_true, h.trips⟩

theorem Traced.step {c : Call} (h : Traced l) (ht : l.Timed c) : Traced (l.step c) := by
  cases c with
  | observe s => exact h.observe ht
  | release => exact h.release

/-! ## The rules -/

/-- The rules are about what a sample decides. -/
theorem Follows.of_out (hout : l.watchdog.observe s = out)
    (trip : out.2.trip = true → l.closed = false) (recover : out.2.recover = true → l.closed = true)
    (once : ¬ (out.2.trip = true ∧ out.2.recover = true))
    (stalled : out.2.trip = true → Stalled l.samples s)
    (resumed : out.2.recover = true →
      ∃ since, since + RecoveryMs ≤ s.now_ms ∧ BackTo Progressing since (s :: l.samples))
    (repeated : out.2.hold = true → s.cameras_wanted = true ∧ HoldTrips ≤ l.wanted_trips.countP (recent s.now_ms))
    (released : l.holding = true → out.2.recover = false) : l.Follows (.observe s) := by
  subst hout
  refine ⟨trip, recover, once, fun htrip => ⟨s, rfl, stalled htrip⟩, ?_, ?_, ?_⟩
  · rintro _ ⟨⟩ hrecover
    exact resumed hrecover
  · exact fun hhold => ⟨s, rfl, repeated hhold⟩
  · intro hholding
    refine iff_of_false ?_ nofun
    rw [Bool.not_eq_true]
    exact released hholding

/-- A sample that decides nothing about the gate. -/
theorem Follows.of_quiet (hout : l.watchdog.observe s = out) (htrip : out.2.trip = false)
    (hrecover : out.2.recover = false) (hhold : out.2.hold = false) : l.Follows (.observe s) := by
  apply of_out hout
  · exact fun h => absurd (htrip.symm.trans h) false_ne_true
  · exact fun h => absurd (hrecover.symm.trans h) false_ne_true
  · exact fun h => absurd (htrip.symm.trans h.1) false_ne_true
  · exact fun h => absurd (htrip.symm.trans h) false_ne_true
  · exact fun h => absurd (hrecover.symm.trans h) false_ne_true
  · exact fun h => absurd (hhold.symm.trans h) false_ne_true
  · exact fun _ => hrecover

theorem Traced.stalled (h : Traced l) (harmed : s.armed = true) (hnow : 0 < s.now_ms)
    (hstalled : (l.watchdog.track s).stalled s = true) : Stalled l.samples s := by
  have hpulse := h.pulse_track harmed hnow
  have hsim := h.sim_track harmed hnow
  generalize l.watchdog.track s = w at hstalled hpulse hsim
  have hlong {a b : Nat} (hms : (if a ≥ b then a - b else 0) ≥ StallMs) : a ≥ b ∧ a - b ≥ StallMs := by
    unfold StallMs at hms ⊢
    split at hms <;> omega
  have hsim_still (hms : w.sim_stalled s = true) : Still (·.sim_frames) l.samples s :=
    hsim.still harmed (hlong (of_decide_eq_true hms))
  unfold FreezeWatchdog.stalled at hstalled
  rw [Bool.or_eq_true, and_eq_true, and_eq_true, Bool.or_eq_true, decide_eq_true_eq, Bool.not_eq_true'] at hstalled
  rcases hstalled with ⟨hpulse_stalled, hsim_stalled⟩ | ⟨havailable, htelemetry⟩
  · unfold pulse_stalled pulse_stalled_ms at hpulse_stalled
    rw [and_eq_true, decide_eq_true_eq] at hpulse_stalled
    obtain ⟨havailable, hms⟩ := hpulse_stalled
    simp only [havailable, true_and] at hms
    refine ⟨fun _ => hpulse.still harmed (hlong hms), ?_⟩
    rintro (hno | hsome)
    · exact absurd (havailable.symm.trans hno) (by decide)
    · exact hsim_still (hsim_stalled.resolve_right hsome)
  unfold telemetry_stalled at htelemetry
  rw [and_eq_true] at htelemetry
  refine ⟨?_, fun _ => hsim_still htelemetry.2⟩
  exact fun hyes => absurd (havailable.symm.trans hyes) false_ne_true

theorem Traced.resumed (h : Traced l) (ht : l.Timed (.observe s)) (harmed : s.armed = true)
    (hprogress : l.watchdog.progressing s = true) (hsince : l.watchdog.recover_since ≠ 0)
    (helapsed : elapsed s.now_ms l.watchdog.recover_since ≥ RecoveryMs) :
    ∃ since, since + RecoveryMs ≤ s.now_ms ∧ BackTo Progressing since (s :: l.samples) := by
  have hback := h.progress hsince
  obtain ⟨before, hbefore, heq⟩ := hback.mem
  obtain ⟨-, hbound, hordered⟩ := ht
  have hle := hordered before hbefore
  refine ⟨l.watchdog.recover_since, ?_, .more (h.progressing harmed hprogress) hback⟩
  unfold elapsed at helapsed
  omega

/-- The trip times that the watchdog keeps are of different trips. -/
theorem Traced.repeated (h : Traced l) {now_ms : Nat} (htrips : l.watchdog.recent_trips now_ms ≥ HoldTrips) :
    HoldTrips ≤ l.wanted_trips.countP (recent now_ms) := by
  apply Nat.le_trans htrips
  apply Nat.le_trans _ (h.trips.countP_le (recent now_ms))
  rw [countP_filter]
  apply countP_mono_left
  intro at_ms _ hrecent
  rw [and_eq_true, decide_eq_true_eq]
  exact ⟨hrecent, (of_decide_eq_true hrecent).1⟩

theorem Traced.follows_observe (h : Traced l) (ht : l.Timed (.observe s)) : l.Follows (.observe s) := by
  have hobserved := observed l.watchdog s
  generalize hout : l.watchdog.observe s = out at hobserved
  cases hobserved with
  | disarmed harmed => exact .of_quiet hout rfl rfl rfl
  | waiting harmed htripped hwait => exact .of_quiet hout rfl rfl rfl
  | resuming harmed htripped hheld hprogress => exact .of_quiet hout rfl rfl rfl
  | running harmed htripped hheld hprogress hsince => exact .of_quiet hout rfl rfl rfl
  | notes harmed htripped => exact .of_quiet hout rfl rfl rfl
  | holds harmed htripped hheld hprogress hwanted htrips =>
    apply Follows.of_out hout nofun nofun nofun nofun nofun
    · exact fun _ => ⟨hwanted, h.repeated htrips⟩
    · exact fun _ => rfl
  | recovers harmed htripped hheld hprogress hsince helapsed =>
    apply Follows.of_out hout nofun _ nofun nofun _ nofun
    · exact fun hholding => absurd (hheld.symm.trans (h.holding.trans hholding)) false_ne_true
    · exact fun _ => h.closed ▸ htripped
    · exact fun _ => h.resumed ht harmed hprogress hsince helapsed
  | trips harmed htripped hstalled =>
    apply Follows.of_out hout _ nofun nofun _ nofun nofun
    · exact fun _ => rfl
    · exact fun _ => h.closed ▸ htripped
    · exact fun _ => h.stalled harmed ht.1 hstalled

theorem Traced.follows_release (h : Traced l) : l.Follows .release := by
  have hrelease : (l.watchdog.call .release).2 = if l.watchdog.held = false then {}
      else { recover := true, reason := "released_after_hold" } := by
    unfold call FreezeWatchdog.release
    dsimp only
    split <;> rfl
  rcases hheld : l.watchdog.held with _ | _
  · rw [hheld, if_pos rfl] at hrelease
    refine ⟨?_, ?_, ?_, ?_, nofun, ?_, ?_⟩ <;> rw [hrelease]
    · exact nofun
    · exact nofun
    · exact nofun
    · exact nofun
    · exact nofun
    · intro hholding
      exact absurd (hheld.symm.trans (h.holding.trans hholding)) false_ne_true
  rw [hheld, if_neg (by decide)] at hrelease
  refine ⟨?_, ?_, ?_, ?_, nofun, ?_, ?_⟩ <;> rw [hrelease]
  · exact nofun
  · exact fun _ => h.closed ▸ h.held hheld
  · exact nofun
  · exact nofun
  · exact nofun
  · exact fun _ => iff_of_true rfl rfl

theorem Traced.follows {c : Call} (h : Traced l) (ht : l.Timed c) : l.Follows c := by
  cases c with
  | observe s => exact h.follows_observe ht
  | release => exact h.follows_release

/-- For any samples in order of time and any releases, every decision follows from the calls before
it. -/
theorem decisions_follow (calls : List Call) (h : Guarded step Timed {} calls) : Guarded step Follows {} calls :=
  guarded_of_invariant (fun _ _ (hl : Traced _) ht => ⟨hl.follows ht, hl.step ht⟩) calls traced_initial h

end LoggedWatchdog

end taxi_camera
