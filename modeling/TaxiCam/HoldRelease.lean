-- A hold of the watchdog and its release: the watchdog's thread and the
-- bridge's worker share two atomics, and for any interleaving each hold is
-- released at most once, for a known OFF that the worker saw in it.
-- `StallHoldRelease` of src/bridge/freeze_watchdog.hpp, `watchdog_run` and
-- `request_hold_release` of src/bridge/bridge_main.cpp.
import TaxiCam.WatchdogRules

namespace taxi_camera

open runs FreezeWatchdog

/-! ## The worker -/

/-- The pilot's own camera request is known to be off. -/
def stall_hold_known_off (connected enabled scene_test : Bool) (requested_mask : Nat)
    (uses_buttons buttons_valid : Bool) : Bool :=
  !connected || !enabled ||
    (!scene_test && decide (requested_mask = 0) && (!uses_buttons || buttons_valid))

structure StallHoldRelease where
  requested : Bool := false
deriving DecidableEq

/-- One release request a hold. -/
def StallHoldRelease.observe (r : StallHoldRelease) (held known_off : Bool) :
    Bool × StallHoldRelease :=
  if held = false then (false, { requested := false })
  else if known_off = false ∨ r.requested = true then (false, r)
  else (true, { requested := true })

/-! ## The two threads -/

/-- Where the watchdog's thread is in its turn. -/
inductive WatchdogPhase
  | observing | releasing | publishing
deriving DecidableEq

inductive HoldEvent
  | held
  | requested (known_off : Bool)
  | released
deriving DecidableEq

structure HoldSystem where
  watchdog : FreezeWatchdog := {}
  phase : WatchdogPhase := .observing
  /-- The sample of this turn tripped, recovered or held. -/
  decided : Bool := false
  release_seen : Nat := 0
  watchdog_held : Bool := false
  watchdog_release_requests : Nat := 0
  hold_release : StallHoldRelease := {}
  /-- The worker is about to count its request. -/
  requesting : Bool := false
  /-- What happened, the last event first. -/
  events : List HoldEvent := []

/-- A step of the watchdog's thread, or of the worker. -/
inductive HoldStep
  | sample (s : Sample)
  | consume
  | publish
  | poll (known_off : Bool)
  | request

namespace HoldSystem

variable (h : HoldSystem)

def sample (s : Sample) : HoldSystem :=
  let out := h.watchdog.observe s
  { h with
    watchdog := out.1
    phase := .releasing
    decided := out.2.trip || out.2.recover || out.2.hold
    events := if out.2.hold then .held :: h.events else h.events }

/-- A new request releases the hold, unless this turn decided something else. -/
def consume : HoldSystem :=
  if h.watchdog_release_requests ≠ h.release_seen then
    let seen := { h with phase := .publishing, release_seen := h.watchdog_release_requests }
    if h.decided then seen
    else
      let out := h.watchdog.release
      { seen with
        watchdog := out.1
        events := if out.2.recover then .released :: h.events else h.events }
  else { h with phase := .publishing }

def publish : HoldSystem := { h with phase := .observing, watchdog_held := h.watchdog.held }

def poll (known_off : Bool) : HoldSystem :=
  let out := h.hold_release.observe h.watchdog_held known_off
  { h with
    hold_release := out.2
    requesting := out.1
    events := if out.1 then .requested known_off :: h.events else h.events }

def request : HoldSystem :=
  { h with
    requesting := false
    watchdog_release_requests := (h.watchdog_release_requests + 1) % 0x100000000 }

/-- Each thread takes its steps in its own order; a step out of turn does nothing. -/
def step : HoldStep → HoldSystem
  | .sample s => if h.phase = .observing then h.sample s else h
  | .consume => if h.phase = .releasing then h.consume else h
  | .publish => if h.phase = .publishing then h.publish else h
  | .poll known_off => if h.requesting = false then h.poll known_off else h
  | .request => if h.requesting = true then h.request else h

end HoldSystem

/-! ## Every hold in turn -/

/-- The event after these: a hold, a request for it on a known OFF, its release. -/
def HoldEvent.due : List HoldEvent → HoldEvent
  | [] => .held
  | .held :: _ => .requested true
  | .requested _ :: _ => .released
  | .released :: _ => .held

/-- Each event is the one that was due. -/
def InTurn : List HoldEvent → Prop
  | [] => True
  | e :: rest => e = HoldEvent.due rest ∧ InTurn rest

namespace HoldSystem

/-- A request is on its way to the watchdog. -/
def Pending (h : HoldSystem) : Prop :=
  h.requesting = true ∨ h.watchdog_release_requests ≠ h.release_seen

instance (h : HoldSystem) : Decidable h.Pending := by
  unfold Pending
  infer_instance

structure Paced (h : HoldSystem) : Prop where
  events : InTurn h.events
  tripped : h.watchdog.held = true → h.watchdog.tripped = true
  /-- What the events end with. -/
  due : HoldEvent.due h.events =
    if h.watchdog.held = false then .held else if h.Pending then .released else .requested true
  pending : h.Pending →
    h.watchdog.held = true ∧ h.watchdog_held = true ∧ h.hold_release.requested = true
  one : h.requesting = true → h.watchdog_release_requests = h.release_seen
  published : h.watchdog_held = true → h.watchdog.held = true ∨ h.hold_release.requested = true
  observing : h.phase = .observing → h.watchdog_held = h.watchdog.held
  releasing : h.phase = .releasing → h.watchdog_held = true → h.decided = false

end HoldSystem

namespace FreezeWatchdog

variable {w : FreezeWatchdog}

/-- A hold lasts through every sample, and a sample decides nothing in it. -/
theorem observe_held (hheld : w.held = true) (htripped : w.tripped = true) (s : Sample) :
    (w.observe s).1.held = true ∧ (w.observe s).1.tripped = true ∧
      (w.observe s).2.trip = false ∧ (w.observe s).2.recover = false ∧
      (w.observe s).2.hold = false := by
  have hobserved := observed w s
  generalize w.observe s = out at hobserved
  cases hobserved with
  | disarmed | waiting => exact ⟨hheld, htripped, rfl, rfl, rfl⟩
  | resuming _ _ hfree | running _ _ hfree | holds _ _ hfree | recovers _ _ hfree =>
    exact absurd (hheld.symm.trans hfree) (by decide)
  | trips _ hfree | notes _ hfree => exact absurd (htripped.symm.trans hfree) (by decide)

/-- A sample holds when it says so, with the gate closed. -/
theorem observe_not_held (hheld : w.held = false) (s : Sample) :
    (w.observe s).1.held = (w.observe s).2.hold ∧ ((w.observe s).2.hold = true → (w.observe s).1.tripped = true) := by
  have hobserved := observed w s
  generalize w.observe s = out at hobserved
  cases hobserved with
  | holds _ htripped => exact ⟨rfl, fun _ => htripped⟩
  | _ => exact ⟨hheld, nofun⟩

theorem release_held (hheld : w.held = true) : w.release.1.held = false ∧ w.release.2.recover = true := by
  unfold release
  rw [hheld, if_neg (by decide)]
  exact ⟨rfl, rfl⟩

end FreezeWatchdog

namespace HoldSystem

variable {h : HoldSystem}

theorem paced_initial : Paced {} where
  events := trivial
  tripped := nofun
  due := rfl
  pending := by decide
  one := nofun
  published := nofun
  observing _ := rfl
  releasing := nofun

theorem Paced.sample (hp : Paced h) (hphase : h.phase = .observing) (s : Sample) : Paced (h.sample s) := by
  have hsame := hp.observing hphase
  have hdue := hp.due
  rcases hheld : h.watchdog.held with _ | _
  · obtain ⟨hhold, htripped⟩ := observe_not_held hheld s
    have hidle : ¬ h.Pending := by
      intro hpending
      exact absurd ((hp.pending hpending).1.symm.trans hheld) (by decide)
    rw [hheld, if_pos rfl] at hdue
    unfold HoldSystem.sample
    refine ⟨?_, ?_, ?_, fun hpending => absurd hpending hidle, hp.one, ?_, nofun, ?_⟩
    · dsimp only
      split
      · exact ⟨hdue.symm, hp.events⟩
      · exact hp.events
    · rw [hhold]
      exact htripped
    · dsimp only
      rw [hhold]
      rcases (h.watchdog.observe s).2.hold with _ | _
      · exact hdue
      · exact (if_neg hidle).symm
    · rw [hsame, hheld]
      exact nofun
    · rw [hsame, hheld]
      exact nofun
  · obtain ⟨hheld', htripped', htrip, hrecover, hhold⟩ := observe_held hheld (hp.tripped hheld) s
    unfold HoldSystem.sample
    dsimp only
    rw [hhold, htrip, hrecover]
    refine ⟨hp.events, fun _ => htripped', ?_, fun hpending => ⟨hheld', (hp.pending hpending).2⟩,
      hp.one, fun _ => .inl hheld', nofun, fun _ _ => rfl⟩
    rw [hheld] at hdue
    rw [hheld', if_neg (by decide)]
    exact hdue

theorem Paced.consume (hp : Paced h) (hphase : h.phase = .releasing) : Paced h.consume := by
  unfold HoldSystem.consume
  by_cases hnew : h.watchdog_release_requests = h.release_seen
  · rw [if_neg (not_not.mpr hnew)]
    exact ⟨hp.events, hp.tripped, hp.due, hp.pending, hp.one, hp.published, nofun, nofun⟩
  have hpending : h.Pending := .inr hnew
  obtain ⟨hheld, hpublished, hrequested⟩ := hp.pending hpending
  have hdue := hp.due
  have hidle : h.requesting = false := by
    rw [← Bool.not_eq_true]
    exact fun hrequesting => hnew (hp.one hrequesting)
  obtain ⟨hreleased, hrecover⟩ := release_held hheld
  rw [if_pos hnew, hp.releasing hphase hpublished, if_neg Bool.false_ne_true]
  rw [hheld, if_neg (by decide), if_pos hpending] at hdue
  dsimp only
  rw [hrecover, if_pos rfl]
  have hnone : ¬ (h.requesting = true ∨ h.watchdog_release_requests ≠ h.watchdog_release_requests) := by
    simp [hidle]
  refine ⟨⟨hdue.symm, hp.events⟩, ?_, ?_, fun hpending' => absurd hpending' hnone, fun _ => rfl,
    fun _ => .inr hrequested, nofun, nofun⟩
  · rw [hreleased]
    exact nofun
  · rw [hreleased]
    rfl

theorem Paced.publish (hp : Paced h) : Paced h.publish := by
  refine ⟨hp.events, hp.tripped, hp.due, ?_, hp.one, .inl, fun _ => rfl, nofun⟩
  intro hpending
  obtain ⟨hheld, -, hrequested⟩ := hp.pending hpending
  exact ⟨hheld, hheld, hrequested⟩

theorem Paced.poll (hp : Paced h) (hidle : h.requesting = false) (known_off : Bool) : Paced (h.poll known_off) := by
  have hsame (requested : Bool) (hkeeps : h.Pending → requested = true)
      (hpublished : h.watchdog_held = true → h.watchdog.held = true ∨ requested = true) :
      Paced { h with hold_release := { requested }, requesting := false } := by
    have hpending : Pending { h with hold_release := { requested }, requesting := false } ↔ h.Pending := by
      unfold Pending
      rw [hidle]
    refine ⟨hp.events, hp.tripped, ?_, ?_, nofun, hpublished, hp.observing, hp.releasing⟩
    · rw [hp.due]
      by_cases hnow : h.Pending
      · rw [if_pos hnow, if_pos (hpending.mpr hnow)]
      · rw [if_neg hnow, if_neg fun h => hnow (hpending.mp h)]
    · intro hnow
      obtain ⟨hheld, hpublished, -⟩ := hp.pending (hpending.mp hnow)
      exact ⟨hheld, hpublished, hkeeps (hpending.mp hnow)⟩
  unfold HoldSystem.poll StallHoldRelease.observe
  by_cases hpublished : h.watchdog_held = false
  · rw [if_pos hpublished]
    apply hsame false
    · intro hpending
      exact absurd ((hp.pending hpending).2.1.symm.trans hpublished) (by decide)
    · exact fun hno => absurd (hpublished.symm.trans hno) Bool.false_ne_true
  rw [if_neg hpublished]
  rw [Bool.not_eq_false] at hpublished
  by_cases hquiet : known_off = false ∨ h.hold_release.requested = true
  · rw [if_pos hquiet]
    exact hsame h.hold_release.requested (fun hpending => (hp.pending hpending).2.2) hp.published
  rw [if_neg hquiet]
  push Not at hquiet
  obtain ⟨hoff, hfree⟩ := hquiet
  have hheld := (hp.published hpublished).resolve_right hfree
  have hnone : ¬ h.Pending := fun hpending => hfree (hp.pending hpending).2.2
  have hdue := hp.due
  rw [hheld, if_neg (by decide), if_neg hnone] at hdue
  have hsettled : h.watchdog_release_requests = h.release_seen := by
    by_contra hnew
    exact hnone (.inr hnew)
  rw [Bool.ne_false_iff.mp hoff]
  refine ⟨⟨hdue.symm, hp.events⟩, hp.tripped, ?_, fun _ => ⟨hheld, hpublished, rfl⟩,
    fun _ => hsettled, fun _ => .inl hheld, hp.observing, hp.releasing⟩
  have hpending : Pending { h with hold_release := { requested := true }, requesting := true } := .inl rfl
  have hholding : ¬ h.watchdog.held = false := by
    rw [hheld]
    decide
  exact ((if_neg hholding).trans (if_pos hpending)).symm

theorem Paced.request (hp : Paced h) (hrequesting : h.requesting = true) : Paced h.request := by
  have hpending : h.Pending := .inl hrequesting
  have hsettled := hp.one hrequesting
  have hnew : (h.watchdog_release_requests + 1) % 0x100000000 ≠ h.release_seen := by
    rw [hsettled]
    omega
  refine ⟨hp.events, hp.tripped, ?_, fun _ => hp.pending hpending, nofun, hp.published, hp.observing, hp.releasing⟩
  have hdue := hp.due
  have hholding : ¬ h.watchdog.held = false := by
    rw [(hp.pending hpending).1]
    decide
  have hpending' : h.request.Pending := .inr hnew
  rw [if_neg hholding, if_pos hpending] at hdue
  exact hdue.trans ((if_neg hholding).trans (if_pos hpending')).symm

theorem Paced.step (hp : Paced h) (a : HoldStep) : Paced (h.step a) := by
  unfold HoldSystem.step
  cases a with
  | sample s =>
    dsimp only
    split
    · exact hp.sample ‹_› s
    · exact hp
  | consume =>
    dsimp only
    split
    · exact hp.consume ‹_›
    · exact hp
  | publish =>
    dsimp only
    split
    · exact hp.publish
    · exact hp
  | poll known_off =>
    dsimp only
    split
    · exact hp.poll ‹_› known_off
    · exact hp
  | request =>
    dsimp only
    split
    · exact hp.request ‹_›
    · exact hp

/-- Holds, requests on a known OFF and releases come in turn, for any interleaving. -/
theorem holds_in_turn (steps : List HoldStep) : InTurn (run step {} steps).events :=
  (invariant (fun (h : HoldSystem) a (hp : h.Paced) => hp.step a) steps paced_initial).events

end HoldSystem

/-! ## The watchdog -/

/-- Every decision of the watchdog has behind it what it stands for, and every hold is released at
most once, for a known OFF. -/
theorem watchdog_alternates (calls : List Call)
    (h : Guarded LoggedWatchdog.step LoggedWatchdog.Timed {} calls) (steps : List HoldStep) :
    Guarded LoggedWatchdog.step LoggedWatchdog.Follows {} calls ∧ InTurn (run HoldSystem.step {} steps).events :=
  ⟨LoggedWatchdog.decisions_follow calls h, HoldSystem.holds_in_turn steps⟩

/-- A sample of an armed bridge in a flight, with the cameras requested. -/
def reading (now_ms frame_pulse sim_frames : Nat) : Sample where
  now_ms
  frame_pulse
  pulse_available := decide (frame_pulse ≠ 0)
  sim_frames
  sim_frames_expected := true
  armed := true
  worker_alive := true
  cameras_wanted := true

/-- A stall and a recovery. -/
def stall (at_ms frame : Nat) : List Sample :=
  [reading at_ms frame frame, reading (at_ms + 3000) frame frame,
    reading (at_ms + 4000) (frame + 1) (frame + 1), reading (at_ms + 9000) (frame + 2) (frame + 2)]

/-- Three stalls and a release. -/
theorem three_stalls_follow :
    let samples := stall 1000 1 ++ stall 20000 11 ++ stall 40000 21
    Guarded LoggedWatchdog.step LoggedWatchdog.Follows {} (samples.map .observe ++ [.release]) ∧
      InTurn (run HoldSystem.step {}
        (samples.flatMap (fun s => [.sample s, .consume, .publish]) ++
          [.poll true, .request, .sample (reading 50000 24 24), .consume, .publish])).events :=
  watchdog_alternates _ (by decide +kernel) _

/-- The count of the simulator's frames goes back to zero within the three seconds that the pulse is
still, and the watchdog trips. -/
theorem trip_after_a_count_goes_back :
    let l := run LoggedWatchdog.step {} [.observe (reading 1000 1 5), .observe (reading 3900 1 0)]
    let s := reading 4000 1 0
    Guarded LoggedWatchdog.step LoggedWatchdog.Timed {}
        [.observe (reading 1000 1 5), .observe (reading 3900 1 0), .observe s] ∧
      (∃ before ∈ l.samples, before.sim_frames ≠ 0) ∧
      (l.watchdog.call (.observe s)).2.trip = true ∧
      ¬ LoggedWatchdog.Still (·.sim_frames) l.samples s := by
  refine ⟨by decide +kernel, ⟨reading 1000 1 5, by decide +kernel, by decide⟩, by decide +kernel, ?_⟩
  rintro ⟨since, hlong, hback⟩
  have hsamples : (run LoggedWatchdog.step {}
      [.observe (reading 1000 1 5), .observe (reading 3900 1 0)]).samples = [reading 3900 1 0, reading 1000 1 5] := by
    decide +kernel
  rw [hsamples] at hback
  unfold StallMs reading at hlong
  dsimp only at hlong
  cases hback with
  | there _ hsince =>
    unfold reading at hsince
    dsimp only at hsince
    omega
  | more _ hback =>
    cases hback with
    | there _ hsince =>
      unfold reading at hsince
      dsimp only at hsince
      omega
    | more _ hback =>
      cases hback with
      | there hstill => exact absurd hstill.2 (by decide)
      | more hstill => exact absurd hstill.2 (by decide)

end taxi_camera
