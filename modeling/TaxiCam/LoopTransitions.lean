-- The transitions of the control loop: what its history says of the pending one,
-- and that an applied transition leaves a GPU session that can be used, where no
-- pass keeps the pair after the session was reset for it.
import TaxiCam.ControlLoop
import TaxiCam.Histories

namespace taxi_camera.control_loop

open scene_runtime histories runs List

/-! ## The history -/

/-- What the history says: the profile that is pending, the token that was given for it, whether a
session reset came after the last application, and the generation of the latest reset. -/
structure Summary where
  pending : Option Nat := none
  token : Option (Nat × Nat) := none
  in_force : Bool := false
  latest : Option Nat := none

def note (s : Summary) : Event → Summary
  | .stopped => { s with pending := none, token := none }
  | .began profile => { s with pending := some profile, token := none }
  | .reset generation =>
    { s with in_force := true, latest := if generation = 0 then s.latest else some generation }
  | .requested token profile => { s with token := some (token, profile) }
  | .applied _ => { s with pending := none, token := none, in_force := false }
  | .started => s

def summary (told : List Event) : Summary := told.foldl note {}

@[simp] theorem summary_snoc (told : List Event) (e : Event) : summary (told ++ [e]) = note (summary told) e := by
  simp [summary]

/-- An application of a transition that the loop may tell of. A device that did not fail has an
active session, of the generation of the latest reset; the manager completed the transition whose
token was given for the pending profile; the session was ready in the pending epoch. -/
structure Usable (past : Summary) (a : Applied) : Prop where
  device : ∀ status, a.device = some status → status.failed = false →
    status.session_active = true ∧
      ∀ generation, past.latest = some generation → status.session_generation = generation
  pending : past.pending = some a.profile
  requested : past.token = some (a.token, a.profile)
  completed : a.transition = { token := a.token, id := a.profile, ready := true }
  session : a.session.ready = true ∧ a.session.epoch = a.session_epoch

/-- What may be told after the past: tokens are new, applied transitions are usable, and no camera
is started while a transition is pending. -/
def Allowed (past : List Event) : Event → Prop
  | .requested token _ => token ≠ 0 ∧ ∀ t q, .requested t q ∈ past → t < token
  | .applied a => Usable (summary past) a
  | .started => (summary past).pending = none
  | _ => True

/-! ## The invariant -/

namespace Loop

/-- The session of the device, over the history: its generation is the latest reset's, and it is
active unless a reset is in force. -/
def Session (s : Summary) (device : Option Device) : Prop :=
  (s.latest.isSome → device.isSome) ∧ ∀ item, device = some item → item.status.failed = false →
    (∀ generation, s.latest = some generation → item.status.session_generation = generation) ∧
      (s.in_force = false → item.status.session_active = true)

structure Lawful (key : Nat) (l : Loop) : Prop where
  explained : Explained Allowed l.told
  tokens : ∀ token profile, .requested token profile ∈ l.told → token ≤ l.manager.token
  pending : (summary l.told).pending =
    if l.changing_profile then some l.pending_profile else none
  token : l.changing_profile = true → l.transition_token ≠ 0 →
    (summary l.told).token = some (l.transition_token, l.pending_profile)
  full : (summary l.told).in_force = true → l.pending_full_reset = true
  session : Session (summary l.told) (l.world.devices key)
  owner : l.control.heartbeat ≠ 0 → l.control.owner_pid ≠ 0
  connected : l.changing_profile = true → l.connection_session.active = true

section
variable {key : Nat} {l : Loop}
variable {s : Summary} {w : World}

/-- A call that carries the sessions keeps what the history says of them. -/
theorem Session.carry {w' : World} (h : Session s (w.devices key))
    (hcarries : World.Carries w w') : Session s (w'.devices key) := by
  refine ⟨fun hsome => hcarries.stays key (h.1 hsome), fun item' hitem' hlive => ?_⟩
  rcases hcarries.session key item' hitem' with ⟨item, hitem, hsame⟩ | ⟨hnone, hactive⟩
  · obtain ⟨hbefore, hactive, hgeneration⟩ := hsame hlive
    obtain ⟨hlatest, hforce⟩ := h.2 item hitem hbefore
    exact ⟨fun generation hsome => hgeneration.trans (hlatest generation hsome),
      fun hno => hactive.trans (hforce hno)⟩
  refine ⟨fun generation hsome => ?_, fun _ => hactive hlive⟩
  have hdevice := h.1 (by rw [hsome]; rfl)
  rw [hnone] at hdevice
  cases hdevice

theorem Lawful.outside (h : Lawful key l) (o : Outside) : Lawful key (l.outside o) := by
  cases o with
  | runtime op =>
    unfold Loop.outside
    dsimp only
    split
    · rename_i hop
      exact { h with session := h.session.carry (.step op hop) }
    · exact h
  | advance =>
    refine { h with tokens := fun token profile hmem => (h.tokens token profile hmem).trans ?_ }
    change l.manager.token ≤ l.manager.advance.token
    unfold Manager.advance
    split
    · exact le_rfl
    · exact Nat.le_succ _
  | publish id s => exact { h with tokens := h.tokens }

/-- What the other threads leave as it is. -/
structure Untouched (l l' : Loop) : Prop where
  control : l'.control = l.control
  connection_session : l'.connection_session = l.connection_session
  told : l'.told = l.told
  changing_profile : l'.changing_profile = l.changing_profile
  pending_profile : l'.pending_profile = l.pending_profile
  pending_session_epoch : l'.pending_session_epoch = l.pending_session_epoch
  pending_full_reset : l'.pending_full_reset = l.pending_full_reset
  transition_token : l'.transition_token = l.transition_token

theorem Lawful.meanwhile (h : Lawful key l) (work : List Outside) :
    Lawful key (l.meanwhile work) ∧ Untouched l (l.meanwhile work) := by
  refine invariant (fun (t : Loop) o (ht : Lawful key t ∧ Untouched l t) => ?_) work
    ⟨h, ⟨rfl, rfl, rfl, rfl, rfl, rfl, rfl, rfl⟩⟩
  refine ⟨ht.1.outside o, ?_⟩
  obtain ⟨hcontrol, hsession, htold, hchanging, hprofile, hepoch, hfull, htoken⟩ := ht.2
  cases o with
  | runtime op =>
    unfold Loop.outside
    dsimp only
    split <;> exact ⟨hcontrol, hsession, htold, hchanging, hprofile, hepoch, hfull, htoken⟩
  | advance | publish id s =>
    exact ⟨hcontrol, hsession, htold, hchanging, hprofile, hepoch, hfull, htoken⟩

/-! ## The head of a pass -/

theorem request_token (m : Manager) (profile : Nat) (known : Bool) (s : Standing) :
    m.token ≤ (m.request profile known s).1.token ∧
      ((m.request profile known s).2 ≠ 0 → (m.request profile known s).2 = m.token + 1 ∧
        (m.request profile known s).1.token = m.token + 1) := by
  unfold Manager.request
  split
  · exact ⟨le_rfl, fun hno => absurd rfl hno⟩
  · exact ⟨Nat.le_succ _, fun _ => ⟨rfl, rfl⟩⟩

/-- A message without an owner is no message. -/
theorem refresh_owner {c : CompanionControl} (h : c.heartbeat ≠ 0 → c.owner_pid ≠ 0) (mail : Mail) :
    (c.refresh mail).heartbeat ≠ 0 → (c.refresh mail).owner_pid ≠ 0 := by
  cases mail with
  | busy => exact h
  | failed => exact fun hno => absurd rfl hno
  | message valid owner_pid owner_heartbeat settings =>
    unfold CompanionControl.refresh
    dsimp only
    split
    · rename_i hvalid
      simp only [Bool.and_eq_true, bne_iff_ne] at hvalid
      exact fun _ => hvalid.2
    · exact fun hno => absurd rfl hno

theorem Lawful.refresh (h : Lawful key l) (mail : Mail) : Lawful key { l with control := l.control.refresh mail } :=
  { h with owner := refresh_owner h.owner mail }

theorem Lawful.reset_feed (h : Lawful key l) (natives : World.Natives) : Lawful key (l.reset_feed key natives) :=
  { h with session := h.session.carry (.reset_feed natives key) }

/-- What is told neither of a token nor of an application is allowed. -/
theorem Lawful.old_tokens (h : Lawful key l) {e : Event} {token profile : Nat}
    (he : ∀ t q, e ≠ .requested t q) (hmem : .requested token profile ∈ l.told ++ [e]) :
    token ≤ l.manager.token := by
  rcases mem_append.mp hmem with hbefore | hnew
  · exact h.tokens token profile hbefore
  · exact absurd (mem_singleton.mp hnew).symm (he token profile)

/-- A connection that is over leaves no pending transition. -/
theorem Lawful.stop (h : Lawful key l) (s : CompanionSetupSession) (p : Pass) :
    Lawful key (Loop.stop { l with connection_session := s } key p) := by
  have hmanager : ∀ m : Manager, l.manager.token ≤ m.token →
      Lawful key (({ ({ l with connection_session := s, manager := m } : Loop).reset_feed key p.natives
        with changing_profile := false, transition_token := 0 } : Loop).tell .stopped) := by
    intro m hm
    refine ⟨explained_snoc h.explained trivial, ?_, ?_, nofun, ?_, ?_, h.owner,
      nofun⟩
    · intro token profile hmem
      exact (h.old_tokens (fun _ _ hno => by cases hno) hmem).trans hm
    · change (summary (l.told ++ [.stopped])).pending = none
      rw [summary_snoc]
      rfl
    · change (summary (l.told ++ [.stopped])).in_force = true → _
      rw [summary_snoc]
      exact h.full
    · change Session (summary (l.told ++ [.stopped])) _
      rw [summary_snoc]
      exact h.session.carry (.reset_feed p.natives key)
  unfold Loop.stop
  dsimp only
  split
  · exact hmanager l.manager le_rfl
  · exact hmanager _ (request_token ..).1

/-- After the head of a pass the companion asks for what is pending, and then it is connected. -/
theorem Lawful.observe (h : Lawful key l) (p : Pass) :
    Lawful key (l.observe key p).1 ∧
      ((l.observe key p).1.changing_profile = true → (l.observe key p).2.asks = true) ∧
        ((l.observe key p).2.asks = true → (l.observe key p).1.connection_session.active = true) := by
  have hread := h.refresh p.mail
  set read : Loop := { l with control := l.control.refresh p.mail }
  have hasks : read.control.connected p.now = true → read.control.owner_pid ≠ 0 := by
    intro hconnected
    simp only [CompanionControl.connected, Bool.and_eq_true, bne_iff_ne] at hconnected
    exact hread.owner hconnected.1.1
  unfold Loop.observe
  dsimp only
  set answer := l.connection_session.observe (read.control.connected p.now)
    read.control.settings.enabled read.control.owner_pid read.control.settings.profile_request
    with hanswer
  have hactive : answer.1.active = (read.control.connected p.now && read.control.settings.enabled &&
      read.control.owner_pid != 0) := rfl
  have hstopped : answer.2.stopped = (l.connection_session.active && !answer.1.active) := rfl
  have hask : (read.control.connected p.now && read.control.settings.enabled) = true → answer.1.active = true := by
    intro hboth
    rw [hactive, hboth]
    simpa using hasks (Bool.and_eq_true_iff.mp hboth).1
  refine ⟨?_, ?_, ?_⟩
  · split
    · exact hread.stop answer.1 p
    rename_i hgoing
    refine { hread with connected := fun hchanging => ?_ }
    rw [hstopped, hread.connected hchanging] at hgoing
    simpa using hgoing
  · split
    · intro hno
      cases hno
    rename_i hgoing
    intro hchanging
    rw [hstopped, hread.connected hchanging] at hgoing
    have hnow : answer.1.active = true := by simpa using hgoing
    rw [hactive] at hnow
    exact (Bool.and_eq_true_iff.mp hnow).1
  · intro hboth
    split
    · unfold Loop.stop
      dsimp only
      split <;> exact hask hboth
    · exact hask hboth

/-! ## A new transition -/

/-- A reset gives the session its generation, or takes it out of use. -/
theorem Session.reset (h : Session s (w.devices key)) (natives : World.Natives) :
    Session (note s (.reset (w.reset_session natives key).2)) ((w.reset_session natives key).1.devices key) := by
  rcases World.reset_session_device natives key w with ⟨hnone, hsame⟩ | hdevice
  · rw [hsame]
    refine ⟨fun hsome => h.1 ?_, fun item hitem => ?_⟩
    · simpa [note] using hsome
    · rw [hnone] at hitem
      cases hitem
  obtain ⟨item, item', hitem, hitem', hfailed, hactive, hgeneration⟩ := hdevice
  refine ⟨fun _ => by rw [hitem']; rfl, fun other hother hlive => ?_⟩
  rw [hitem'] at hother
  cases hother
  refine ⟨fun generation hlatest => ?_, nofun⟩
  rw [hgeneration]
  change (if (w.reset_session natives key).2 = 0 then s.latest
    else some (w.reset_session natives key).2) = some generation at hlatest
  split
  · rename_i hzero
    rw [if_pos hzero] at hlatest
    exact (h.2 item hitem (hfailed.symm.trans hlive)).1 generation hlatest
  rename_i hnew
  rw [if_neg hnew] at hlatest
  exact Option.some.inj hlatest

theorem Lawful.begin_transition (h : Lawful key l) (hactive : l.connection_session.active = true)
    (c : Change) (p : Pass) :
    Lawful key (l.begin_transition key c p) ∧ (l.begin_transition key c p).changing_profile = true := by
  obtain ⟨hfed, hsame⟩ := (h.reset_feed p.natives).meanwhile p.resetting
  set fed := (l.reset_feed key p.natives).meanwhile p.resetting with hfeddef
  have hfull : (summary fed.told).in_force = true → l.full_reset p = true := by
    intro hforce
    unfold full_reset
    rw [← show fed.pending_full_reset = l.pending_full_reset from hsame.pending_full_reset,
      hfed.full hforce, Bool.true_or]
  have hconnected : fed.connection_session.active = true := by
    rw [hsame.connection_session]
    exact hactive
  -- The transition is told of; the flags of the pending one follow it.
  have hbegan : ∀ t : Loop, t.told = fed.told ++ [.began l.control.settings.profile] →
      t.manager = fed.manager → t.control = fed.control →
      t.connection_session = fed.connection_session → t.changing_profile = true →
      t.pending_profile = l.control.settings.profile → t.transition_token = 0 →
      t.pending_full_reset = l.full_reset p → t.world = fed.world → Lawful key t := by
    intro t htold hmanager hcontrol hsession hchanging hprofile htoken hreset hworld
    refine ⟨?_, ?_, ?_, fun _ hno => absurd htoken hno, ?_, ?_, ?_, fun _ => ?_⟩
    · rw [htold]
      exact explained_snoc hfed.explained trivial
    · intro token profile hmem
      rw [htold] at hmem
      rw [hmanager]
      exact hfed.old_tokens (fun _ _ hno => by cases hno) hmem
    · rw [htold, summary_snoc, hchanging, hprofile]
      rfl
    · rw [htold, summary_snoc, hreset]
      exact hfull
    · rw [htold, summary_snoc, hworld]
      exact hfed.session
    · rw [hcontrol]
      exact hfed.owner
    · rw [hsession]
      exact hconnected
  unfold Loop.begin_transition
  dsimp only
  rw [← hfeddef]
  refine ⟨?_, rfl⟩
  split
  · split
    · exact hbegan _ rfl rfl rfl rfl rfl rfl rfl rfl rfl
    rename_i hfullreset _
    -- The reset is told of after the transition.
    have hone := hbegan
      { fed.tell (.began l.control.settings.profile) with
        changing_profile := true, pending_profile := l.control.settings.profile
        transition_token := 0, pending_full_reset := l.full_reset p } rfl rfl rfl rfl rfl rfl rfl rfl rfl
    refine ⟨explained_snoc hone.explained trivial, ?_, ?_, fun _ hno => absurd rfl hno,
      fun _ => hfullreset, ?_, hone.owner, hone.connected⟩
    · intro token profile hmem
      exact hone.old_tokens (fun _ _ hno => by cases hno) hmem
    · have hpending := hone.pending
      change (summary (_ ++ [_])).pending = _
      rw [summary_snoc]
      exact hpending
    · have hsession := hone.session.reset p.natives
      change Session (summary (_ ++ [_])) _
      rw [summary_snoc]
      exact hsession
  · exact hbegan _ rfl rfl rfl rfl rfl rfl rfl rfl rfl

/-! ## A look at the transition -/

theorem Lawful.request (h : Lawful key l) {m : Manager} {token : Nat} (hnew : l.manager.token < token) (htoken : m.token = token) :
    Lawful key (Loop.tell { l with manager := m, transition_token := token }
      (.requested token l.pending_profile)) := by
  refine ⟨explained_snoc h.explained ⟨Nat.ne_of_gt (Nat.zero_lt_of_lt hnew), fun t q hmem => ?_⟩,
    ?_, ?_, fun _ _ => ?_, ?_, ?_, h.owner, h.connected⟩
  · exact (h.tokens t q hmem).trans_lt hnew
  · intro t q hmem
    rcases mem_append.mp hmem with hbefore | hlast
    · exact ((h.tokens t q hbefore).trans hnew.le).trans htoken.ge
    cases mem_singleton.mp hlast
    exact htoken.ge
  · change (summary (l.told ++ [_])).pending = _
    rw [summary_snoc]
    exact h.pending
  · change (summary (l.told ++ [_])).token = _
    rw [summary_snoc]
    rfl
  · change (summary (l.told ++ [_])).in_force = true → _
    rw [summary_snoc]
    exact h.full
  · change Session (summary (l.told ++ [_])) _
    rw [summary_snoc]
    exact h.session

/-- What an await of the transition leaves: where the pair is kept, no reset is new. -/
theorem Lawful.await_transition (h : Lawful key l) (hchanging : l.changing_profile = true) (p : Pass) :
    Lawful key (l.await_transition key p) ∧ (l.await_transition key p).changing_profile = true ∧
      (l.keep_pair p = true → (summary (l.await_transition key p).told).in_force = (summary l.told).in_force) := by
  -- The reset, where there is one.
  have hreset : ∀ t, t = (if l.pending_full_reset && !l.keep_pair p && l.pending_gpu_generation == 0
      then l.reset_gpu key p.natives else l) → Lawful key t ∧ t.changing_profile = true ∧
        (l.keep_pair p = true → (summary t.told).in_force = (summary l.told).in_force) := by
    rintro t rfl
    split
    · rename_i hneeded
      simp only [Bool.and_eq_true, Bool.not_eq_true'] at hneeded
      refine ⟨⟨explained_snoc h.explained trivial, ?_, ?_, fun hyes hne => ?_, fun _ => hneeded.1.1,
        ?_, h.owner, h.connected⟩, hchanging, fun hyes => ?_⟩
      · intro token profile hmem
        exact h.old_tokens (fun _ _ hno => by cases hno) hmem
      · change (summary (l.told ++ [_])).pending = _
        rw [summary_snoc]
        exact h.pending
      · change (summary (l.told ++ [_])).token = _
        rw [summary_snoc]
        exact h.token hyes hne
      · change Session (summary (l.told ++ [_])) _
        rw [summary_snoc]
        exact h.session.reset p.natives
      · rw [hyes] at hneeded
        cases hneeded.1.2
    · exact ⟨h, hchanging, fun _ => rfl⟩
  unfold Loop.await_transition
  dsimp only
  generalize hasked : (if l.pending_full_reset && !l.keep_pair p && l.pending_gpu_generation == 0
    then l.reset_gpu key p.natives else l) = asked
  obtain ⟨hlawful, hgoing, hforce⟩ := hreset asked hasked.symm
  obtain ⟨hwaited, hsame⟩ := hlawful.meanwhile p.awaiting
  set waited := asked.meanwhile p.awaiting
  have hstill : waited.changing_profile = true := hsame.changing_profile.trans hgoing
  have hcalm : l.keep_pair p = true → (summary waited.told).in_force = (summary l.told).in_force := by
    rw [hsame.told]
    exact hforce
  split
  · obtain ⟨hle, hnew⟩ := request_token waited.manager waited.pending_profile p.known p.standing
    split
    · exact ⟨{ hwaited with tokens := fun t q hmem => (hwaited.tokens t q hmem).trans hle }, hstill, hcalm⟩
    rename_i hgiven
    obtain ⟨htoken, hmanager⟩ := hnew hgiven
    refine ⟨hwaited.request (by rw [htoken]; exact Nat.lt_succ_self _) (hmanager.trans htoken.symm),
      hstill, fun hyes => ?_⟩
    change (summary (waited.told ++ [_])).in_force = _
    rw [summary_snoc]
    exact hcalm hyes
  · exact ⟨hwaited, hstill, hcalm⟩

/-- A session that resumes is active, of the generation that it had. -/
theorem Session.resume (h : Session s (w.devices key)) {generation : Nat}
    (hresumed : (w.resume_session key generation).2 = true) :
    Session { s with in_force := false } ((w.resume_session key generation).1.devices key) := by
  obtain ⟨item, item', hitem, hitem', hfailed, hactive, hsame, -⟩ := World.resume_session_device hresumed
  refine ⟨fun _ => by rw [hitem']; rfl, fun other hother hlive => ?_⟩
  rw [hitem'] at hother
  cases hother
  refine ⟨fun latest hlatest => ?_, fun _ => hactive⟩
  rw [hsame]
  exact (h.2 item hitem (hfailed.symm.trans hlive)).1 latest hlatest

/-- A transition is applied with a session that is in use. -/
theorem Lawful.apply (h : Lawful key l) (hchanging : l.changing_profile = true) {world : World}
    (hsession : Session { summary l.told with in_force := false } (world.devices key))
    {t : Transition} (hready : l.transition_ready t = true) {session : Readiness}
    (hpublic : session.ready = true ∧ session.epoch = l.pending_session_epoch) :
    Lawful key (apply { l with world }
      { profile := l.pending_profile, session_epoch := l.pending_session_epoch
        token := l.transition_token, transition := t, session
        device := (world.devices key).map Device.status }) := by
  simp only [transition_ready, Bool.and_eq_true, bne_iff_ne, beq_iff_eq, Bool.not_eq_true'] at hready
  obtain ⟨⟨⟨⟨⟨hgiven, htoken⟩, hid⟩, hcompleted⟩, hpending⟩, hfailed⟩ := hready
  have husable : Usable (summary l.told)
      { profile := l.pending_profile, session_epoch := l.pending_session_epoch
        token := l.transition_token, transition := t, session
        device := (world.devices key).map Device.status } := by
    refine ⟨fun status hstatus hlive => ?_, ?_, h.token hchanging hgiven, ?_, hpublic⟩
    · obtain ⟨item, hitem, rfl⟩ := Option.map_eq_some_iff.mp hstatus
      obtain ⟨hgeneration, hactive⟩ := hsession.2 item hitem hlive
      exact ⟨hactive rfl, hgeneration⟩
    · rw [h.pending, if_pos hchanging]
    · cases t
      simp_all
  refine ⟨explained_snoc h.explained husable, ?_, ?_, nofun, ?_, ?_, h.owner,
    nofun⟩
  · intro token profile hmem
    exact h.old_tokens (fun _ _ hno => by cases hno) hmem
  · change (summary (l.told ++ [_])).pending = none
    rw [summary_snoc]
    rfl
  · change (summary (l.told ++ [_])).in_force = true → _
    rw [summary_snoc]
    exact nofun
  · change Session (summary (l.told ++ [_])) _
    rw [summary_snoc]
    exact hsession

/-- Where no reset is in force the session is in use. -/
theorem Session.calm {device : Option Device} (h : Session s device)
    (hcalm : s.in_force = false) : Session { s with in_force := false } device :=
  ⟨h.1, fun item hitem hlive => ⟨(h.2 item hitem hlive).1, fun _ => (h.2 item hitem hlive).2 hcalm⟩⟩

/-- The answer of a resume: where it is refused nothing changed, else the session is in use. -/
theorem Lawful.resume_gpu (h : Lawful key l) {keep : Bool} (hkeep : keep = true → (summary l.told).in_force = false) :
    (l.resume_gpu key keep).1 = { l with world := (l.resume_gpu key keep).1.world } ∧
      ((l.resume_gpu key keep).2 = false → (l.resume_gpu key keep).1.world = l.world) ∧
        ((l.resume_gpu key keep).2 = true →
          Session { summary l.told with in_force := false } ((l.resume_gpu key keep).1.world.devices key)) := by
  unfold Loop.resume_gpu
  split
  · rename_i hstays
    refine ⟨rfl, fun _ => rfl, fun _ => h.session.calm ?_⟩
    rcases Bool.or_eq_true_iff.mp hstays with hfull | hyes
    · by_contra hforce
      rw [h.full (Bool.of_not_eq_false hforce)] at hfull
      cases hfull
    · exact hkeep hyes
  split
  · exact ⟨rfl, fun _ => rfl, nofun⟩
  · exact ⟨rfl, World.resume_session_refused, h.session.resume⟩

theorem Lawful.try_transition (h : Lawful key l) (hchanging : l.changing_profile = true) (p : Pass)
    (hkeep : l.keep_pair p = true → p.transition_session.ready = true → (summary l.told).in_force = false) :
    Lawful key (l.try_transition key p).1 ∧
      ((l.try_transition key p).2 = true → (l.try_transition key p).1.changing_profile = false) := by
  obtain ⟨hawaited, hgoing, hcalm⟩ := h.await_transition hchanging p
  unfold Loop.try_transition
  dsimp only
  generalize hkept : l.keep_pair p = keep at hcalm hkeep ⊢
  generalize l.await_transition key p = awaited at hawaited hgoing hcalm ⊢
  obtain ⟨hread, hsame⟩ := hawaited.meanwhile p.reading
  generalize awaited.meanwhile p.reading = read at hread hsame ⊢
  -- The telemetry is selected.
  have hselected : ∀ t, t = (if read.transition_ready read.manager.published &&
      !read.pending_telemetry_selected then { read with pending_telemetry_selected := p.selected }
        else read) → Lawful key t ∧ Untouched read t := by
    rintro t rfl
    split
    · exact ⟨{ hread with tokens := hread.tokens }, ⟨rfl, rfl, rfl, rfl, rfl, rfl, rfl, rfl⟩⟩
    · exact ⟨hread, ⟨rfl, rfl, rfl, rfl, rfl, rfl, rfl, rfl⟩⟩
  generalize hchosen : (if read.transition_ready read.manager.published &&
    !read.pending_telemetry_selected then { read with pending_telemetry_selected := p.selected } else read) = chosen
  obtain ⟨hlawful, huntouched⟩ := hselected chosen hchosen.symm
  obtain ⟨hnow, hsettled⟩ := hlawful.meanwhile p.applying
  generalize chosen.meanwhile p.applying = now at hnow hsettled ⊢
  split
  · exact ⟨hnow, nofun⟩
  rename_i hready
  simp only [Bool.not_eq_true', Bool.not_eq_false, Bool.and_eq_true, beq_iff_eq] at hready
  obtain ⟨⟨⟨htransition, -⟩, hsession⟩, hepoch⟩ := hready
  have hsame_now : Untouched read now := ⟨hsettled.control.trans huntouched.control,
    hsettled.connection_session.trans huntouched.connection_session,
    hsettled.told.trans huntouched.told, hsettled.changing_profile.trans huntouched.changing_profile,
    hsettled.pending_profile.trans huntouched.pending_profile,
    hsettled.pending_session_epoch.trans huntouched.pending_session_epoch,
    hsettled.pending_full_reset.trans huntouched.pending_full_reset,
    hsettled.transition_token.trans huntouched.transition_token⟩
  have hgoing_now : now.changing_profile = true :=
    hsame_now.changing_profile.trans (hsame.changing_profile.trans hgoing)
  have hcomplete : now.transition_ready read.manager.published = true := by
    unfold transition_ready at htransition ⊢
    rw [hsame_now.transition_token, hsame_now.pending_profile]
    exact htransition
  have hforce : keep = true → (summary now.told).in_force = false := by
    intro hyes
    rw [hsame_now.told, hsame.told, hcalm hyes]
    exact hkeep hyes hsession
  have hpublic : p.transition_session.ready = true ∧
      p.transition_session.epoch = now.pending_session_epoch := ⟨hsession, hepoch⟩
  obtain ⟨hframe, hrefused, hresumed⟩ := hnow.resume_gpu hforce
  split
  · rename_i after hanswer
    rw [hanswer] at hframe hrefused
    refine ⟨?_, nofun⟩
    rw [hrefused rfl] at hframe
    exact hframe ▸ hnow
  rename_i after hanswer
  rw [hanswer] at hframe hresumed
  dsimp only at hframe hresumed ⊢
  rw [hframe]
  exact ⟨hnow.apply hgoing_now (hresumed rfl) hcomplete hpublic, fun _ => rfl⟩

/-! ## A pass -/

/-- A camera starts where no transition is pending. -/
theorem Lawful.start_cameras (h : Lawful key l) (hno : l.changing_profile = false) (s : Start) :
    Lawful key (l.start_cameras key s) := by
  unfold Loop.start_cameras
  split
  · exact h
  have hread := h.refresh s.mail
  split
  · have hfed := hread.reset_feed s.natives
    have hpending : (summary l.told).pending = none := by
      rw [h.pending, hno]
      rfl
    refine ⟨explained_snoc hfed.explained hpending, fun token profile hmem =>
      hfed.old_tokens (fun _ _ he => by cases he) hmem, ?_, fun hyes => ?_, ?_, ?_, hfed.owner,
      hfed.connected⟩
    · change (summary (l.told ++ [_])).pending = _
      rw [summary_snoc]
      exact h.pending
    · rw [hno] at hyes
      cases hyes
    · change (summary (l.told ++ [_])).in_force = true → _
      rw [summary_snoc]
      exact h.full
    · change Session (summary (l.told ++ [_])) _
      rw [summary_snoc]
      exact hfed.session
  · exact hread

/-- A pass looks at a transition where one is pending. -/
theorem Lawful.enter (h : Lawful key l) (p : Pass) :
    Lawful key (l.enter key p).1 ∧ (l.enter key p).1.changing_profile = (l.enter key p).2 := by
  obtain ⟨hobserved, hasks, hconnected⟩ := (h.meanwhile p.before).1.observe p
  unfold Loop.enter
  dsimp only
  generalize (l.meanwhile p.before).observe key p = head at hobserved hasks hconnected ⊢
  obtain ⟨hasked, hsame⟩ := hobserved.meanwhile p.asking
  set asked := head.1.meanwhile p.asking
  split
  · rename_i hlook
    obtain ⟨hyes, -⟩ := Bool.and_eq_true_iff.mp hlook
    split
    · exact hasked.begin_transition (hsame.connection_session ▸ hconnected hyes) _ p
    rename_i hgoing
    refine ⟨hasked, ?_⟩
    simp only [superseding, Bool.or_eq_true, not_or, Bool.not_eq_true, Bool.not_eq_false'] at hgoing
    exact hgoing.1.1.1.1.1.1
  rename_i hlook
  refine ⟨hasked, ?_⟩
  -- A pending transition is itself a reason to look.
  by_contra hchanging
  have hpending : asked.changing_profile = true := Bool.of_not_eq_false hchanging
  refine hlook (Bool.and_eq_true_iff.mpr ⟨hasks (hsame.changing_profile ▸ hpending), ?_⟩)
  simp [transitional, hpending]

/-- A pass keeps the pair for a ready session only where the GPU session was not reset since the last
application. -/
def Orderly (key : Nat) (l : Loop) (p : Pass) : Prop :=
  (l.enter key p).2 = true → (l.enter key p).1.keep_pair p = true →
    p.transition_session.ready = true → (summary (l.enter key p).1.told).in_force = false

instance (key : Nat) (l : Loop) (p : Pass) : Decidable (Orderly key l p) :=
  inferInstanceAs (Decidable (_ = true → _ = true → _ = true → _ = false))

theorem Lawful.pass (h : Lawful key l) {p : Pass} (horderly : Orderly key l p) : Lawful key (Loop.pass key l p) := by
  obtain ⟨hentered, hlook⟩ := h.enter p
  unfold Orderly at horderly
  unfold Loop.pass
  dsimp only
  generalize l.enter key p = entered at hentered hlook horderly ⊢
  -- After a look that did not apply its transition the pass has ended.
  have htried : ∀ tried, tried = (if entered.2 then entered.1.try_transition key p
      else (entered.1, true)) → Lawful key tried.1 ∧ (tried.2 = true → tried.1.changing_profile = false) := by
    rintro tried rfl
    split
    · rename_i hyes
      exact hentered.try_transition (hlook.trans hyes) p (horderly hyes)
    rename_i hno
    exact ⟨hentered, fun _ => hlook.trans (Bool.eq_false_of_not_eq_true hno)⟩
  generalize hresult : (if entered.2 then entered.1.try_transition key p else (entered.1, true)) = tried
  obtain ⟨hlawful, hsettled⟩ := htried tried hresult.symm
  refine (meanwhile ?_ p.after).1
  split
  · rename_i hyes
    exact hlawful.start_cameras (hsettled hyes) p.start
  · exact hlawful

end

/-! ## Every run -/

theorem lawful_initial (key : Nat) : Lawful key {} :=
  ⟨explained_nil, nofun, rfl, nofun,
    fun hno => (by cases hno), ⟨fun hno => (by cases hno), fun _ hno => by cases hno⟩,
    fun hno => absurd rfl hno, nofun⟩

/-- In a run whose passes keep no pair after a session reset, an applied transition leaves a GPU
session in use, and no camera starts while a transition is pending. -/
theorem applied_transitions_leave_a_usable_session (key : Nat) (passes : List Pass)
    (horderly : Guarded (Loop.pass key) (Orderly key) {} passes) :
    Explained Allowed (passes.foldl (Loop.pass key) {}).told :=
  (@guarded_invariant _ _ (Loop.pass key) (Orderly key) {} (Lawful key)
    (fun _ _ hl hp => hl.pass hp) passes (lawful_initial key) horderly).explained

/-! ## A pair that is kept after its session was reset -/

/-- A pass of a companion that asks for a profile, with the manager ready for it. -/
def sample_pass (profile : Nat) (session_ready : Bool) : Pass :=
  { mail := .message true 7 1 { enabled := true, profile }
    now := 1, session_epoch := 1, session := { epoch := 1, ready := true }
    standing := { ready := true }
    transition_session := { epoch := 1, ready := session_ready } }

/-- The first profile is applied, on a device that the runtime knows. -/
def first_profile : Pass :=
  { sample_pass 1 true with
    before := [.runtime (.init_device 1 5 6 true)], start := { wanted := true } }

/-- An application that left a device that did not fail without an active session. -/
def unusable : Event → Bool
  | .applied a => a.device.any fun status => !status.failed && !status.session_active
  | _ => false

theorem none_unusable {told : List Event} (h : Explained Allowed told) : told.any unusable = false := by
  by_contra hany
  obtain ⟨e, hmem, he⟩ := any_eq_true.mp (Bool.of_not_eq_false hany)
  obtain ⟨before, after, hsplit⟩ := append_of_mem hmem
  have hallowed := h before e after hsplit
  cases e with
  | applied a =>
    have hleft : a.device.any (fun status => !status.failed && !status.session_active) = true := he
    rcases hdevice : a.device with _ | status
    · rw [hdevice] at hleft
      cases hleft
    rw [hdevice] at hleft
    simp only [Option.any_some, Bool.and_eq_true, Bool.not_eq_true'] at hleft
    have hactive := (hallowed.device status hdevice hleft.1).1
    rw [hleft.2] at hactive
    cases hactive
  | stopped | began profile | reset generation | requested token profile | started => cases he

/-- The second profile resets the session, and the first is asked for again before it resumes: its
pair is kept, and applied without a session. -/
theorem profile_that_returns_has_no_session :
    (¬∀ (key : Nat) (passes : List Pass), Explained Allowed (passes.foldl (Loop.pass key) {}).told) ∧
      ¬Explained Allowed ([first_profile, sample_pass 2 false, sample_pass 1 true].foldl (Loop.pass 1) {}).told := by
  have hout : ¬Explained Allowed
      ([first_profile, sample_pass 2 false, sample_pass 1 true].foldl (Loop.pass 1) {}).told := by
    intro h
    have hnone := none_unusable h
    have hleft : ([first_profile, sample_pass 2 false, sample_pass 1 true].foldl
        (Loop.pass 1) {}).told.any unusable = true := by decide +kernel
    rw [hleft] at hnone
    cases hnone
  exact ⟨fun hall => hout (hall 1 _), hout⟩

/-- The second profile resets the session, and is applied after it resumed. -/
theorem second_profile_resumes_its_session :
    Explained Allowed ([first_profile, sample_pass 2 false, sample_pass 2 true].foldl (Loop.pass 1) {}).told :=
  applied_transitions_leave_a_usable_session 1 _ ⟨by decide +kernel, by decide +kernel, by decide +kernel, trivial⟩

end Loop

end taxi_camera.control_loop
