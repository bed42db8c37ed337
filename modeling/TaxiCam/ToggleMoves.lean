-- An accepted press is never repeated: a press that runs finds the button
-- where it stood when it was decided, so that none undoes another.
import TaxiCam.ToggleLedger

namespace taxi_camera.native_camera

open histories runs List
open Function (update_of_ne update_self)

namespace TaxiButtonCommand

namespace World

/-! ## The rule -/

/-- Nothing else moved the button, and no press that had run was reported as rejected. -/
def Alone (side : Side) (told : List Event) : Prop :=
  .pressed side ∉ told ∧ .misreported side ∉ told

/-- A press that runs was asked for, and moves the button from the other position. -/
def Rightly (past : List Event) : Event → Prop
  | .executed side desired serial before =>
    (Alone side past → before = !desired) ∧
      ∃ request, .requested request ∈ past ∧ request.serial = serial ∧
        has request.desired_mask side = desired
  | _ => True

/-! ## The invariant -/

section
variable (s : World) (side : Side)

/-- The decisions and the presses under way come of requests that were consumed. -/
structure Asked : Prop where
  same : s.command.status.serial = s.command.latest.serial
  latest : ∀ side, has s.command.status.pending_mask side = true →
    .requested s.command.latest ∈ s.told
  ordered : ∀ d ∈ s.decisions, d.serial ≤ s.command.status.serial
  agree : ∀ d ∈ s.decisions, ∀ side, has d.send_mask side = true →
    d.serial = s.command.status.serial →
    has d.desired_mask side = has s.command.latest.desired_mask side
  asked : ∀ d ∈ s.decisions, ∀ side, has d.send_mask side = true →
    ∃ request, .requested request ∈ s.told ∧ request.serial = d.serial ∧
      has request.desired_mask side = has d.desired_mask side
  about : ∀ side d, s.about side = some d → d ∈ s.decisions
  toggles : ∀ side, ∀ t ∈ s.under_way side, ∃ request, .requested request ∈ s.told ∧
    request.serial = t.serial ∧ has request.desired_mask side = t.desired

/-- What a side is about: nothing, a press to be transmitted, or a press that was accepted. -/
inductive Mode
  | resting
  | ready (decision : TaxiButtonCommandDecision)
  | flying (desired : Bool) (serial : Nat)

def flight_mode (flight : Flight) : Mode :=
  if flight.active then .flying flight.desired flight.serial else .resting

def mode_of (dispatch : Dispatch) (flight : Flight) (side : Side) : Mode := match dispatch with
  | .idle => flight_mode flight
  | .admitted decision other => if other = side then .ready decision else flight_mode flight
  | .transmitted decision other accepted =>
    if other = side then
      if accepted then .flying (has decision.desired_mask side) decision.serial else .ready decision
    else flight_mode flight

def mode : Mode := mode_of s.dispatch (s.command.flights side) side

/-- Where the button stood when each sample was made that can still be looked at. -/
def samples : List Bool := (s.sample :: s.observed).map (has · side)

/-- The button stands where every sample shows it, and no press is under way. -/
def Still : Prop :=
  s.under_way side = [] ∧ ∀ x ∈ s.samples side, x = has s.positions side

/-- The press is under way and the button has not moved, or it has run. -/
def Moving (desired : Bool) : Prop :=
  (∃ t, s.under_way side = [t] ∧ t.desired = desired ∧ t.number = s.accepted side ∧
      has s.positions side = !desired ∧ ∀ x ∈ s.samples side, x = !desired) ∨
    (s.under_way side = [] ∧ has s.positions side = desired ∧
      (s.samples side).Pairwise fun x y => x = desired → y = desired)

def Fits : Mode → Prop
  | .resting => s.Still side ∧ ∀ d ∈ s.decisions, has d.send_mask side = true →
    d.serial = s.command.status.serial → has s.command.status.pending_mask side = true →
    has d.desired_mask side = !has s.positions side
  | .ready decision => s.Still side ∧ has decision.desired_mask side = !has s.positions side ∧
    decision.serial ≤ s.command.status.serial ∧ ∀ d ∈ s.decisions, d.serial ≤ decision.serial
  | .flying desired serial => s.Moving side desired ∧ serial ≤ s.command.status.serial ∧
    (serial = s.command.status.serial → desired = has s.command.latest.desired_mask side) ∧
    ∀ d ∈ s.decisions, has d.send_mask side = true → d.serial ≤ serial

end

structure Sound (s : World) : Prop where
  explained : Explained Rightly s.told
  recorded : ∀ side, s.Recorded side
  asked : s.Asked
  fits : ∀ side, Alone side s.told → s.Fits side (s.mode side)

theorem Sound.initial (positions : Mask) : (start positions).Sound where
  explained := explained_nil
  recorded side := ⟨rfl, nofun⟩
  asked := {
    same := rfl
    latest := fun side h => by simp [start] at h
    ordered := nofun
    agree := nofun
    asked := nofun
    about := nofun
    toggles := nofun }
  fits side _ := by
    refine ⟨⟨rfl, ?_⟩, nofun⟩
    intro x hx
    simpa [samples, start] using hx

/-! ## Requests -/

section
variable {s s' : World} {side : Side}

/-- A change of the request's status, with more that was told. -/
theorem Asked.lapse (h : s.Asked) (hlatest : s'.command.latest = s.command.latest)
    (hserial : s'.command.status.serial = s.command.status.serial)
    (hpending : ∀ side, has s'.command.status.pending_mask side = true →
      has s.command.status.pending_mask side = true)
    (hdecisions : s'.decisions = s.decisions) (htold : ∀ e ∈ s.told, e ∈ s'.told)
    (habout : ∀ side d, s'.about side = some d → d ∈ s.decisions)
    (htoggles : ∀ side, ∀ t ∈ s'.under_way side, t ∈ s.under_way side) : s'.Asked where
  same := by rw [hserial, hlatest]; exact h.same
  latest side hp := by rw [hlatest]; exact htold _ (h.latest side (hpending side hp))
  ordered := by rw [hdecisions, hserial]; exact h.ordered
  agree := by rw [hdecisions, hserial, hlatest]; exact h.agree
  asked d hd side hsend := by
    obtain ⟨request, htold', hrest⟩ := h.asked d (hdecisions ▸ hd) side hsend
    exact ⟨request, htold _ htold', hrest⟩
  about side d hd := by rw [hdecisions]; exact habout side d hd
  toggles side t ht := by
    obtain ⟨request, htold', hrest⟩ := h.toggles side t (htoggles side t ht)
    exact ⟨request, htold _ htold', hrest⟩

variable {accepted desired : Bool} {e : Event} {told : List Event} {m : Mode} {other : Side}
variable {d : TaxiButtonCommandDecision}

theorem mem_snoc : ∀ x ∈ told, x ∈ told ++ [e] := fun _ hx => mem_append_left _ hx

theorem Asked.update (h : s.Asked) (request : TaxiButtonRequest) (permitted : Bool)
    (now epoch profile : Nat) (aircraft_buttons : Bool) :
    (s.update request permitted now epoch profile aircraft_buttons).Asked := by
  unfold World.update
  obtain hlapses | htakes := update_cases s.command request permitted now epoch profile aircraft_buttons
  · split
    · exact h.lapse hlapses.latest hlapses.serial hlapses.pending rfl mem_snoc h.about fun _ _ ht => ht
    · exact h.lapse hlapses.latest hlapses.serial hlapses.pending rfl (fun _ hx => hx) h.about fun _ _ ht => ht
  have holder : ∀ d ∈ s.decisions, d.serial < request.serial := fun d hd =>
    Nat.lt_of_le_of_lt (h.ordered d hd) (h.same ▸ htakes.newer)
  rw [if_pos htakes.newer]
  refine ⟨htakes.serial.trans (congrArg _ htakes.latest).symm, ?_, ?_, ?_, ?_, h.about, ?_⟩
  · intro side _
    dsimp only [tell]
    rw [htakes.latest]
    exact mem_append_right _ mem_cons_self
  · intro d hd
    dsimp only [tell]
    rw [htakes.serial]
    exact Nat.le_of_lt (holder d hd)
  · intro d hd side _ hsame
    exact absurd (hsame.trans htakes.serial) (Nat.ne_of_lt (holder d hd))
  · intro d hd side hsend
    obtain ⟨asked, htold, hrest⟩ := h.asked d hd side hsend
    exact ⟨asked, mem_snoc _ htold, hrest⟩
  · intro side t ht
    obtain ⟨asked, htold, hrest⟩ := h.toggles side t ht
    exact ⟨asked, mem_snoc _ htold, hrest⟩

theorem Asked.step_command (h : s.Asked) (c : TaxiButtonCommandContext) : (s.step_command c).Asked := by
  obtain ⟨hlatest, hserial, hdecision, -⟩ := step_keeps s.command (s.context c)
  have hsteps := step_steps s.command (s.context c)
  have hmore : ∀ told : List Event, (∀ e ∈ s.told, e ∈ told) → Asked { s with
      command := (s.command.step (s.context c)).1
      decisions := s.decisions ++ [(s.command.step (s.context c)).2], told } := by
    intro told htold
    refine ⟨by dsimp only; rw [hserial, hlatest]; exact h.same, ?_, ?_, ?_, ?_, ?_, ?_⟩
    · intro side hp
      rw [hlatest]
      exact htold _ (h.latest side ((hsteps side).pending hp).1)
    · intro d hd
      rw [hserial]
      rcases mem_append.mp hd with hd | hd
      · exact h.ordered d hd
      · rw [mem_singleton.mp hd, hdecision]
    · intro d hd side hsend hsame
      rw [hserial] at hsame
      rw [hlatest]
      rcases mem_append.mp hd with hd | hd
      · exact h.agree d hd side hsend hsame
      rw [mem_singleton.mp hd] at hsend ⊢
      exact ((hsteps side).send hsend).2.2.2.1
    · intro d hd side hsend
      rcases mem_append.mp hd with hd | hd
      · obtain ⟨request, htold', hrest⟩ := h.asked d hd side hsend
        exact ⟨request, htold _ htold', hrest⟩
      rw [mem_singleton.mp hd] at hsend ⊢
      obtain ⟨-, -, hpending, hdesired, -⟩ := (hsteps side).send hsend
      exact ⟨_, htold _ (h.latest side hpending), h.same.symm.trans hdecision.symm, hdesired.symm⟩
    · intro side d hd
      exact mem_append_left _ (h.about side d hd)
    · intro side t ht
      obtain ⟨request, htold', hrest⟩ := h.toggles side t ht
      exact ⟨request, htold _ htold', hrest⟩
  unfold World.step_command
  split
  · exact hmore _ mem_snoc
  · exact hmore _ fun _ hx => hx

theorem Asked.admit_press (h : s.Asked) (i : Nat) (other : Side) (now : Nat) : (s.admit_press i other now).Asked := by
  unfold World.admit_press
  split
  · rename_i decision hdecision
    split
    · refine h.lapse rfl rfl (fun _ hp => hp) rfl (fun _ hx => hx) ?_ fun _ _ ht => ht
      intro side d hd
      by_cases hother : other = side
      · simp only [World.about, hother, if_true, Option.some.injEq] at hd
        exact hd ▸ mem_of_getElem? hdecision
      · simp [World.about, hother] at hd
    · exact h
  · exact h

theorem Asked.transmit (h : s.Asked)
    (hdispatch : s.dispatch = .admitted d other) (hsend : has d.send_mask other = true)
    (accepted : Bool) : (s.transmit d other accepted).Asked := by
  have hmem : d ∈ s.decisions := h.about other d (by simp [World.about, hdispatch])
  have habout : ∀ side e, (if other = side then some d else none) = some e → e ∈ s.decisions := by
    intro side e he
    by_cases hother : other = side
    · rw [if_pos hother] at he
      exact Option.some.inj he ▸ hmem
    rw [if_neg hother] at he
    cases he
  unfold World.transmit
  cases accepted with
  | false => exact h.lapse rfl rfl (fun _ hp => hp) rfl (fun _ hx => hx) habout fun _ _ ht => ht
  | true =>
    refine ⟨h.same, fun side hp => mem_snoc _ (h.latest side hp), h.ordered, h.agree, ?_, habout, ?_⟩
    · intro e he side hs
      obtain ⟨request, htold, hrest⟩ := h.asked e he side hs
      exact ⟨request, mem_snoc _ htold, hrest⟩
    · intro side t ht
      have hold : ∀ side, ∀ t ∈ s.under_way side, ∃ request,
          Event.requested request ∈ s.told ++ [.accepted other (has d.desired_mask other) d.button_sample_ms] ∧
            request.serial = t.serial ∧ has request.desired_mask side = t.desired := by
        intro side t ht
        obtain ⟨request, htold, hrest⟩ := h.toggles side t ht
        exact ⟨request, mem_snoc _ htold, hrest⟩
      have hmember : t ∈ Function.update s.under_way other (s.under_way other ++
          [⟨s.accepted other + 1, has d.desired_mask other, d.serial⟩]) side := ht
      by_cases hother : side = other
      · subst hother
        rw [update_self] at hmember
        rcases mem_append.mp hmember with hearly | hnew
        · exact hold side t hearly
        obtain ⟨request, htold, hserial, hdesired⟩ := h.asked d hmem side hsend
        rw [mem_singleton.mp hnew]
        exact ⟨request, mem_snoc _ htold, hserial, hdesired⟩
      rw [update_of_ne hother] at hmember
      exact hold side t hmember

theorem Asked.record_press (h : s.Asked) (d : TaxiButtonCommandDecision) (other : Side)
    (accepted : Bool) (now : Nat) : (s.record_press d other accepted now).Asked := by
  obtain ⟨hlatest, hserial, hpending⟩ := sent_lapses s.command d other accepted now
  unfold World.record_press
  split
  · exact h.lapse hlatest hserial hpending rfl mem_snoc nofun fun _ _ ht => ht
  · exact h.lapse hlatest hserial hpending rfl (fun _ hx => hx) nofun fun _ _ ht => ht

theorem Asked.reject_press (h : s.Asked) (other : Side) : (s.reject_press other).Asked := by
  obtain ⟨hlatest, hserial, hpending⟩ := rejected_lapses s.command other
  have htoggles : ∀ side, ∀ t ∈ Function.update s.under_way other
      ((s.under_way other).filter fun toggle => toggle.number != s.accepted other) side,
      t ∈ s.under_way side := by
    intro side t ht
    by_cases hother : side = other
    · subst hother
      rw [update_self] at ht
      exact (mem_filter.mp ht).1
    · rwa [update_of_ne hother] at ht
  unfold World.reject_press
  split
  · exact h.lapse hlatest hserial hpending rfl (fun x hx => mem_snoc x (mem_snoc x hx)) h.about htoggles
  · exact h.lapse hlatest hserial hpending rfl mem_snoc h.about htoggles

theorem Asked.execute (h : s.Asked) (other : Side) (k : Nat) : (s.execute other k).Asked := by
  unfold World.execute
  split
  · exact h
  refine h.lapse rfl rfl (fun _ hp => hp) rfl mem_snoc h.about ?_
  intro side t ht
  dsimp only [tell] at ht
  by_cases hother : side = other
  · subst hother
    rw [update_self] at ht
    exact mem_of_mem_eraseIdx ht
  · rwa [update_of_ne hother] at ht

theorem Asked.deliver (h : s.Asked) (ms : Nat) : (s.deliver ms).Asked := by
  unfold World.deliver
  split
  · exact h
  split
  · exact h.lapse rfl rfl (fun _ hp => hp) rfl (fun _ hx => hx) h.about fun _ _ ht => ht
  · exact h

/-! ## Where the button stands -/

/-- The button, its samples and its presses are as they were. -/
structure Alike (s s' : World) (side : Side) : Prop where
  positions : has s'.positions side = has s.positions side
  samples : s'.samples side = s.samples side
  under_way : s'.under_way side = s.under_way side
  accepted : s'.accepted side = s.accepted side

theorem Still.alike (h : s.Still side) (ha : s.Alike s' side) : s'.Still side := by
  refine ⟨ha.under_way.trans h.1, ?_⟩
  rw [ha.samples, ha.positions]
  exact h.2

theorem Moving.alike (h : s.Moving side desired) (ha : s.Alike s' side) : s'.Moving side desired := by
  unfold Moving at h ⊢
  rw [ha.under_way, ha.samples, ha.positions, ha.accepted]
  exact h

/-- The status of the request may change, and the button is left alone. -/
theorem Fits.lapse (h : s.Fits side m) (ha : s.Alike s' side)
    (hdecisions : s'.decisions = s.decisions) (hlatest : s'.command.latest = s.command.latest)
    (hserial : s'.command.status.serial = s.command.status.serial)
    (hpending : has s'.command.status.pending_mask side = true →
      has s.command.status.pending_mask side = true) : s'.Fits side m := by
  cases m with
  | resting =>
    obtain ⟨hstill, hdesired⟩ := h
    refine ⟨hstill.alike ha, ?_⟩
    rw [hdecisions, hserial, ha.positions]
    exact fun d hd hsend hsame hp => hdesired d hd hsend hsame (hpending hp)
  | ready decision =>
    obtain ⟨hstill, hdesired, hle, hlast⟩ := h
    refine ⟨hstill.alike ha, ?_⟩
    rw [hdecisions, hserial, ha.positions]
    exact ⟨hdesired, hle, hlast⟩
  | flying desired serial =>
    obtain ⟨hmoving, hrest⟩ := h
    refine ⟨hmoving.alike ha, ?_⟩
    rw [hdecisions, hserial, hlatest]
    exact hrest

/-- A newer request came: what is about belongs to an older one. -/
theorem Fits.renew (h : s.Fits side m) (ha : s.Alike s' side) (hdecisions : s'.decisions = s.decisions)
    (hordered : ∀ d ∈ s.decisions, d.serial ≤ s.command.status.serial)
    (hserial : s.command.status.serial < s'.command.status.serial) : s'.Fits side m := by
  cases m with
  | resting =>
    refine ⟨h.1.alike ha, ?_⟩
    rw [hdecisions]
    intro d hd _ hsame
    exact absurd hsame (Nat.ne_of_lt (Nat.lt_of_le_of_lt (hordered d hd) hserial))
  | ready decision =>
    obtain ⟨hstill, hdesired, hle, hlast⟩ := h
    refine ⟨hstill.alike ha, ?_⟩
    rw [hdecisions, ha.positions]
    exact ⟨hdesired, Nat.le_trans hle (Nat.le_of_lt hserial), hlast⟩
  | flying desired serial =>
    obtain ⟨hmoving, hle, -, hlast⟩ := h
    refine ⟨hmoving.alike ha, Nat.le_trans hle (Nat.le_of_lt hserial), ?_, ?_⟩
    · intro hsame
      exact absurd hsame (Nat.ne_of_lt (Nat.lt_of_le_of_lt hle hserial))
    · rw [hdecisions]
      exact hlast

theorem mode_idle (h : s.dispatch = .idle) (flight : Flight) :
    mode_of s.dispatch flight side = flight_mode flight := by rw [h]; rfl

theorem Alone.before (h : Alone side (told ++ [e])) : Alone side told :=
  ⟨fun hp => h.1 (mem_snoc _ hp), fun hm => h.2 (mem_snoc _ hm)⟩

theorem fits_update (hasked : s.Asked) (h : s.Fits side (s.mode side)) (request : TaxiButtonRequest)
    (permitted : Bool) (now epoch profile : Nat) (aircraft_buttons : Bool) :
    (s.update request permitted now epoch profile aircraft_buttons).Fits side
      ((s.update request permitted now epoch profile aircraft_buttons).mode side) := by
  have hany : ∀ told : List Event, World.Fits { s with
      command := s.command.update request permitted now epoch profile aircraft_buttons, told } side
      (mode_of s.dispatch ((s.command.update request permitted now epoch profile
        aircraft_buttons).flights side) side) := by
    intro told
    obtain hlapses | htakes := update_cases s.command request permitted now epoch profile aircraft_buttons
    · rw [hlapses.flights]
      exact h.lapse ⟨rfl, rfl, rfl, rfl⟩ rfl hlapses.latest hlapses.serial (hlapses.pending side)
    rw [htakes.flights]
    refine h.renew ⟨rfl, rfl, rfl, rfl⟩ rfl hasked.ordered ?_
    rw [htakes.serial, hasked.same]
    exact htakes.newer
  unfold update
  split
  · exact hany _
  · exact hany _

/-- The last sample shows what the press was to bring about: it has run, and all samples show it. -/
theorem Moving.seen (h : s.Moving side desired) (hsample : has s.sample side = desired) :
    s.Still side ∧ has s.positions side = desired := by
  obtain ⟨t, -, -, -, -, hold⟩ | ⟨hnone, hposition, hturned⟩ := h
  · have hfirst := hold (has s.sample side) mem_cons_self
    rw [hsample] at hfirst
    cases desired <;> cases hfirst
  refine ⟨⟨hnone, ?_⟩, hposition⟩
  intro x hx
  rw [hposition]
  rcases mem_cons.mp hx with rfl | hx
  · exact hsample
  · exact rel_of_pairwise_cons hturned hx hsample

theorem fits_step_command (hidle : s.dispatch = .idle)
    (h : s.Fits side (s.mode side)) (c : TaxiButtonCommandContext) :
    (s.step_command c).Fits side ((s.step_command c).mode side) := by
  obtain ⟨hlatest, hserial, hdecision, -⟩ := step_keeps s.command (s.context c)
  obtain ⟨hflight, hpending, hsend⟩ := step_steps s.command (s.context c) side
  rw [mode, mode_idle hidle] at h
  have hany : ∀ told : List Event, World.Fits { s with
      command := (s.command.step (s.context c)).1
      decisions := s.decisions ++ [(s.command.step (s.context c)).2], told } side
      (mode_of s.dispatch ((s.command.step (s.context c)).1.flights side) side) := by
    intro told
    rw [mode_idle hidle]
    cases hactive : (s.command.flights side).active with
    | false =>
      -- nothing was in flight: a new decision presses away from where the button stands
      have hsame : (s.command.step (s.context c)).1.flights side = s.command.flights side := by
        rw [hflight]
        simp [acknowledged, hactive]
      have hrest : flight_mode (s.command.flights side) = .resting := by simp [flight_mode, hactive]
      rw [hsame, hrest]
      rw [hrest] at h
      refine ⟨h.1, ?_⟩
      intro d hd hsendd hsame hp
      rw [hserial] at hsame
      rcases mem_append.mp hd with hd | hd
      · exact h.2 d hd hsendd hsame (hpending hp).1
      rw [mem_singleton.mp hd] at hsendd ⊢
      obtain ⟨-, -, -, hdesired, hactual⟩ := hsend hsendd
      have hsample : has s.sample side = has s.positions side := h.1.2 _ mem_cons_self
      rw [hdesired, ← hsample]
      show _ = !has (s.context c).actual_mask side
      rw [hactual, Bool.not_not]
    | true =>
      have hfly : flight_mode (s.command.flights side) =
          .flying (s.command.flights side).desired (s.command.flights side).serial := by
        simp [flight_mode, hactive]
      rw [hfly] at h
      obtain ⟨hmoving, hle, hsame, hlast⟩ := h
      by_cases hack : (looks (s.context c) && acknowledged (s.context c) side (s.command.flights side)) = true
      · -- the lamp acknowledges the press: it has run
        rw [if_pos hack] at hflight
        rw [hflight]
        simp only [acknowledged, Bool.and_eq_true, beq_iff_eq] at hack
        obtain ⟨hlooks, -, hshown⟩ := hack
        obtain ⟨hstill, hposition⟩ := hmoving.seen hshown
        refine ⟨hstill, ?_⟩
        intro d hd hsendd hsamed hp
        rw [hserial] at hsamed
        have hother := (hpending hp).2 hlooks (by rw [hflight])
        rcases mem_append.mp hd with hd | hd
        · have heq : (s.command.flights side).serial = s.command.status.serial :=
            Nat.le_antisymm hle (hsamed ▸ hlast d hd hsendd)
          exact absurd (hshown.trans (hsame heq)) hother
        rw [mem_singleton.mp hd] at hsendd ⊢
        obtain ⟨-, -, -, hdesired, hactual⟩ := hsend hsendd
        rw [hdesired, hposition, ← hshown]
        rw [hactual, Bool.not_not]
      rw [if_neg hack] at hflight
      rw [hflight, hfly]
      refine ⟨hmoving, ?_, ?_, ?_⟩
      · dsimp only
        rw [hserial]
        exact hle
      · dsimp only
        rw [hserial, hlatest]
        exact hsame
      · intro d hd hsendd
        rcases mem_append.mp hd with hd | hd
        · exact hlast d hd hsendd
        rw [mem_singleton.mp hd] at hsendd
        have hfree := (hsend hsendd).2.1
        rw [hflight, hactive] at hfree
        cases hfree
  unfold step_command
  split
  · exact hany _
  · exact hany _

theorem fits_admit_press (hasked : s.Asked) (hidle : s.dispatch = .idle)
    (h : s.Fits side (s.mode side)) (i : Nat) (other : Side) (now : Nat) :
    (s.admit_press i other now).Fits side ((s.admit_press i other now).mode side) := by
  unfold admit_press
  split
  · rename_i decision hdecision
    have hmem := mem_of_getElem? hdecision
    split
    · rename_i hcurrent
      obtain ⟨hsend, hfree, hserial, hpending⟩ := current_spec hcurrent
      rw [mode, mode_idle hidle] at h
      show Fits _ side (if other = side then .ready decision else flight_mode (s.command.flights side))
      by_cases hother : other = side
      · subst hother
        simp only [flight_mode, hfree, Bool.false_eq_true, if_false] at h
        rw [if_pos rfl]
        refine ⟨h.1, h.2 decision hmem hsend hserial hpending, Nat.le_of_eq hserial, ?_⟩
        intro d hd
        rw [hserial]
        exact hasked.ordered d hd
      rw [if_neg hother]
      exact h.lapse ⟨rfl, rfl, rfl, rfl⟩ rfl rfl rfl id
    · exact h
  · exact h

theorem fits_transmit (hasked : s.Asked)
    (hdispatch : s.dispatch = .admitted d other) (hsend : has d.send_mask other = true)
    (h : s.Fits side (s.mode side)) (accepted : Bool) :
    (s.transmit d other accepted).Fits side ((s.transmit d other accepted).mode side) := by
  have hmem : d ∈ s.decisions := hasked.about other d (by simp [about, hdispatch])
  rw [mode, hdispatch] at h
  have hmode : mode_of (.admitted d other) (s.command.flights side) side =
      if other = side then .ready d else flight_mode (s.command.flights side) := rfl
  rw [hmode] at h
  unfold transmit
  by_cases hother : other = side
  · subst hother
    rw [if_pos rfl] at h
    cases accepted with
    | false =>
      show Fits _ other (if other = other then .ready d else _)
      rw [if_pos rfl]
      exact h.lapse ⟨rfl, rfl, rfl, rfl⟩ rfl rfl rfl id
    | true =>
      have hflying : mode_of (.transmitted d other true) (s.command.flights other) other =
          .flying (has d.desired_mask other) d.serial := by simp [mode_of]
      show Fits _ other (mode_of (.transmitted d other true) (s.command.flights other) other)
      rw [hflying]
      obtain ⟨⟨hnone, hsamples⟩, hdesired, hle, hlast⟩ := h
      have hposition : has s.positions other = !has d.desired_mask other := by
        rw [hdesired, Bool.not_not]
      refine ⟨.inl ⟨⟨s.accepted other + 1, has d.desired_mask other, d.serial⟩, ?_, rfl, ?_, hposition, ?_⟩,
        hle, ?_, fun e he _ => hlast e he⟩
      · show Function.update s.under_way other _ other = _
        rw [update_self, hnone, nil_append]
      · show _ = Function.update s.accepted other _ other
        rw [update_self]
      · intro x hx
        rw [← hposition]
        exact hsamples x hx
      · exact fun hserial => hasked.agree d hmem other hsend hserial
  · rw [if_neg hother] at h
    cases accepted with
    | false =>
      show Fits _ side (if other = side then _ else flight_mode (s.command.flights side))
      rw [if_neg hother]
      exact h.lapse ⟨rfl, rfl, rfl, rfl⟩ rfl rfl rfl id
    | true =>
      show Fits _ side (if other = side then _ else flight_mode (s.command.flights side))
      rw [if_neg hother]
      exact h.lapse ⟨rfl, rfl, update_of_ne (Ne.symm hother) _ _, update_of_ne (Ne.symm hother) _ _⟩ rfl rfl rfl id

/-- A press that failed ends its request, so that no decision of it is admitted again. -/
theorem Fits.failed (h : s.Fits side (.ready d)) (ha : s.Alike s' side) (hdecisions : s'.decisions = s.decisions)
    (hserial : s'.command.status.serial = s.command.status.serial)
    (hfailed : d.serial = s.command.status.serial →
      has s'.command.status.pending_mask side = false) : s'.Fits side .resting := by
  obtain ⟨hstill, -, hle, hlast⟩ := h
  refine ⟨hstill.alike ha, ?_⟩
  rw [hdecisions, hserial]
  intro e he _ hsame hp
  have heq : d.serial = s.command.status.serial := Nat.le_antisymm hle (hsame ▸ hlast e he)
  rw [hfailed heq] at hp
  cases hp

theorem fits_record_press (hdispatch : s.dispatch = .transmitted d other accepted) (hsend : has d.send_mask other = true)
    (hfree : (s.command.flights other).active = false) (h : s.Fits side (s.mode side)) (now : Nat) :
    (s.record_press d other accepted now).Fits side ((s.record_press d other accepted now).mode side) := by
  obtain ⟨hlatest, hserial, hpending⟩ := sent_lapses s.command d other accepted now
  rw [mode, hdispatch] at h
  have hmode : mode_of (.transmitted d other accepted) (s.command.flights side) side =
      if other = side then
        if accepted then .flying (has d.desired_mask side) d.serial else .ready d
      else flight_mode (s.command.flights side) := rfl
  rw [hmode] at h
  have hany : ∀ told : List Event, World.Fits { s with
      command := s.command.sent d other accepted now, dispatch := .idle, told } side
      (flight_mode ((s.command.sent d other accepted now).flights side)) := by
    intro told
    by_cases hother : other = side
    · subst hother
      rw [sent_flight_self s.command hsend accepted now]
      rw [if_pos rfl] at h
      cases accepted with
      | true => exact h.lapse ⟨rfl, rfl, rfl, rfl⟩ rfl hlatest hserial (hpending other)
      | false =>
        simp only [Bool.false_eq_true, if_false, flight_mode, hfree] at h ⊢
        refine h.failed ⟨rfl, rfl, rfl, rfl⟩ rfl hserial ?_
        intro hsame
        simp [sent, hsend, hsame]
    rw [sent_flight_other s.command d accepted now (Ne.symm hother)]
    rw [if_neg hother] at h
    exact h.lapse ⟨rfl, rfl, rfl, rfl⟩ rfl hlatest hserial (hpending side)
  unfold record_press
  cases accepted with
  | true => exact hany _
  | false => exact hany _

theorem fits_reject_press (hidle : s.dispatch = .idle) (h : s.Fits side (s.mode side)) (other : Side)
    (hproved : other = side → (s.command.flights side).active = true → s.last_under_way side = true) :
    (s.reject_press other).Fits side ((s.reject_press other).mode side) := by
  obtain ⟨hlatest, hserial, hpending⟩ := rejected_lapses s.command other
  have hflight := rejected_flight s.command other side
  rw [mode, mode_idle hidle] at h
  have hany : ∀ told : List Event, World.Fits { s with
      command := s.command.rejected other
      under_way := Function.update s.under_way other
        ((s.under_way other).filter fun toggle => toggle.number != s.accepted other), told } side
      (mode_of s.dispatch ((s.command.rejected other).flights side) side) := by
    intro told
    rw [mode_idle hidle, hflight]
    by_cases hother : side = other
    · subst hother
      cases hactive : (s.command.flights side).active with
      | false =>
        rw [if_neg (by simp)]
        simp only [flight_mode, hactive, Bool.false_eq_true, if_false] at h ⊢
        obtain ⟨⟨hnone, hsamples⟩, hrest⟩ := h
        refine ⟨⟨?_, hsamples⟩, ?_⟩
        · show Function.update s.under_way side _ side = []
          rw [update_self, hnone]
          rfl
        · dsimp only
          rw [hserial]
          exact fun d hd hsend hsame hp => hrest d hd hsend hsame (hpending side hp)
      | true =>
        rw [if_pos ⟨rfl, rfl⟩]
        simp only [flight_mode, hactive, if_true] at h
        obtain ⟨hmoving, hle, -, hlast⟩ := h
        have hlate := hproved rfl hactive
        obtain ⟨t, hone, -, hnumber, hposition, hsamples⟩ | ⟨hnone, -⟩ := hmoving
        · -- the press that did not run is gone, and the button stands where it stood
          refine ⟨⟨?_, ?_⟩, ?_⟩
          · show Function.update s.under_way side _ side = []
            rw [update_self, hone]
            simp [hnumber]
          · intro x hx
            exact (hsamples x hx).trans hposition.symm
          · dsimp only
            rw [hserial]
            intro d hd hsend hsame hp
            have heq : (s.command.flights side).serial = s.command.status.serial :=
              Nat.le_antisymm hle (hsame ▸ hlast d hd hsend)
            simp [rejected, hactive, heq] at hp
        · simp [last_under_way, hnone] at hlate
    · rw [if_neg fun hand => hother hand.1]
      exact h.lapse ⟨rfl, rfl, update_of_ne hother _ _, rfl⟩ rfl hlatest hserial (hpending side)
  unfold reject_press
  split
  · exact hany _
  · exact hany _

theorem samples_observe :
    World.samples { s with observed := s.observed ++ [s.positions] } side =
      s.samples side ++ [has s.positions side] := by
  simp [samples]

theorem Still.observe (h : s.Still side) : World.Still { s with observed := s.observed ++ [s.positions] } side := by
  refine ⟨h.1, ?_⟩
  rw [samples_observe]
  intro x hx
  rcases mem_append.mp hx with hx | hx
  · exact h.2 x hx
  · exact mem_singleton.mp hx

theorem fits_observe (h : s.Fits side m) : World.Fits { s with observed := s.observed ++ [s.positions] } side m := by
  cases m with
  | resting => exact ⟨h.1.observe, h.2⟩
  | ready decision => exact ⟨h.1.observe, h.2⟩
  | flying desired serial =>
    refine ⟨?_, h.2⟩
    unfold Moving
    rw [samples_observe]
    obtain ⟨t, hone, hdesired, hnumber, hposition, hsamples⟩ | ⟨hnone, hposition, hturned⟩ := h.1
    · refine .inl ⟨t, hone, hdesired, hnumber, hposition, ?_⟩
      intro x hx
      rcases mem_append.mp hx with hx | hx
      · exact hsamples x hx
      · exact (mem_singleton.mp hx).trans hposition
    refine .inr ⟨hnone, hposition, ?_⟩
    refine pairwise_append.mpr ⟨hturned, pairwise_singleton _ _, ?_⟩
    intro x _ y hy _
    exact (mem_singleton.mp hy).trans hposition

/-- A sample is not looked at again once a later one arrived. -/
theorem fits_deliver (h : s.Fits side m) (ms : Nat) : (s.deliver ms).Fits side m := by
  unfold deliver
  split
  · exact h
  rename_i sample rest hobserved
  split
  · have hsplit : s.samples side = has s.sample side :: (sample :: rest).map (has · side) := by
      simp [samples, hobserved]
    have htail : ∀ x ∈ (sample :: rest).map (has · side), x ∈ s.samples side := by
      intro x hx
      rw [hsplit]
      exact mem_cons_of_mem _ hx
    cases m with
    | resting => exact ⟨⟨h.1.1, fun x hx => h.1.2 x (htail x hx)⟩, h.2⟩
    | ready decision => exact ⟨⟨h.1.1, fun x hx => h.1.2 x (htail x hx)⟩, h.2⟩
    | flying desired serial =>
      refine ⟨?_, h.2⟩
      obtain ⟨t, hone, hdesired, hnumber, hposition, hsamples⟩ | ⟨hnone, hposition, hturned⟩ := h.1
      · exact .inl ⟨t, hone, hdesired, hnumber, hposition, fun x hx => hsamples x (htail x hx)⟩
      rw [hsplit] at hturned
      exact .inr ⟨hnone, hposition, hturned.of_cons⟩
  · exact h

/-- A press that runs is the one under way, and finds the button in the other position. -/
theorem fits_execute (h : s.Fits side m) (other : Side) (k : Nat) :
    (s.execute other k).Fits side m ∧
      ∀ toggle, other = side → (s.under_way other)[k]? = some toggle → has s.positions side = !toggle.desired := by
  by_cases hother : other = side
  · subst hother
    have hnone : s.under_way other = [] → (s.execute other k).Fits other m ∧
        ∀ toggle, other = other → (s.under_way other)[k]? = some toggle →
          has s.positions other = !toggle.desired := by
      intro hempty
      have hget : (s.under_way other)[k]? = none := by rw [hempty]; rfl
      refine ⟨?_, fun toggle _ htoggle => by rw [hget] at htoggle; cases htoggle⟩
      simpa only [execute, hget] using h
    cases m with
    | resting => exact hnone h.1.1
    | ready decision => exact hnone h.1.1
    | flying desired serial =>
      obtain ⟨t, hone, hdesired, -, hposition, hsamples⟩ | ⟨hempty, -⟩ := h.1
      · cases k with
        | zero =>
          have hget : (s.under_way other)[0]? = some t := by rw [hone]; rfl
          refine ⟨?_, ?_⟩
          · simp only [execute, hget]
            refine ⟨.inr ⟨?_, ?_, ?_⟩, h.2⟩
            · show Function.update s.under_way other _ other = []
              rw [update_self, hone]
              rfl
            · show has (s.positions ^^^ bit other) other = desired
              rw [has_xor_bit, hposition]
              simp
            · refine pairwise_iff_forall_sublist.mpr fun {x y} hsub hx => ?_
              have hold := hsamples x (hsub.subset mem_cons_self)
              rw [hx] at hold
              cases desired <;> cases hold
          · intro toggle _ htoggle
            rw [hget] at htoggle
            cases htoggle
            rw [hposition, hdesired]
        | succ k =>
          have hget : (s.under_way other)[k + 1]? = none := by rw [hone]; rfl
          refine ⟨?_, fun toggle _ htoggle => by rw [hget] at htoggle; cases htoggle⟩
          simpa only [execute, hget] using h
      · exact hnone hempty
  · refine ⟨?_, fun _ hsame => absurd hsame hother⟩
    unfold execute
    split
    · exact h
    refine h.lapse ⟨?_, rfl, update_of_ne (Ne.symm hother) _ _, rfl⟩ rfl rfl rfl id
    show has (s.positions ^^^ bit other) side = has s.positions side
    rw [has_xor_bit]
    simp [Ne.symm hother]

/-! ## Steps -/

/-- A change after which nothing new is told of a press that ran. -/
theorem Sound.change (h : s.Sound) (hrecorded : ∀ side, s'.Recorded side) (hasked : s'.Asked)
    (htold : s'.told = s.told ∨ ∃ e, s'.told = s.told ++ [e] ∧ Rightly s.told e)
    (hfits : ∀ side, Alone side s.told → Alone side s'.told → s'.Fits side (s'.mode side)) : s'.Sound where
  explained := by
    obtain hsame | ⟨e, hmore, he⟩ := htold
    · rw [hsame]; exact h.explained
    · rw [hmore]; exact explained_snoc h.explained he
  recorded := hrecorded
  asked := hasked
  fits side halone := by
    refine hfits side ?_ halone
    obtain hsame | ⟨e, hmore, -⟩ := htold
    · rw [hsame] at halone; exact halone
    · rw [hmore] at halone; exact halone.before

theorem Sound.reject_press (h : s.Sound) (hidle : s.dispatch = .idle) (other : Side) :
    (s.reject_press other).Sound := by
  have hcase : (s.reject_press other).told = s.told ++ [.rejected other] ∨
      (s.reject_press other).told = s.told ++ [.misreported other] ++ [.rejected other] := by
    unfold World.reject_press
    split
    · exact .inr rfl
    · exact .inl rfl
  have hreported : Alone other (s.reject_press other).told →
      (s.command.flights other).active = true → s.last_under_way other = true := by
    intro halone hactive
    by_contra hnot
    have hlast : s.last_under_way other = false := by simpa using hnot
    have hmis : (s.reject_press other).told = s.told ++ [.misreported other] ++ [.rejected other] := by
      simp [World.reject_press, hactive, hlast, tell]
    refine halone.2 ?_
    rw [hmis]
    simp
  refine ⟨?_, fun side => (h.recorded side).reject_press hidle other, h.asked.reject_press other, ?_⟩
  · obtain htold | htold := hcase
    · rw [htold]
      exact explained_snoc h.explained trivial
    rw [htold]
    exact explained_snoc (explained_snoc h.explained trivial) trivial
  · intro side halone
    have hbefore : Alone side s.told := by
      obtain htold | htold := hcase
      · rw [htold] at halone
        exact halone.before
      rw [htold] at halone
      exact halone.before.before
    refine fits_reject_press hidle (h.fits side hbefore) other ?_
    rintro rfl
    exact hreported halone

theorem Sound.execute (h : s.Sound) (other : Side) (k : Nat) : (s.execute other k).Sound := by
  cases htoggle : (s.under_way other)[k]? with
  | none =>
    have hsame : s.execute other k = s := by simp only [World.execute, htoggle]
    rw [hsame]
    exact h
  | some toggle =>
    have hdispatch : (s.execute other k).dispatch = s.dispatch := by
      simp only [World.execute, htoggle, tell]
    have hcommand : (s.execute other k).command = s.command := by
      simp only [World.execute, htoggle, tell]
    have htold : (s.execute other k).told =
        s.told ++ [.executed other toggle.desired toggle.serial (has s.positions other)] := by
      simp only [World.execute, htoggle, tell]
    refine h.change (fun side => (h.recorded side).execute other k) (h.asked.execute other k)
      (.inr ⟨_, htold, ?_, ?_⟩) ?_
    · intro halone
      exact (fits_execute (h.fits other halone) other k).2 toggle rfl htoggle
    · exact h.asked.toggles other toggle (mem_of_getElem? htoggle)
    · intro side halone _
      rw [mode, hdispatch, hcommand]
      exact (fits_execute (h.fits side halone) other k).1

theorem Sound.update (h : s.Sound) (request : TaxiButtonRequest) (permitted : Bool)
    (now epoch profile : Nat) (aircraft_buttons : Bool) :
    (s.update request permitted now epoch profile aircraft_buttons).Sound := by
  refine h.change (fun side => (h.recorded side).update ..) (h.asked.update ..) ?_
    fun side halone _ => fits_update h.asked (h.fits side halone) ..
  unfold World.update
  split
  · exact .inr ⟨_, rfl, trivial⟩
  · exact .inl rfl

theorem Sound.step_command (h : s.Sound) (hidle : s.dispatch = .idle) (c : TaxiButtonCommandContext) :
    (s.step_command c).Sound := by
  refine h.change (fun side => (h.recorded side).step_command hidle c) (h.asked.step_command c) ?_
    fun side halone _ => fits_step_command hidle (h.fits side halone) c
  unfold World.step_command
  split
  · exact .inr ⟨_, rfl, trivial⟩
  · exact .inl rfl

theorem Sound.admit_press (h : s.Sound) (hidle : s.dispatch = .idle) (i : Nat) (other : Side)
    (now : Nat) : (s.admit_press i other now).Sound := by
  refine h.change (fun side => (h.recorded side).admit_press hidle i other now)
    (h.asked.admit_press i other now) (.inl ?_)
    fun side halone _ => fits_admit_press h.asked hidle (h.fits side halone) i other now
  unfold World.admit_press
  split
  · split <;> rfl
  · rfl

theorem Sound.transmit (h : s.Sound) (hdispatch : s.dispatch = .admitted d other) (accepted : Bool) :
    (s.transmit d other accepted).Sound := by
  have hsend := ((h.recorded other).free d (by simp [about, hdispatch])).2
  refine h.change (fun side => (h.recorded side).transmit hdispatch accepted)
    (h.asked.transmit hdispatch hsend accepted) ?_
    fun side halone _ => fits_transmit h.asked hdispatch hsend (h.fits side halone) accepted
  cases accepted with
  | true => exact .inr ⟨_, rfl, trivial⟩
  | false => exact .inl rfl

theorem Sound.record_press (h : s.Sound) (hdispatch : s.dispatch = .transmitted d other accepted) (now : Nat) :
    (s.record_press d other accepted now).Sound := by
  obtain ⟨hfree, hsend⟩ := (h.recorded other).free d (by simp [about, hdispatch])
  refine h.change (fun side => (h.recorded side).record_press hdispatch now)
    (h.asked.record_press d other accepted now) ?_
    fun side halone _ => fits_record_press hdispatch hsend hfree (h.fits side halone) now
  cases accepted with
  | true => exact .inr ⟨_, rfl, trivial⟩
  | false => exact .inl rfl

theorem Sound.deliver (h : s.Sound) (ms : Nat) : (s.deliver ms).Sound := by
  have hkeeps : (s.deliver ms).told = s.told ∧ (s.deliver ms).dispatch = s.dispatch ∧
      (s.deliver ms).command = s.command := by
    unfold World.deliver
    split
    · exact ⟨rfl, rfl, rfl⟩
    · split <;> exact ⟨rfl, rfl, rfl⟩
  refine h.change (fun side => (h.recorded side).deliver ms) (h.asked.deliver ms) (.inl hkeeps.1) ?_
  intro side halone _
  rw [mode, hkeeps.2.1, hkeeps.2.2]
  exact fits_deliver (h.fits side halone) ms

theorem Sound.observe (h : s.Sound) : World.Sound { s with observed := s.observed ++ [s.positions] } := by
  refine h.change (fun side => (h.recorded side).same rfl rfl rfl) ?_ (.inl rfl)
    fun side halone _ => fits_observe (h.fits side halone)
  exact h.asked.lapse rfl rfl (fun _ hp => hp) rfl (fun _ hx => hx) h.asked.about fun _ _ ht => ht

/-- Something else moves the button. -/
theorem Sound.press (h : s.Sound) (other : Side) :
    World.Sound ({ s with positions := s.positions ^^^ bit other }.tell (.pressed other)) := by
  refine h.change (fun side => (h.recorded side).same rfl rfl unacknowledged_snoc) ?_ (.inr ⟨_, rfl, trivial⟩) ?_
  · exact h.asked.lapse rfl rfl (fun _ hp => hp) rfl mem_snoc h.asked.about fun _ _ ht => ht
  · intro side halone hstill
    have hother : side ≠ other := by
      rintro rfl
      exact hstill.1 (mem_append_right _ mem_cons_self)
    refine (h.fits side halone).lapse ⟨?_, rfl, rfl, rfl⟩ rfl rfl rfl id
    show has (s.positions ^^^ bit other) side = has s.positions side
    rw [has_xor_bit]
    simp [hother]

theorem Sound.step (h : s.Sound) (operation : Operation) : (World.step s operation).Sound := by
  cases operation with
  | update request permitted now epoch profile aircraft_buttons => exact h.update ..
  | step c =>
    unfold World.step
    dsimp only
    split
    · rename_i hidle
      exact h.step_command hidle c
    · exact h
  | current i side now =>
    unfold World.step
    dsimp only
    split
    · rename_i hidle
      exact h.admit_press hidle i side now
    · exact h
  | transmit accepted =>
    unfold World.step
    dsimp only
    split
    · rename_i hdispatch
      exact h.transmit hdispatch accepted
    · exact h
  | sent now =>
    unfold World.step
    dsimp only
    split
    · rename_i hdispatch
      exact h.record_press hdispatch now
    · exact h
  | rejected side =>
    unfold World.step
    dsimp only
    split
    · rename_i hidle
      exact h.reject_press hidle side
    · exact h
  | observe => exact h.observe
  | deliver ms => exact h.deliver ms
  | execute side k => exact h.execute side k
  | press side => exact h.press side

end

/-! ## The law -/

/-- In every run, with presses that the aircraft executes at any time and lamps that are seen
late: a side has one accepted press at most that is not acknowledged; and where nothing else moves
the button, a press that runs moves it from the other position to the one desired by the request
that sent it. -/
theorem a_press_is_never_repeated (positions : Mask) (operations : List Operation) :
    let s := run World.step (start positions) operations
    (∀ side, (unacknowledged side s.told).length ≤ 1) ∧ Explained Rightly s.told := by
  intro s
  have h : s.Sound := invariant (fun (s : World) operation h => h.step operation) operations (.initial positions)
  refine ⟨fun side => ?_, h.explained⟩
  rw [(h.recorded side).ledger]
  have hflown : ∀ flight, (flown flight).length ≤ 1 := by
    intro flight
    unfold flown
    split
    · exact Nat.le_refl 1
    · exact Nat.zero_le 1
  unfold outstanding
  split
  · split
    · exact Nat.le_refl 1
    · exact hflown _
  · exact hflown _

end World

end TaxiButtonCommand

end taxi_camera.native_camera
