-- The camera shortcuts of the companion: a press of a shortcut toggles sides, on
-- top of what earlier presses asked for and the bridge has not finished.
-- src/shared/manual_camera_intent.hpp; the profile and the settings as it reads
-- them, and what valid_settings of src/shared/protocol.hpp checks of them.
import TaxiCam.TaxiButtons
import Mathlib.Tactic.IntervalCases

namespace taxi_camera.standalone

open native_camera
open BitVec (getLsbD_and getLsbD_or)
open Bool (and_eq_true or_eq_true)

/-! ## Masks -/

section
variable (a b : Mask) (side : Side)

@[simp] theorem has_and : has (a &&& b) side = (has a side && has b side) := by simp [has]

@[simp] theorem has_or : has (a ||| b) side = (has a side || has b side) := by simp [has]

@[simp] theorem has_not : has (~~~a) side = !has a side := by
  have hlt := side_lt side
  simp [has, hlt]

end

/-- No side of one mask is outside of the other. -/
def Within (a b : Mask) : Prop := a &&& ~~~b = 0#32

instance (a b : Mask) : Decidable (Within a b) := inferInstanceAs (Decidable (_ = _))

section
variable {a b c : Mask}

theorem within_iff : Within a b ↔ ∀ i : Nat, a.getLsbD i = true → b.getLsbD i = true := by
  constructor
  · intro h i hi
    have hlt : i < 32 := BitVec.lt_of_getLsbD hi
    have hbit : (a &&& ~~~b).getLsbD i = false := by rw [h]; simp
    simpa [hi, hlt] using hbit
  · intro h
    apply BitVec.eq_of_getLsbD_eq
    intro i hlt
    have hbit := h i
    cases ha : a.getLsbD i <;> simp_all

theorem Within.trans (h : Within a b) (h' : Within b c) : Within a c :=
  within_iff.mpr fun i hi => within_iff.mp h' i (within_iff.mp h i hi)

theorem Within.or (h : Within a c) (h' : Within b c) : Within (a ||| b) c := by
  refine within_iff.mpr fun i hi => ?_
  rw [getLsbD_or, or_eq_true] at hi
  exact hi.elim (within_iff.mp h i) (within_iff.mp h' i)

theorem Within.and (h : Within a c) : Within (a &&& b) c := by
  refine within_iff.mpr fun i hi => ?_
  rw [getLsbD_and, and_eq_true] at hi
  exact within_iff.mp h i hi.1

theorem Within.refl (a : Mask) : Within a a := within_iff.mpr fun _ hi => hi

end

/-! ## The profile -/

inductive TaxiControl
  | push_event | lvar_off | manual_only | pmdg_dsp_cam
deriving DecidableEq

structure AircraftProfile where
  id : Nat
  sides : Nat
  taxi_control : TaxiControl
  taxi_lvars : Vector String 3
  bounded : sides ≤ MaxDisplaySides

def PilotDisplaySides : Mask := 3#32

/-- The mask of the first sides. -/
def first_sides (count : Nat) : Mask := 1#32 <<< count - 1#32

def side_mask (p : AircraftProfile) : Mask :=
  if MaxDisplaySides ≤ p.sides then AllDisplaySides else first_sides p.sides

def commandable_buttons (p : AircraftProfile) : Bool :=
  p.taxi_control == .push_event || p.taxi_control == .lvar_off

/-- The leading sides of the profile that name a TAXI variable. -/
def taxi_latches (p : AircraftProfile) : Nat :=
  ((p.taxi_lvars.toList.take p.sides).takeWhile (· != "")).length

def taxi_button_sides (p : AircraftProfile) : Mask := first_sides (taxi_latches p)

theorem first_sides_within {m n : Nat} (h : m ≤ n) (hn : n ≤ MaxDisplaySides) :
    Within (first_sides m) (first_sides n) := by
  interval_cases n <;> interval_cases m <;> decide

theorem side_mask_eq (p : AircraftProfile) : side_mask p = first_sides p.sides := by
  unfold side_mask
  split
  · rename_i hall
    rw [Nat.le_antisymm p.bounded hall]
    rfl
  · rfl

theorem side_mask_within (p : AircraftProfile) : Within (side_mask p) AllDisplaySides := by
  rw [side_mask_eq]
  exact first_sides_within p.bounded le_rfl

/-! ## The settings and the status -/

/-- The settings that a shortcut reads or changes. `layout_sides` is the number of display sides that
the message itself gives, `others_valid` what `valid_settings` says of the settings left out here. -/
structure Settings where
  profile : Nat
  layout_sides : Nat
  enabled : Bool := true
  follow_taxi : Bool := true
  manual_mask : Mask := 0#32
  calibration_mask : Mask := 0#32
  scene_test : Bool := false
  aircraft_session_epoch : Nat := 0
  taxi_request : Nat := 0
  taxi_selected_mask : Mask := 0#32
  taxi_desired_mask : Mask := 0#32
  others_valid : Bool := true
deriving DecidableEq

structure Status where
  heartbeat : Nat := 0
  active_profile : Nat := 0
  detected_profile : Nat := 0
  aircraft_session_epoch : Nat := 0
  taxi_buttons_valid : Bool := false
  taxi_buttons_mask : Mask := 0#32
  taxi_buttons_sample_ms : Nat := 0
  taxi_request_seen : Nat := 0
  taxi_request_pending : Mask := 0#32
deriving DecidableEq

def valid_settings (s : Settings) : Bool :=
  let sides := first_sides s.layout_sides
  s.others_valid && s.manual_mask &&& ~~~sides == 0#32 && s.calibration_mask &&& ~~~sides == 0#32 &&
    s.taxi_selected_mask &&& ~~~sides == 0#32 &&
    s.taxi_desired_mask &&& ~~~s.taxi_selected_mask == 0#32 &&
    !(s.taxi_request == 0 && s.taxi_selected_mask != 0#32)

/-! ## The actions -/

def CameraBoth : Nat := 2
def CameraSd : Nat := 3
def CameraDoor : Nat := 4

def camera_action_sides (p : AircraftProfile) (action : Nat) : Mask :=
  let affected :=
    if action = CameraBoth then PilotDisplaySides
    else if action < CameraDoor then 1#32 <<< (if action = CameraSd then 2 else action)
    else 0#32
  if affected &&& side_mask p = affected then affected else 0#32

/-- All affected sides on turns them off; otherwise they all turn on. -/
def toggle_sides (mask affected : Mask) : Mask :=
  if mask &&& affected = affected then mask &&& ~~~affected else mask ||| affected

def toggle_manual_camera (profile : Option AircraftProfile) (s : Settings) (action : Nat)
    (automatic_mask : Mask) : Settings :=
  match profile with
  | none => s
  | some p =>
    let affected := camera_action_sides p action
    if affected = 0#32 then s
    else
      let mask := (if s.follow_taxi then automatic_mask else s.manual_mask) &&& side_mask p
      { s with
        manual_mask := toggle_sides mask affected
        follow_taxi := false
        calibration_mask := 0#32
        scene_test := false }

/-- A layer on top of what the cockpit selects. -/
def toggle_manual_layer (profile : Option AircraftProfile) (s : Settings) (action : Nat) : Settings :=
  match profile with
  | none => s
  | some p =>
    let affected := camera_action_sides p action
    if affected = 0#32 then s
    else
      { s with
        manual_mask := toggle_sides (s.manual_mask &&& side_mask p) affected
        calibration_mask := 0#32
        scene_test := false }

inductive CameraHotkeyResult
  | manual | aircraft | unavailable
deriving DecidableEq

def UINT64_MAX : Nat := 0xffffffffffffffff

/-- The status is no ground for a command: it is old, of another session or profile, or it has no
current sample of the buttons. -/
def no_button_state (p : AircraftProfile) (s : Settings) (status : Status) (now : Nat) : Bool :=
  !s.enabled || status.heartbeat == 0 || decide (now < status.heartbeat) ||
    decide (3000 < now - status.heartbeat) ||
    status.aircraft_session_epoch != s.aircraft_session_epoch || status.active_profile != s.profile ||
    status.detected_profile != s.profile || !status.taxi_buttons_valid ||
    status.taxi_buttons_mask &&& ~~~side_mask p != 0#32 || status.taxi_buttons_sample_ms == 0 ||
    decide (now < status.taxi_buttons_sample_ms) || decide (500 < now - status.taxi_buttons_sample_ms) ||
    max s.taxi_request status.taxi_request_seen == UINT64_MAX

/-- The sides of the last request that the worker has not completed, as far as the status shows. -/
def pending_sides (s : Settings) (status : Status) : Mask :=
  if status.taxi_request_seen < s.taxi_request then s.taxi_selected_mask
  else if s.taxi_request = status.taxi_request_seen then
    s.taxi_selected_mask &&& status.taxi_request_pending
  else 0#32

/-- The buttons with the outstanding requests on top of them. -/
def button_mask (s : Settings) (status : Status) : Mask :=
  if s.follow_taxi then
    (status.taxi_buttons_mask &&& ~~~pending_sides s status) |||
      (s.taxi_desired_mask &&& pending_sides s status)
  else s.manual_mask

/-- The request that a shortcut makes of the buttons. -/
def request_buttons (p : AircraftProfile) (s : Settings) (action : Nat) (status : Status) : Settings :=
  let pending := pending_sides s status
  let affected := camera_action_sides p action
  let target := toggle_sides (button_mask s status) affected
  let buttons := taxi_button_sides p
  { s with
    taxi_desired_mask := (s.taxi_desired_mask &&& pending &&& ~~~affected) ||| (target &&& affected)
    taxi_selected_mask := pending ||| affected
    taxi_request := max s.taxi_request status.taxi_request_seen + 1
    manual_mask := (target &&& buttons) ||| (s.manual_mask &&& ~~~buttons)
    calibration_mask := 0#32
    scene_test := false }

/-- `profile` is the answer of `profiles::find`. -/
def request_camera_hotkey (profile : Option AircraftProfile) (s : Settings) (action : Nat)
    (status : Status) (now : Nat) : Settings × CameraHotkeyResult :=
  match profile with
  | none => (s, .unavailable)
  | some p =>
    let affected := camera_action_sides p action
    if affected = 0#32 then (s, .unavailable)
    else if p.taxi_control = .pmdg_dsp_cam then (toggle_manual_layer profile s action, .manual)
    else if p.taxi_control = .manual_only then
      ({ toggle_manual_camera profile s action 0#32 with follow_taxi := s.follow_taxi }, .manual)
    -- A display without a button of its own is a manual layer.
    else if affected &&& ~~~taxi_button_sides p ≠ 0#32 then
      (toggle_manual_layer profile s action, .manual)
    else if no_button_state p s status now then (s, .unavailable)
    else (request_buttons p s action status, .aircraft)

/-! ## Laws -/

section
variable {p : AircraftProfile} {s : Settings} {action : Nat} {status : Status} {side : Side}
  {mask affected : Mask}

theorem has_bit (side : Side) : has (bit side) side = true := by
  have hlt := side_lt side
  simp [has, bit, hlt]

theorem and_bit : mask &&& bit side = bit side ↔ has mask side = true := by
  constructor
  · intro h
    have hside : has (mask &&& bit side) side = true := by rw [h, has_bit]
    rw [has_and, and_eq_true] at hside
    exact hside.1
  · intro h
    apply BitVec.eq_of_getLsbD_eq
    intro i _
    rw [getLsbD_and, bit, BitVec.getLsbD_twoPow]
    by_cases hi : side.val = i
    · subst hi
      have hmask : mask.getLsbD side.val = true := h
      simp [hmask]
    · simp [hi]

/-- A toggle of one side turns it over. -/
theorem has_toggle_bit : has (toggle_sides mask (bit side)) side = !has mask side := by
  unfold toggle_sides
  split
  · rename_i hon
    rw [has_and, has_not, has_bit, and_bit.mp hon]
    rfl
  rename_i hoff
  have hmask : has mask side = false := by
    by_contra hon
    exact hoff (and_bit.mpr (Bool.of_not_eq_false hon))
  rw [has_or, has_bit, hmask]
  rfl

theorem pending_sides_within : Within (pending_sides s status) s.taxi_selected_mask := by
  unfold pending_sides
  split
  · exact Within.refl _
  split
  · exact (Within.refl _).and
  · exact within_iff.mpr fun i hi => by simp at hi

theorem taxi_latches_le (p : AircraftProfile) : taxi_latches p ≤ p.sides := by
  refine (List.takeWhile_sublist _).length_le.trans ?_
  rw [List.length_take]
  exact min_le_left _ _

theorem taxi_button_sides_within (p : AircraftProfile) : Within (taxi_button_sides p) (side_mask p) := by
  rw [side_mask_eq]
  exact first_sides_within (taxi_latches_le p) p.bounded

theorem request_desired_within :
    Within (request_buttons p s action status).taxi_desired_mask
      (request_buttons p s action status).taxi_selected_mask := by
  refine within_iff.mpr fun i hi => ?_
  simp only [request_buttons, getLsbD_or, getLsbD_and, or_eq_true, and_eq_true] at hi ⊢
  rcases hi with hold | hnew
  · exact .inl hold.1.2
  · exact .inr hnew.2

theorem request_selected_within {sides : Mask} (h : Within s.taxi_selected_mask sides)
    (haffected : Within (camera_action_sides p action) sides) :
    Within (request_buttons p s action status).taxi_selected_mask sides :=
  (pending_sides_within.trans h).or haffected

/-- A side that is pending, and not pressed, keeps what was asked of it. -/
theorem request_keeps (hpending : has (pending_sides s status) side = true)
    (hother : has (camera_action_sides p action) side = false) :
    has (request_buttons p s action status).taxi_desired_mask side = has s.taxi_desired_mask side := by
  simp [request_buttons, hpending, hother]

/-- A pressed side is asked to turn over. -/
theorem request_turns (hsingle : camera_action_sides p action = bit side) :
    has (request_buttons p s action status).taxi_desired_mask side = !has (button_mask s status) side := by
  simp only [request_buttons, hsingle, has_or, has_and, has_not, has_bit, has_toggle_bit]
  simp

theorem request_valid (hlayout : s.layout_sides = p.sides) (hvalid : valid_settings s = true)
    (haffected : Within (camera_action_sides p action) (taxi_button_sides p)) :
    valid_settings (request_buttons p s action status) = true := by
  have hsides : first_sides s.layout_sides = side_mask p := by rw [hlayout, side_mask_eq]
  simp only [valid_settings, and_eq_true, beq_iff_eq] at hvalid ⊢
  obtain ⟨⟨⟨⟨⟨hothers, hmanual⟩, -⟩, hselected⟩, -⟩, -⟩ := hvalid
  rw [hsides] at hmanual hselected
  have hbuttons := taxi_button_sides_within p
  refine ⟨⟨⟨⟨⟨hothers, ?_⟩, ?_⟩, ?_⟩, request_desired_within⟩, ?_⟩
  · rw [show (request_buttons p s action status).layout_sides = s.layout_sides from rfl, hsides]
    refine within_iff.mpr fun i hi => ?_
    simp only [request_buttons, getLsbD_or, getLsbD_and, or_eq_true, and_eq_true] at hi
    rcases hi with htarget | hlayer
    · exact within_iff.mp hbuttons i htarget.2
    · exact within_iff.mp hmanual i hlayer.1
  · simp [request_buttons]
  · rw [show (request_buttons p s action status).layout_sides = s.layout_sides from rfl, hsides]
    exact request_selected_within hselected (haffected.trans hbuttons)
  · simp [request_buttons]

theorem camera_action_sides_within (p : AircraftProfile) (action : Nat) :
    Within (camera_action_sides p action) (side_mask p) := by
  unfold camera_action_sides
  dsimp only
  generalize (if action = CameraBoth then PilotDisplaySides else if action < CameraDoor then
    1#32 <<< (if action = CameraSd then 2 else action) else 0#32) = affected
  split
  · rename_i hin
    refine within_iff.mpr fun i hi => ?_
    rw [← hin, getLsbD_and, and_eq_true] at hi
    exact hi.2
  · exact within_iff.mpr fun i hi => by simp at hi

/-- The layer is apart from the requests. -/
theorem toggle_layer_frame : ∃ (manual_mask calibration_mask : Mask) (scene_test : Bool),
    toggle_manual_layer (some p) s action = { s with manual_mask, calibration_mask, scene_test } := by
  unfold toggle_manual_layer
  dsimp only
  split
  · exact ⟨s.manual_mask, s.calibration_mask, s.scene_test, rfl⟩
  · exact ⟨_, _, _, rfl⟩

/-- The layer changes within the sides of the profile. -/
theorem toggle_layer_valid (hlayout : s.layout_sides = p.sides) (hvalid : valid_settings s = true) :
    valid_settings (toggle_manual_layer (some p) s action) = true := by
  have hsides : first_sides s.layout_sides = side_mask p := by rw [hlayout, side_mask_eq]
  unfold toggle_manual_layer
  dsimp only
  split
  · exact hvalid
  simp only [valid_settings, and_eq_true, beq_iff_eq] at hvalid ⊢
  obtain ⟨⟨⟨⟨⟨hothers, -⟩, -⟩, hselected⟩, hdesired⟩, hissued⟩ := hvalid
  refine ⟨⟨⟨⟨⟨hothers, ?_⟩, by simp⟩, hselected⟩, hdesired⟩, hissued⟩
  rw [hsides]
  refine within_iff.mpr fun i hi => ?_
  have haffected := within_iff.mp (camera_action_sides_within p action) i
  unfold toggle_sides at hi
  split at hi
  · rw [getLsbD_and, getLsbD_and, and_eq_true, and_eq_true] at hi
    exact hi.1.2
  rw [getLsbD_or, getLsbD_and, or_eq_true, and_eq_true] at hi
  exact hi.elim (fun h => h.2) haffected

/-- A press where the buttons can be commanded: refused, a layer, or a request. -/
theorem hotkey_cases (hcommandable : commandable_buttons p = true) (now : Nat) :
    (request_camera_hotkey (some p) s action status now = (s, .unavailable)) ∨
    (request_camera_hotkey (some p) s action status now = (toggle_manual_layer (some p) s action, .manual) ∧
      ¬Within (camera_action_sides p action) (taxi_button_sides p)) ∨
    (request_camera_hotkey (some p) s action status now = (request_buttons p s action status, .aircraft) ∧
      Within (camera_action_sides p action) (taxi_button_sides p) ∧
      no_button_state p s status now = false) := by
  simp only [commandable_buttons, or_eq_true, beq_iff_eq] at hcommandable
  have hpmdg : p.taxi_control ≠ .pmdg_dsp_cam := by
    rcases hcommandable with h | h <;> simp [h]
  have hmanual : p.taxi_control ≠ .manual_only := by
    rcases hcommandable with h | h <;> simp [h]
  unfold request_camera_hotkey
  dsimp only
  split
  · exact .inl rfl
  split
  · rename_i hlayer
    exact .inr (.inl ⟨rfl, hlayer⟩)
  rename_i hbuttons
  split
  · exact .inl rfl
  rename_i hfresh
  exact .inr (.inr ⟨rfl, not_not.mp hbuttons, Bool.eq_false_of_not_eq_true hfresh⟩)

end

end taxi_camera.standalone
