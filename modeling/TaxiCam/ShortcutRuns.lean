-- The shortcuts over a run: presses of the companion, a bridge that consumes the
-- published settings late, and a status that the companion reads late. Every
-- accepted press is a new request that keeps what is outstanding. The bridge's
-- reading of the settings is in run_impl of src/bridge/bridge_main.cpp.
import TaxiCam.CameraShortcuts
import TaxiCam.ToggleLedger

namespace taxi_camera.standalone

open native_camera histories runs List
open TaxiButtonCommand (consume fail_flights fail_latest reject)

/-! ## The world -/

/-- A press, with the settings and the status that it was made on, and where the bridge stood. -/
structure Call where
  action : Nat
  sides : Mask
  status : Status
  before : Settings
  after : Settings
  result : CameraHotkeyResult
  consumed : Nat
  pending : Mask

inductive Event
  | called (c : Call)
  | consumed (serial : Nat)

structure World where
  profile : AircraftProfile
  settings : Settings
  published : List Settings := []
  command : TaxiButtonCommand := {}
  snapshots : List Status := []
  told : List Event := []

namespace World

/-- The bridge commands only the sides with a button of their own. -/
def request_of (p : AircraftProfile) (s : Settings) : TaxiButtonRequest where
  serial := s.taxi_request
  session_epoch := s.aircraft_session_epoch
  profile := s.profile
  selected_mask := s.taxi_selected_mask &&& taxi_button_sides p
  desired_mask := s.taxi_desired_mask &&& taxi_button_sides p

inductive Op
  | hotkey (action snapshot now : Nat)
  | update (message : Nat) (permitted : Bool) (now epoch profile : Nat) (aircraft_buttons : Bool)
  | step (c : TaxiButtonCommandContext)
  | sent (decision : TaxiButtonCommandDecision) (side : Side) (accepted : Bool) (now : Nat)
  | rejected (side : Side)
  | reset_session
  | publish (status : Status)

variable (w : World)

def tell (e : Event) : World := { w with told := w.told ++ [e] }

/-- The companion reads any of the snapshots; before the first it has an empty status. -/
def hotkey (action snapshot now : Nat) : World :=
  let status := (w.snapshots[snapshot]?).getD {}
  let answer := request_camera_hotkey (some w.profile) w.settings action status now
  { w with settings := answer.1, published := w.published ++ [answer.1] }.tell
    (.called
      { action, sides := camera_action_sides w.profile action, status, before := w.settings
        after := answer.1, result := answer.2, consumed := w.command.latest.serial
        pending := w.command.status.pending_mask })

/-- The bridge reads any of the published settings. -/
def update (message : Nat) (permitted : Bool) (now epoch profile : Nat) (aircraft_buttons : Bool) :
    World :=
  match w.published[message]? with
  | none => w
  | some s =>
    let request := request_of w.profile s
    let updated := { w with
      command := w.command.update request permitted now epoch profile aircraft_buttons }
    if w.command.latest.serial < request.serial then updated.tell (.consumed request.serial) else updated

/-- A status carries where the bridge stands with the requests. -/
def publish (status : Status) : World :=
  { w with
    snapshots := w.snapshots ++
      [{ status with
          taxi_request_seen := w.command.status.serial
          taxi_request_pending := w.command.status.pending_mask }] }

def step (w : World) : Op → World
  | .hotkey action snapshot now => w.hotkey action snapshot now
  | .update message permitted now epoch profile aircraft_buttons =>
    w.update message permitted now epoch profile aircraft_buttons
  | .step c => { w with command := (w.command.step c).1 }
  | .sent decision side accepted now => { w with command := w.command.sent decision side accepted now }
  | .rejected side => { w with command := w.command.rejected side }
  | .reset_session => { w with command := w.command.reset_session }
  | .publish status => w.publish status

/-! ## What a press is to be -/

/-- The last accepted press of a side. -/
def last_press (side : Side) (told : List Event) : Option Call :=
  told.foldl (fun last e =>
    match e with
    | .called c => if c.result = .aircraft ∧ has c.sides side then some c else last
    | .consumed _ => last) none

/-- The side is outstanding when the press is made: the bridge has it pending, or has not consumed a
request for it. -/
def Outstanding (past : List Event) (c : Call) (side : Side) : Prop :=
  has c.pending side = true ∨ ∃ other, .called other ∈ past ∧ other.result = .aircraft ∧
    c.consumed < other.after.taxi_request ∧ has other.after.taxi_selected_mask side = true

/-- An accepted press. -/
structure Accepted (profile : AircraftProfile) (past : List Event) (c : Call) : Prop where
  newer : c.consumed < c.after.taxi_request ∧ c.status.taxi_request_seen < c.after.taxi_request ∧
    (∀ other, .called other ∈ past → other.status.taxi_request_seen < c.after.taxi_request ∧
      other.after.taxi_request < c.after.taxi_request) ∧
    ∀ serial, .consumed serial ∈ past → serial < c.after.taxi_request
  selected : ∀ side, has c.sides side = true ∨ Outstanding past c side →
    has c.after.taxi_selected_mask side = true
  desired : Within c.after.taxi_desired_mask c.after.taxi_selected_mask
  sides : Within c.after.taxi_selected_mask (side_mask profile)
  valid : valid_settings c.after = true
  usable : ∀ (s : TaxiButtonCommand) (permitted : Bool) (now epoch id : Nat) (aircraft_buttons : Bool),
    (s.consume (request_of profile c.after) permitted now epoch id aircraft_buttons).status.error ≠
      "taxi_request_invalid"
  kept : ∀ side, Outstanding past c side → has c.sides side = false →
    has c.after.taxi_desired_mask side = has c.before.taxi_desired_mask side
  reversed : ∀ side other, c.sides = bit side → other.sides = bit side →
    last_press side past = some other → c.consumed < other.after.taxi_request →
    has c.after.taxi_desired_mask side = has (button_mask other.before other.status) side

/-- A press is accepted as a request, or it changes only the layer of the displays that have no button
of their own, or it changes nothing. -/
def Right (profile : AircraftProfile) (past : List Event) : Event → Prop
  | .called c =>
    match c.result with
    | .aircraft => Accepted profile past c
    | .manual => c.after = toggle_manual_layer (some profile) c.before c.action ∧
        ¬Within c.sides (taxi_button_sides profile)
    | .unavailable => c.after = c.before
  | .consumed _ => True

/-! ## The invariant -/

/-- Nothing is outstanding, and nothing was told. -/
structure Fresh (w : World) : Prop where
  commandable : commandable_buttons w.profile = true
  following : w.settings.follow_taxi = true
  layout : w.settings.layout_sides = w.profile.sides
  valid : valid_settings w.settings = true
  none_selected : w.settings.taxi_selected_mask = 0#32
  serial : w.command.status.serial = w.command.latest.serial
  none_pending : w.command.status.pending_mask = 0#32
  published : w.published = [w.settings]
  snapshots : w.snapshots = []
  told : w.told = []

structure Lawful (w : World) : Prop where
  commandable : commandable_buttons w.profile = true
  following : w.settings.follow_taxi = true
  layout : w.settings.layout_sides = w.profile.sides
  valid : valid_settings w.settings = true
  selected : Within w.settings.taxi_selected_mask (side_mask w.profile)
  serial : w.command.status.serial = w.command.latest.serial
  pending : ∀ side, has w.command.status.pending_mask side = true →
    has w.settings.taxi_selected_mask side = true
  ahead : w.command.latest.serial ≤ w.settings.taxi_request ∨
    ((∀ side, has w.command.status.pending_mask side = false) ∧
      ∀ st ∈ w.snapshots, st.taxi_request_seen = w.command.latest.serial)
  snapshots : ∀ st ∈ w.snapshots, st.taxi_request_seen ≤ w.command.latest.serial ∧
    (st.taxi_request_seen = w.command.latest.serial →
      ∀ side, has w.command.status.pending_mask side = true → has st.taxi_request_pending side = true)
  published : ∀ s ∈ w.published, s.taxi_request ≤ w.settings.taxi_request ∧
    (w.command.latest.serial < s.taxi_request → ∀ side, has s.taxi_selected_mask side = true →
      has w.settings.taxi_selected_mask side = true)
  calls : ∀ c, .called c ∈ w.told → c.status.taxi_request_seen ≤ w.command.latest.serial ∧
    c.after ∈ w.published
  consumed : ∀ serial, .consumed serial ∈ w.told → serial ≤ w.command.latest.serial
  last : ∀ side c, last_press side w.told = some c →
    (c.sides = bit side → has c.after.taxi_desired_mask side = !has (button_mask c.before c.status) side) ∧
    (w.command.latest.serial < c.after.taxi_request → has w.settings.taxi_selected_mask side = true ∧
      has w.settings.taxi_desired_mask side = has c.after.taxi_desired_mask side)
  explained : Explained (Right w.profile) w.told

section
variable {w : World}

theorem Lawful.initial (h : w.Fresh) : w.Lawful := by
  refine ⟨h.commandable, h.following, h.layout, h.valid, ?_, h.serial, fun side hp => ?_, .inr ⟨?_, ?_⟩,
    ?_, ?_, ?_, ?_, ?_, ?_⟩
  · rw [h.none_selected]
    exact within_iff.mpr fun i hi => by simp at hi
  · rw [h.none_pending] at hp
    simp at hp
  · intro side
    rw [h.none_pending]
    exact has_zero side
  · intro st hst
    rw [h.snapshots] at hst
    cases hst
  · intro st hst
    rw [h.snapshots] at hst
    cases hst
  · intro s hs
    rw [h.published] at hs
    rw [mem_singleton.mp hs]
    exact ⟨le_rfl, fun _ _ hin => hin⟩
  · intro c hc
    rw [h.told] at hc
    cases hc
  · intro serial hserial
    rw [h.told] at hserial
    cases hserial
  · intro side c hc
    rw [h.told] at hc
    cases hc
  · rw [h.told]
    exact explained_nil

/-! ## The bridge -/

/-- A call of the bridge that takes no request leaves at most less pending. -/
theorem Lawful.lapse (h : w.Lawful) {command : TaxiButtonCommand} (hlatest : command.latest = w.command.latest)
    (hserial : command.status.serial = w.command.status.serial)
    (hpending : ∀ side, has command.status.pending_mask side = true → has w.command.status.pending_mask side = true) :
    ({ w with command } : World).Lawful := by
  refine { h with
    serial := ?_, pending := fun side hp => h.pending side (hpending side hp)
    ahead := ?_, snapshots := ?_, published := ?_, calls := ?_, consumed := ?_, last := ?_ }
  · rw [hserial, hlatest]
    exact h.serial
  · rw [hlatest]
    refine h.ahead.imp id fun hstart => ⟨fun side => ?_, hstart.2⟩
    by_contra hp
    have hbefore := hpending side (Bool.of_not_eq_false hp)
    rw [hstart.1 side] at hbefore
    cases hbefore
  · rw [hlatest]
    exact fun st hst => ⟨(h.snapshots st hst).1, fun hseen side hp =>
      (h.snapshots st hst).2 hseen side (hpending side hp)⟩
  all_goals rw [hlatest]
  · exact h.published
  · exact h.calls
  · exact h.consumed
  · exact h.last

/-- What is told changes no press of a side, where it is no press. -/
theorem last_press_consumed (side : Side) (told : List Event) (serial : Nat) :
    last_press side (told ++ [.consumed serial]) = last_press side told := by
  simp [last_press]

theorem last_press_called (side : Side) (told : List Event) (c : Call) :
    last_press side (told ++ [.called c]) =
      if c.result = .aircraft ∧ has c.sides side then some c else last_press side told := by
  simp [last_press]

variable {side : Side} {status : Status} {s : TaxiButtonCommand} {request : TaxiButtonRequest}

theorem mem_of_last_press {told : List Event} {c : Call} (h : last_press side told = some c) : .called c ∈ told := by
  induction told using List.reverseRecOn with
  | nil => cases h
  | append_singleton told e ih =>
    cases e with
    | consumed serial =>
      rw [last_press_consumed] at h
      exact mem_append_left _ (ih h)
    | called other =>
      rw [last_press_called] at h
      split at h
      · cases h
        exact mem_append_right _ (mem_singleton.mpr rfl)
      · exact mem_append_left _ (ih h)

theorem consume_pending (s : TaxiButtonCommand) (request : TaxiButtonRequest) (permitted : Bool)
    (now epoch profile : Nat) (aircraft_buttons : Bool)
    (h : has (s.consume request permitted now epoch profile aircraft_buttons).status.pending_mask side =
      true) : has request.selected_mask side = true := by
  unfold consume at h
  repeat' split at h
  all_goals first | exact h | simp [reject] at h

/-- A request that is newer than the latest is taken, with its sides at most. -/
theorem update_newer (permitted : Bool)
    (now epoch profile : Nat) (aircraft_buttons : Bool) (hnewer : s.latest.serial < request.serial) :
    s.Takes request (s.update request permitted now epoch profile aircraft_buttons) ∧
      ∀ side, has (s.update request permitted now epoch profile aircraft_buttons).status.pending_mask side =
        true → has request.selected_mask side = true := by
  have hsame : ∀ t : TaxiButtonCommand, t.latest = s.latest → t.flights = s.flights →
      s.Takes request (t.consume request permitted now epoch profile aircraft_buttons) := by
    intro t hlatest hflights
    have htakes := t.consume_takes request permitted now epoch profile aircraft_buttons
      (by rw [hlatest]; exact hnewer)
    exact ⟨hnewer, htakes.flights.trans hflights, htakes.latest, htakes.serial⟩
  unfold TaxiButtonCommand.update
  rw [if_neg (Nat.ne_of_gt (Nat.zero_lt_of_lt hnewer))]
  split
  · rw [if_neg (Nat.not_le_of_lt hnewer)]
    exact ⟨hsame _ rfl rfl, fun side hp => consume_pending _ _ _ _ _ _ _ hp⟩
  have hold : ¬request.serial ≤ (({ s with permission := permitted, permission_ms := now } :
      TaxiButtonCommand).fail "taxi_request_not_permitted").latest.serial := by
    rw [fail_latest]
    exact Nat.not_le_of_lt hnewer
  rw [if_neg hold]
  exact ⟨hsame _ (fail_latest _) (fail_flights _), fun side hp => consume_pending _ _ _ _ _ _ _ hp⟩

/-- A request that is not newer leaves at most less pending. -/
theorem update_old (permitted : Bool)
    (now epoch profile : Nat) (aircraft_buttons : Bool) (hold : ¬s.latest.serial < request.serial) :
    s.Lapses (s.update request permitted now epoch profile aircraft_buttons) := by
  rcases s.update_cases request permitted now epoch profile aircraft_buttons with h | h
  · exact h
  · exact absurd h.newer hold

theorem Lawful.update (h : w.Lawful) (message : Nat) (permitted : Bool) (now epoch profile : Nat)
    (aircraft_buttons : Bool) :
    (w.update message permitted now epoch profile aircraft_buttons).Lawful := by
  unfold World.update
  dsimp only
  split
  · exact h
  rename_i s hs
  have hmem : s ∈ w.published := mem_of_getElem? hs
  split
  · rename_i hnewer
    obtain ⟨htakes, hpending⟩ := update_newer permitted now epoch profile aircraft_buttons hnewer
    generalize w.command.update (request_of w.profile s) permitted now epoch profile aircraft_buttons =
      command at htakes hpending ⊢
    have hserial : command.latest.serial = s.taxi_request := by rw [htakes.latest]; rfl
    have hbefore : w.command.latest.serial < command.latest.serial := by rw [hserial]; exact hnewer
    refine { h with
      serial := ?_, pending := fun side hp => ?_, ahead := .inl ?_, snapshots := fun st hst => ?_
      published := fun t ht => ?_, calls := fun c hc => ?_, consumed := fun serial hc => ?_
      last := fun side c hc => ?_, explained := explained_snoc h.explained trivial }
    · exact htakes.serial.trans (congrArg _ htakes.latest).symm
    · have hin := hpending side hp
      simp only [request_of, has_and, Bool.and_eq_true] at hin
      exact (h.published s hmem).2 hnewer side hin.1
    · change command.latest.serial ≤ w.settings.taxi_request
      rw [hserial]
      exact (h.published s hmem).1
    · have hseen := (h.snapshots st hst).1
      exact ⟨hseen.trans hbefore.le, fun hsame => absurd (hsame ▸ hseen) (Nat.not_le_of_lt hbefore)⟩
    · exact ⟨(h.published t ht).1, fun hunseen => (h.published t ht).2 (hbefore.trans hunseen)⟩
    · have hcall : .called c ∈ w.told := by
        rcases mem_append.mp hc with hc | hc
        · exact hc
        · cases mem_singleton.mp hc
      exact ⟨(h.calls c hcall).1.trans hbefore.le, (h.calls c hcall).2⟩
    · rcases mem_append.mp hc with hc | hc
      · exact (h.consumed serial hc).trans hbefore.le
      cases mem_singleton.mp hc
      exact hserial.ge
    · change last_press side (w.told ++ [_]) = some c at hc
      rw [last_press_consumed] at hc
      exact ⟨(h.last side c hc).1, fun hunseen => (h.last side c hc).2 (hbefore.trans hunseen)⟩
  · rename_i hold
    have hlapses := update_old permitted now epoch profile aircraft_buttons hold
    exact h.lapse hlapses.latest hlapses.serial hlapses.pending

theorem Lawful.publish (h : w.Lawful) (status : Status) : (w.publish status).Lawful := by
  have hst : ∀ st ∈ (w.publish status).snapshots, st ∈ w.snapshots ∨
      (st.taxi_request_seen = w.command.latest.serial ∧ st.taxi_request_pending = w.command.status.pending_mask) := by
    intro st hmem
    rcases mem_append.mp hmem with hmem | hmem
    · exact .inl hmem
    rw [mem_singleton.mp hmem]
    exact .inr ⟨h.serial, rfl⟩
  refine { h with ahead := h.ahead.imp id fun hstart => ⟨hstart.1, fun st hmem => ?_⟩
                  snapshots := fun st hmem => ?_ }
  · rcases hst st hmem with hmem | ⟨hseen, -⟩
    · exact hstart.2 st hmem
    · exact hseen
  · rcases hst st hmem with hmem | ⟨hseen, hpending⟩
    · exact h.snapshots st hmem
    refine ⟨hseen.le, fun _ side hp => ?_⟩
    rw [hpending]
    exact hp

/-! ## The press -/

/-- The status that a press reads: one of the snapshots, or an empty one. -/
theorem status_read (w : World) (snapshot : Nat) :
    (w.snapshots[snapshot]?).getD {} ∈ w.snapshots ∨ (w.snapshots[snapshot]?).getD {} = {} := by
  cases h : w.snapshots[snapshot]? with
  | none => exact .inr rfl
  | some st => exact .inl (mem_of_getElem? h)

theorem Lawful.seen_le (h : w.Lawful) (snapshot : Nat) :
    ((w.snapshots[snapshot]?).getD {}).taxi_request_seen ≤ w.command.latest.serial := by
  rcases status_read w snapshot with hmem | hempty
  · exact (h.snapshots _ hmem).1
  rw [hempty]
  exact Nat.zero_le _

/-- A press that makes no request. -/
theorem Lawful.called_aside (h : w.Lawful) {after : Settings} {c : Call}
    (hfollow : after.follow_taxi = w.settings.follow_taxi)
    (hlayout : after.layout_sides = w.settings.layout_sides) (hvalid : valid_settings after = true)
    (hselected : after.taxi_selected_mask = w.settings.taxi_selected_mask)
    (hdesired : after.taxi_desired_mask = w.settings.taxi_desired_mask)
    (hrequest : after.taxi_request = w.settings.taxi_request) (hresult : c.result ≠ .aircraft)
    (hafter : c.after = after) (hseen : c.status.taxi_request_seen ≤ w.command.latest.serial)
    (hright : Right w.profile w.told (.called c)) :
    ({ w with settings := after, published := w.published ++ [after] }.tell (.called c) : World).Lawful := by
  refine { commandable := h.commandable, following := hfollow.trans h.following
           layout := hlayout.trans h.layout, valid := hvalid
           selected := ?_, serial := h.serial, pending := ?_, ahead := ?_, snapshots := h.snapshots
           published := fun s hs => ?_, calls := fun d hd => ?_, consumed := fun serial hc => ?_
           last := fun side d hd => ?_, explained := explained_snoc h.explained hright }
  · change Within after.taxi_selected_mask _
    rw [hselected]
    exact h.selected
  · change ∀ side, _ → has after.taxi_selected_mask side = true
    rw [hselected]
    exact h.pending
  · change w.command.latest.serial ≤ after.taxi_request ∨ _
    rw [hrequest]
    exact h.ahead
  · change s.taxi_request ≤ after.taxi_request ∧ (_ → ∀ side, _ → has after.taxi_selected_mask side = true)
    rw [hrequest, hselected]
    rcases mem_append.mp hs with hs | hs
    · exact h.published s hs
    rw [mem_singleton.mp hs, hselected]
    exact ⟨hrequest.le, fun _ _ hin => hin⟩
  · rcases mem_append.mp hd with hd | hd
    · exact ⟨(h.calls d hd).1, mem_append_left _ (h.calls d hd).2⟩
    cases mem_singleton.mp hd
    exact ⟨hseen, mem_append_right _ (mem_singleton.mpr hafter)⟩
  · rcases mem_append.mp hc with hc | hc
    · exact h.consumed serial hc
    · cases mem_singleton.mp hc
  · change last_press side (w.told ++ [_]) = some d at hd
    rw [last_press_called, if_neg fun hno => hresult hno.1] at hd
    change _ ∧ (_ → has after.taxi_selected_mask side = true ∧ has after.taxi_desired_mask side = _)
    rw [hselected, hdesired]
    exact h.last side d hd

/-- What a status shows as pending is everything that is outstanding. -/
theorem Lawful.shows_outstanding (h : w.Lawful) (hmem : status ∈ w.snapshots) :
    w.command.latest.serial ≤ max w.settings.taxi_request status.taxi_request_seen ∧
      (∀ side, has w.command.status.pending_mask side = true → has (pending_sides w.settings status) side = true) ∧
      ∀ s ∈ w.published, w.command.latest.serial < s.taxi_request → ∀ side,
        has s.taxi_selected_mask side = true → has (pending_sides w.settings status) side = true := by
  obtain ⟨hseen, hcurrent⟩ := h.snapshots status hmem
  refine ⟨?_, fun side hp => ?_, fun s hs hunseen side hin => ?_⟩
  · rcases h.ahead with hle | hstart
    · exact hle.trans (le_max_left _ _)
    rw [hstart.2 status hmem]
    exact le_max_right _ _
  · rcases h.ahead with hle | hstart
    · unfold pending_sides
      split
      · exact h.pending side hp
      rename_i hreached
      have hsame : w.settings.taxi_request = status.taxi_request_seen := by omega
      rw [if_pos hsame, has_and, h.pending side hp, hcurrent (by omega) side hp]
      rfl
    rw [hstart.1 side] at hp
    cases hp
  · have hissued := (h.published s hs).1
    unfold pending_sides
    rw [if_pos (by omega)]
    exact (h.published s hs).2 hunseen side hin

theorem consume_usable (s : TaxiButtonCommand) (permitted : Bool) (now epoch profile : Nat) (aircraft_buttons : Bool)
    (hsides : request.selected_mask &&& ~~~AllDisplaySides = 0#32)
    (hdesired : request.desired_mask &&& ~~~request.selected_mask = 0#32) :
    (s.consume request permitted now epoch profile aircraft_buttons).status.error ≠ "taxi_request_invalid" := by
  unfold consume
  rw [if_neg (by simp [hsides, hdesired])]
  repeat' split
  all_goals simp [reject]

/-- A press that makes a request. -/
theorem Lawful.called_aircraft (h : w.Lawful) {action : Nat} (hmem : status ∈ w.snapshots)
    (hbuttons : Within (camera_action_sides w.profile action) (taxi_button_sides w.profile)) :
    ({ w with
        settings := request_buttons w.profile w.settings action status
        published := w.published ++ [request_buttons w.profile w.settings action status] }.tell
      (.called
        { action, sides := camera_action_sides w.profile action, status, before := w.settings
          after := request_buttons w.profile w.settings action status, result := .aircraft
          consumed := w.command.latest.serial, pending := w.command.status.pending_mask }) :
      World).Lawful := by
  obtain ⟨hle, hbridge, hissued⟩ := h.shows_outstanding hmem
  have hsides := (hbuttons.trans (taxi_button_sides_within w.profile))
  have hvalid : valid_settings (request_buttons w.profile w.settings action status) = true :=
    request_valid h.layout h.valid hbuttons
  have hselected : Within (request_buttons w.profile w.settings action status).taxi_selected_mask
      (side_mask w.profile) := request_selected_within h.selected hsides
  have hpressed : ∀ side, has (pending_sides w.settings status) side = true ∨
      has (camera_action_sides w.profile action) side = true →
      has (request_buttons w.profile w.settings action status).taxi_selected_mask side = true := by
    intro side hin
    rw [show (request_buttons w.profile w.settings action status).taxi_selected_mask =
      pending_sides w.settings status ||| camera_action_sides w.profile action from rfl, has_or]
    exact Bool.or_eq_true_iff.mpr hin
  have hrequest : (request_buttons w.profile w.settings action status).taxi_request =
      max w.settings.taxi_request status.taxi_request_seen + 1 := rfl
  -- What is outstanding when the press is made.
  have houtstanding : ∀ side, Outstanding w.told
      { action, sides := camera_action_sides w.profile action, status, before := w.settings
        after := request_buttons w.profile w.settings action status, result := .aircraft
        consumed := w.command.latest.serial, pending := w.command.status.pending_mask } side →
      has (pending_sides w.settings status) side = true := by
    rintro side (hp | ⟨other, hother, -, hunseen, hin⟩)
    · exact hbridge side hp
    · exact hissued other.after (h.calls other hother).2 hunseen side hin
  have haccepted : Accepted w.profile w.told
      { action, sides := camera_action_sides w.profile action, status, before := w.settings
        after := request_buttons w.profile w.settings action status, result := .aircraft
        consumed := w.command.latest.serial, pending := w.command.status.pending_mask } := by
    refine ⟨⟨?_, ?_, fun other hother => ⟨?_, ?_⟩, fun serial hserial => ?_⟩, fun side hin => ?_,
      request_desired_within, hselected, hvalid, fun s permitted now epoch id aircraft_buttons => ?_,
      fun side hout hother => request_keeps (houtstanding side hout) hother,
      fun side other hsingle hother hlast hunseen => ?_⟩
    · rw [hrequest]
      exact Nat.lt_succ_of_le hle
    · rw [hrequest]
      exact Nat.lt_succ_of_le (le_max_right _ _)
    · rw [hrequest]
      exact Nat.lt_succ_of_le ((h.calls other hother).1.trans hle)
    · rw [hrequest]
      exact Nat.lt_succ_of_le ((h.published _ (h.calls other hother).2).1.trans (le_max_left _ _))
    · rw [hrequest]
      exact Nat.lt_succ_of_le ((h.consumed serial hserial).trans hle)
    · exact hpressed side (hin.elim .inr fun hout => .inl (houtstanding side hout))
    · refine consume_usable s permitted now epoch id aircraft_buttons ?_ ?_
      · exact (hselected.trans (side_mask_within w.profile)).and
      · refine within_iff.mpr fun i hi => ?_
        simp only [request_of, BitVec.getLsbD_and, Bool.and_eq_true] at hi ⊢
        exact ⟨within_iff.mp request_desired_within i hi.1, hi.2⟩
    · -- The side is still asked to be what the first press made of it.
      obtain ⟨hturned, hstill⟩ := h.last side other hlast
      obtain ⟨hin, hasked⟩ := hstill hunseen
      have hseen := (h.snapshots status hmem).1
      have hissuedbefore := (h.published other.after (h.calls other (mem_of_last_press hlast)).2).1
      change w.command.latest.serial < other.after.taxi_request at hunseen
      have hpending : pending_sides w.settings status = w.settings.taxi_selected_mask := by
        unfold pending_sides
        rw [if_pos (by omega)]
      have hmask : has (button_mask w.settings status) side = has w.settings.taxi_desired_mask side := by
        unfold button_mask
        rw [if_pos h.following, hpending, has_or, has_and, has_and, has_not, hin]
        simp
      rw [request_turns hsingle, hmask, hasked, hturned hother, Bool.not_not]
  refine { commandable := h.commandable, following := h.following, layout := h.layout, valid := hvalid
           selected := hselected, serial := h.serial
           pending := fun side hp => hpressed side (.inl (hbridge side hp))
           ahead := .inl (hle.trans (Nat.le_succ _)), snapshots := h.snapshots
           published := fun s hs => ?_, calls := fun d hd => ?_, consumed := fun serial hc => ?_
           last := fun side d hd => ?_, explained := explained_snoc h.explained haccepted }
  · rcases mem_append.mp hs with hs | hs
    · exact ⟨(h.published s hs).1.trans ((le_max_left _ _).trans (Nat.le_succ _)), fun hunseen side hin =>
        hpressed side (.inl (hissued s hs hunseen side hin))⟩
    rw [mem_singleton.mp hs]
    exact ⟨le_rfl, fun _ _ hin => hin⟩
  · rcases mem_append.mp hd with hd | hd
    · exact ⟨(h.calls d hd).1, mem_append_left _ (h.calls d hd).2⟩
    cases mem_singleton.mp hd
    exact ⟨(h.snapshots status hmem).1, mem_append_right _ (mem_singleton.mpr rfl)⟩
  · rcases mem_append.mp hc with hc | hc
    · exact h.consumed serial hc
    · cases mem_singleton.mp hc
  · change last_press side (w.told ++ [_]) = some d at hd
    rw [last_press_called] at hd
    split at hd
    · rename_i htouched
      cases hd
      exact ⟨fun hsingle => request_turns hsingle, fun _ => ⟨hpressed side (.inr htouched.2), rfl⟩⟩
    rename_i hother
    -- An outstanding side that is not pressed keeps what was asked of it.
    have haside : has (camera_action_sides w.profile action) side = false := by
      simpa using hother
    obtain ⟨hturned, hstill⟩ := h.last side d hd
    refine ⟨hturned, fun hunseen => ?_⟩
    have hseen := (h.snapshots status hmem).1
    have hissuedbefore := (h.published d.after (h.calls d (mem_of_last_press hd)).2).1
    change w.command.latest.serial < d.after.taxi_request at hunseen
    have hpending : has (pending_sides w.settings status) side = true := by
      unfold pending_sides
      rw [if_pos (by omega)]
      exact (hstill hunseen).1
    exact ⟨hpressed side (.inl hpending), (request_keeps hpending haside).trans (hstill hunseen).2⟩

/-- Every press of a shortcut. -/
theorem Lawful.hotkey (h : w.Lawful) (action snapshot now : Nat) : (w.hotkey action snapshot now).Lawful := by
  unfold World.hotkey
  dsimp only
  have hseen := h.seen_le snapshot
  have hread := status_read w snapshot
  generalize (w.snapshots[snapshot]?).getD {} = status at hseen hread ⊢
  rcases @hotkey_cases w.profile w.settings action status h.commandable now with
    hrefused | ⟨hlayer, houtside⟩ | ⟨hasked, hbuttons, hfresh⟩
  · rw [hrefused]
    exact h.called_aside rfl rfl h.valid rfl rfl rfl nofun rfl hseen rfl
  · rw [hlayer]
    have hvalid := @toggle_layer_valid w.profile w.settings action h.layout h.valid
    obtain ⟨manual_mask, calibration_mask, scene_test, hframe⟩ := @toggle_layer_frame w.profile w.settings action
    have hright : Right w.profile w.told (.called
        { action, sides := camera_action_sides w.profile action, status, before := w.settings
          after := toggle_manual_layer (some w.profile) w.settings action, result := .manual
          consumed := w.command.latest.serial, pending := w.command.status.pending_mask }) :=
      ⟨rfl, houtside⟩
    rw [hframe] at hvalid hright ⊢
    exact h.called_aside rfl rfl hvalid rfl rfl rfl nofun rfl hseen hright
  rw [hasked]
  have hmem : status ∈ w.snapshots := by
    refine hread.resolve_right fun hempty => ?_
    rw [hempty] at hfresh
    simp [no_button_state] at hfresh
  exact h.called_aircraft hmem hbuttons

/-! ## Every run -/

theorem Lawful.step (h : w.Lawful) (op : Op) : (w.step op).Lawful := by
  cases op with
  | hotkey action snapshot now => exact h.hotkey action snapshot now
  | update message permitted now epoch profile aircraft_buttons =>
    exact h.update message permitted now epoch profile aircraft_buttons
  | step c =>
    obtain ⟨hlatest, hserial, -, -⟩ := w.command.step_keeps c
    exact h.lapse hlatest hserial fun side hp => ((w.command.step_steps c side).pending hp).1
  | sent decision side accepted now =>
    obtain ⟨hlatest, hserial, hpending⟩ := TaxiButtonCommand.World.sent_lapses w.command decision side accepted now
    exact h.lapse hlatest hserial hpending
  | rejected side =>
    obtain ⟨hlatest, hserial, hpending⟩ := TaxiButtonCommand.World.rejected_lapses w.command side
    exact h.lapse hlatest hserial hpending
  | reset_session =>
    have hlapses := TaxiButtonCommand.Lapses.fail w.command "taxi_request_session_changed"
    exact h.lapse hlapses.latest hlapses.serial hlapses.pending
  | publish status => exact h.publish status

theorem step_profile (w : World) (op : Op) : (w.step op).profile = w.profile := by
  cases op with
  | update message permitted now epoch profile aircraft_buttons =>
    unfold step update
    dsimp only
    split
    · rfl
    · split <;> rfl
  | _ => rfl

/-- From a start with nothing outstanding, every press of every run is right. -/
theorem shortcuts_lose_no_press {w : World} (h : w.Fresh) (ops : List Op) :
    Explained (Right w.profile) (run World.step w ops).told := by
  have hrun := @invariant _ _ World.step w (fun t => t.Lawful ∧ t.profile = w.profile)
    (fun t op ht => ⟨ht.1.step op, (step_profile t op).trans ht.2⟩) ops ⟨.initial h, rfl⟩
  rw [← hrun.2]
  exact hrun.1.explained

end

/-- A profile with two buttons, and a companion and a bridge that have just started. -/
def sample_world : World where
  profile :=
    { id := 1, sides := 2, taxi_control := .push_event
      taxi_lvars := #v["L:LEFT", "L:RIGHT", ""], bounded := Nat.le_succ 2 }
  settings := { profile := 1, layout_sides := 2, aircraft_session_epoch := 7 }
  published := [{ profile := 1, layout_sides := 2, aircraft_session_epoch := 7 }]

def sample_status : Status where
  heartbeat := 1000
  active_profile := 1
  detected_profile := 1
  aircraft_session_epoch := 7
  taxi_buttons_valid := true
  taxi_buttons_sample_ms := 1000

/-- Two presses of one side, and one of both, around a request that the bridge consumes. -/
theorem presses_around_a_consumed_request :
    Explained (Right sample_world.profile)
      (run World.step sample_world
        [.publish sample_status, .hotkey 0 0 1000, .hotkey 0 0 1001, .update 2 true 1002 7 1 true,
          .publish sample_status, .hotkey 2 1 1003]).told :=
  shortcuts_lose_no_press ⟨rfl, rfl, rfl, by decide +kernel, rfl, rfl, rfl, rfl, rfl, rfl⟩ _

end World

end taxi_camera.standalone
