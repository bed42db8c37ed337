-- Cameras opened on the simulator's frames by count: a credit that carries the
-- fraction of a camera, and a rotation that hands the opened ones around. The
-- numbers of the code in floating point are exact here.
import TaxiCam.Rotations
import TaxiCam.Runs
import Mathlib.Data.Rat.Floor
import Mathlib.Tactic.Linarith

namespace taxi_camera

open List

def kMinimumCameraRate : Nat := 5
def kMaximumCameraRate : Nat := 60
def kDefaultCameraRate : Nat := 10

namespace native_camera

open rotations runs

def kMaxCameraFeeds : Nat := 4

def kSnap : Rat := 5 / 100

/-- What is lost in a sum of the code, at most. -/
def kSlack : Rat := 1 / 10 ^ 9

/-- `order` holds the wanted feeds, in order. -/
structure RenderSchedule where
  rate : Nat := kDefaultCameraRate
  feeds : Nat := 2
  wanted : Nat := 3
  order : List Nat := [0, 1]
  per_frame : Nat := 0
  next : Nat := 0
  have_time : Bool := false
  previous_time : Nat := 0
  frame_ms : Rat := 0
  credit : Rat := 0
deriving DecidableEq

namespace RenderSchedule

variable (s : RenderSchedule)

def rendered : Nat := s.order.length

/-- `wanted` has a bit for each feed that renders; 0 renders every feed. -/
def configure (rate feeds per_frame wanted : Nat) : RenderSchedule :=
  let feeds := max 1 (min feeds kMaxCameraFeeds)
  let all := 2 ^ feeds - 1
  let wanted := if wanted &&& all ≠ 0 then wanted &&& all else all
  let order := (List.range feeds).filter fun feed => wanted.testBit feed
  { s with
    rate := max kMinimumCameraRate (min rate kMaximumCameraRate)
    feeds, wanted, order
    per_frame := min per_frame order.length
    next := if s.next ≥ order.length then 0 else s.next }

def reset : RenderSchedule :=
  { s with have_time := false, previous_time := 0, frame_ms := 0, credit := 0, next := 0 }

/-- `std::round` of a number that is not negative. -/
def round (count : Rat) : Rat := ⌊count + 1 / 2⌋

/-- A count near a whole number of cameras is that number. -/
def snapped (count : Rat) : Rat :=
  let whole := round count
  if whole ≥ 1 ∧ |count - whole| ≤ kSnap * whole then whole else count

/-- The usual interval between updates follows the gap to this one, unless it is a stall. -/
def follow_time (now_ms : Nat) : RenderSchedule :=
  let frame_ms :=
    if s.have_time ∧ now_ms > s.previous_time then
      let gap : Rat := (now_ms - s.previous_time : Nat)
      if s.frame_ms ≤ 0 then gap
      else if gap ≤ 4 * s.frame_ms then 9 / 10 * s.frame_ms + 1 / 10 * gap
      else s.frame_ms
    else s.frame_ms
  { s with frame_ms, have_time := true, previous_time := now_ms }

/-- The cameras of a frame. -/
def count : Rat :=
  snapped (if s.per_frame ≠ 0 then s.per_frame
    else if s.frame_ms > 0 then s.rate * s.rendered * s.frame_ms / 1000
    else 1)

/-- The feeds from the rotation's position on. -/
def taken (opened : Nat) : List Nat :=
  (List.range opened).map fun k => s.order.getD ((s.next + k) % s.rendered) 0

/-- The time went back. -/
def backward (now_ms : Nat) : Bool := s.have_time && now_ms < s.previous_time

def due : Nat := min ⌊s.credit + s.count + kSlack⌋.toNat s.rendered

/-- One frame that opens cameras. -/
def open_cameras : (Nat → Bool) × RenderSchedule :=
  let credit := s.credit + s.count
  let opened := s.due
  (fun feed => decide (feed ∈ s.taken opened),
    { s with
      credit := max 0 (min (credit - opened) 1)
      next := if opened < s.rendered then (s.next + opened) % s.rendered else s.next })

def tick (now_ms : Nat) (suspended : Bool) : (Nat → Bool) × RenderSchedule :=
  if s.backward now_ms then (fun _ => false, { s with previous_time := now_ms, credit := 0 })
  else if suspended then (fun _ => false, s.follow_time now_ms)
  else (s.follow_time now_ms).open_cameras

/-! ## Counts -/

/-- A count that is near the next whole number is that number. -/
theorem snapped_below {count : Rat} (hcount : 0 ≤ count) :
    0 ≤ snapped count ∧ snapped count + kSlack < ⌊snapped count⌋ + 1 := by
  have hslack : kSlack < 1 / 20 := by
    unfold kSlack
    norm_num
  unfold snapped
  dsimp only
  split
  · rename_i hwhole
    refine ⟨by linarith [hwhole.1], ?_⟩
    rw [round, Int.floor_intCast]
    linarith
  rename_i hfar
  refine ⟨hcount, ?_⟩
  rw [round] at hfar
  have hlow := Int.floor_le (count + 1 / 2)
  have hhigh := Int.lt_floor_add_one (count + 1 / 2)
  have hzero : 0 ≤ ⌊count + 1 / 2⌋ := Int.floor_nonneg.mpr (by linarith)
  generalize ⌊count + 1 / 2⌋ = whole at *
  rcases lt_or_ge whole 1 with hsmall | hbig
  · have hnone : whole = 0 := by omega
    have hfloor : (0 : Rat) ≤ ⌊count⌋ := by exact_mod_cast Int.floor_nonneg.mpr hcount
    rw [hnone, Int.cast_zero] at hhigh
    linarith
  have hone : (1 : Rat) ≤ whole := by exact_mod_cast hbig
  have hdistance : kSnap * whole < |count - whole| := by
    by_contra hnear
    exact hfar ⟨hone, not_lt.mp hnear⟩
  have hsnap : (1 : Rat) / 20 ≤ kSnap * whole := by
    unfold kSnap
    linarith
  rcases le_or_gt (whole : Rat) count with habove | hbelow
  · have hfloor : (whole : Rat) ≤ ⌊count⌋ := by exact_mod_cast Int.le_floor.mpr habove
    linarith
  have hfloor : (whole : Rat) - 1 ≤ ⌊count⌋ := by
    have := Int.le_floor.mpr (show ((whole - 1 : Int) : Rat) ≤ count by push_cast; linarith)
    exact_mod_cast this
  rw [abs_of_neg (by linarith)] at hdistance
  linarith

/-! ## What a schedule keeps -/

/-- Some feed renders, each wanted feed stands once in the order, and less than one camera is carried. -/
structure Good (s : RenderSchedule) : Prop where
  some_feed : 0 < s.rendered
  nodup : s.order.Nodup
  few : ∀ feed ∈ s.order, feed < kMaxCameraFeeds
  wanted : ∀ feed, feed ∈ s.order ↔ s.wanted.testBit feed = true
  place : s.next < s.rendered
  credit : 0 ≤ s.credit ∧ s.credit ≤ 1
  frame_ms : 0 ≤ s.frame_ms

/-- The parts that `configure` sets. -/
structure SameSettings (s t : RenderSchedule) : Prop where
  rate : t.rate = s.rate
  wanted : t.wanted = s.wanted
  order : t.order = s.order
  per_frame : t.per_frame = s.per_frame

theorem mem_order {feeds wanted feed : Nat} (hwanted : wanted < 2 ^ feeds) :
    feed ∈ (List.range feeds).filter (fun feed => wanted.testBit feed) ↔ wanted.testBit feed = true := by
  rw [mem_filter, mem_range, and_iff_right_iff_imp]
  intro hfeed
  by_contra hbeyond
  have hnone := Nat.testBit_lt_two_pow (Nat.lt_of_lt_of_le hwanted
    (Nat.pow_le_pow_right (by omega) (Nat.le_of_not_lt hbeyond)))
  rw [hnone] at hfeed
  cases hfeed

/-- The wanted feeds are some of the feeds. -/
theorem configured (s : RenderSchedule) (rate feeds per_frame wanted : Nat) :
    (s.configure rate feeds per_frame wanted).wanted < 2 ^ (s.configure rate feeds per_frame wanted).feeds ∧
      (s.configure rate feeds per_frame wanted).wanted ≠ 0 := by
  have hall : 2 ^ 1 ≤ 2 ^ max 1 (min feeds kMaxCameraFeeds) := Nat.pow_le_pow_right (by omega) (by omega)
  unfold configure
  dsimp only
  split
  · rename_i hsome
    exact ⟨Nat.lt_of_le_of_lt Nat.and_le_right (by omega), hsome⟩
  · omega

theorem good_reset (s : RenderSchedule) (rate feeds per_frame wanted : Nat) :
    Good (s.configure rate feeds per_frame wanted).reset := by
  obtain ⟨hbound, hsome⟩ := configured s rate feeds per_frame wanted
  have hwanted (feed : Nat) : feed ∈ (s.configure rate feeds per_frame wanted).order ↔
      (s.configure rate feeds per_frame wanted).wanted.testBit feed = true := mem_order hbound
  have hrendered : 0 < (s.configure rate feeds per_frame wanted).rendered := by
    obtain ⟨feed, hfeed⟩ := Nat.exists_testBit_of_ne_zero hsome
    exact length_pos_of_mem ((hwanted feed).mpr hfeed)
  constructor
  · exact hrendered
  · exact nodup_range.filter _
  · intro feed hfeed
    have hrange := mem_range.mp (mem_filter.mp hfeed).1
    unfold kMaxCameraFeeds at *
    omega
  · exact hwanted
  · exact hrendered
  · exact ⟨le_refl 0, zero_le_one⟩
  · exact le_refl 0

variable {s : RenderSchedule}

theorem Good.follow_time (h : Good s) (now_ms : Nat) : Good (s.follow_time now_ms) := by
  refine { h with frame_ms := ?_ }
  have hframe := h.frame_ms
  have hgap : (0 : Rat) ≤ (now_ms - s.previous_time : Nat) := Nat.cast_nonneg _
  unfold RenderSchedule.follow_time
  dsimp only
  split
  · split
    · exact hgap
    split
    · linarith
    · exact hframe
  · exact hframe

/-- The count of a frame is not negative, and not near below a whole number. -/
theorem Good.count_below (h : Good s) : 0 ≤ s.count ∧ s.count + kSlack < ⌊s.count⌋ + 1 := by
  refine snapped_below ?_
  split
  · exact Nat.cast_nonneg _
  split
  · have hframe := h.frame_ms
    positivity
  · exact zero_le_one

/-! ## One frame -/

theorem due_le (s : RenderSchedule) : s.due ≤ s.rendered := Nat.min_le_right _ _

/-- Each frame opens the whole part of its count, or one camera more, as far as there are wanted feeds. -/
theorem Good.due_eq (h : Good s) :
    s.due = min ⌊s.count⌋.toNat s.rendered ∨ s.due = min (⌊s.count⌋ + 1).toNat s.rendered := by
  obtain ⟨hcount, hbelow⟩ := h.count_below
  obtain ⟨hlow, hhigh⟩ := h.credit
  have hslack : 0 ≤ kSlack := by
    unfold kSlack
    norm_num
  have hfloor : ⌊s.count⌋ ≤ ⌊s.credit + s.count + kSlack⌋ := Int.floor_le_floor (by linarith)
  have hnext : ⌊s.credit + s.count + kSlack⌋ < ⌊s.count⌋ + 2 := by
    rw [Int.floor_lt]
    push_cast
    linarith
  unfold due
  rcases Int.lt_add_one_iff.mp (show ⌊s.credit + s.count + kSlack⌋ < ⌊s.count⌋ + 1 + 1 by omega) |>.lt_or_eq
    with hsame | hmore
  · rw [show ⌊s.credit + s.count + kSlack⌋ = ⌊s.count⌋ by omega]
    exact .inl rfl
  rw [hmore]
  exact .inr rfl

/-- The credit after a frame: what was there and its count, less the opened cameras, up to the slack. -/
theorem Good.credit_after (h : Good s) (hfits : s.count ≤ s.rendered) :
    s.credit + s.count - s.due ≤ s.open_cameras.2.credit ∧
      s.open_cameras.2.credit ≤ s.credit + s.count - s.due + kSlack := by
  change s.credit + s.count - s.due ≤ max 0 (min (s.credit + s.count - s.due) 1) ∧
    max 0 (min (s.credit + s.count - s.due) 1) ≤ s.credit + s.count - s.due + kSlack
  obtain ⟨hcount, -⟩ := h.count_below
  obtain ⟨hlow, hhigh⟩ := h.credit
  have hslack : 0 ≤ kSlack ∧ kSlack ≤ 1 := by
    unfold kSlack
    constructor <;> norm_num
  have hfloor := Int.floor_le (s.credit + s.count + kSlack)
  have hnext := Int.lt_floor_add_one (s.credit + s.count + kSlack)
  have hwhole : 0 ≤ ⌊s.credit + s.count + kSlack⌋ := Int.floor_nonneg.mpr (by linarith)
  have hcast : ((⌊s.credit + s.count + kSlack⌋.toNat : Nat) : Rat) = ⌊s.credit + s.count + kSlack⌋ := by
    exact_mod_cast Int.toNat_of_nonneg hwhole
  have hleft : -kSlack ≤ s.credit + s.count - s.due ∧ s.credit + s.count - s.due ≤ 1 := by
    unfold due
    rcases le_or_gt ⌊s.credit + s.count + kSlack⌋.toNat s.rendered with hroom | hcapped
    · rw [Nat.min_eq_left hroom, hcast]
      constructor <;> linarith
    have hmore : (s.rendered : Rat) + 1 ≤ ⌊s.credit + s.count + kSlack⌋ := by
      rw [← hcast]
      exact_mod_cast hcapped
    rw [Nat.min_eq_right hcapped.le]
    constructor <;> linarith
  rw [min_eq_left hleft.2]
  exact ⟨le_max_right .., max_le (by linarith) (by linarith)⟩

theorem credit_bounded (s : RenderSchedule) : 0 ≤ s.open_cameras.2.credit ∧ s.open_cameras.2.credit ≤ 1 :=
  ⟨le_max_left .., max_le zero_le_one (min_le_right ..)⟩

theorem Good.open_cameras (h : Good s) : Good s.open_cameras.2 := by
  refine { h with credit := credit_bounded s, place := ?_ }
  have hplace := h.place
  change (if s.due < s.rendered then (s.next + s.due) % s.rendered else s.next) < s.rendered
  split
  · exact Nat.mod_lt _ h.some_feed
  · exact hplace

theorem Good.tick (h : Good s) (now_ms : Nat) (suspended : Bool) : Good (s.tick now_ms suspended).2 := by
  unfold RenderSchedule.tick
  split
  · exact { h with credit := ⟨le_refl 0, zero_le_one⟩ }
  split
  · exact h.follow_time now_ms
  · exact (h.follow_time now_ms).open_cameras

/-! ## Runs -/

structure Tick where
  now_ms : Nat
  suspended : Bool
deriving DecidableEq

def step (s : RenderSchedule) (t : Tick) : RenderSchedule := (s.tick t.now_ms t.suspended).2

/-- The feeds that a tick opens. -/
def opens (s : RenderSchedule) (t : Tick) : Nat → Bool := (s.tick t.now_ms t.suspended).1

/-- How many feeds a tick opens. -/
def opened_count (s : RenderSchedule) (t : Tick) : Nat := ((List.range kMaxCameraFeeds).filter (s.opens t)).length

/-- A tick that is neither backward nor suspended. -/
def frame (s : RenderSchedule) (t : Tick) : Bool := !s.backward t.now_ms && !t.suspended

/-- The snapped count of a tick. -/
def frame_count (s : RenderSchedule) (t : Tick) : Rat := (s.follow_time t.now_ms).count

/-- How often a feed is opened. -/
def openings (s : RenderSchedule) (feed : Nat) : List Tick → Nat
  | [] => 0
  | t :: rest => (if s.opens t feed then 1 else 0) + openings (s.step t) feed rest

/-- How many feeds are opened in all. -/
def total_opened (s : RenderSchedule) : List Tick → Nat
  | [] => 0
  | t :: rest => s.opened_count t + total_opened (s.step t) rest

/-- How many of the ticks are frames. -/
def frames (s : RenderSchedule) : List Tick → Nat
  | [] => 0
  | t :: rest => (if s.frame t then 1 else 0) + frames (s.step t) rest

theorem tick_frame {t : Tick} (h : s.frame t = true) :
    s.tick t.now_ms t.suspended = (s.follow_time t.now_ms).open_cameras := by
  rw [frame, Bool.and_eq_true, Bool.not_eq_true', Bool.not_eq_true'] at h
  rw [tick, h.1, h.2]
  rfl

/-- A suspended or backward tick opens nothing, and leaves the rotation. -/
theorem idle_tick {t : Tick} (h : s.frame t = false) :
    (∀ feed, s.opens t feed = false) ∧ (s.step t).next = s.next ∧
      (s.backward t.now_ms = false → (s.step t).credit = s.credit) := by
  unfold opens step tick
  split
  · rename_i hback
    exact ⟨fun _ => rfl, rfl, fun hnot => absurd (hback.symm.trans hnot) (by decide)⟩
  rename_i hback
  rw [frame, Bool.eq_false_of_not_eq_true hback, Bool.not_false, Bool.true_and, Bool.not_eq_false'] at h
  rw [h]
  exact ⟨fun _ => rfl, rfl, fun _ => rfl⟩

theorem same_settings_step (s : RenderSchedule) (t : Tick) : SameSettings s (s.step t) := by
  unfold step tick
  split
  · exact ⟨rfl, rfl, rfl, rfl⟩
  split
  · exact ⟨rfl, rfl, rfl, rfl⟩
  · exact ⟨rfl, rfl, rfl, rfl⟩

/-! ## The rotation -/

theorem order_getD {i : Nat} (hi : i < s.order.length) : s.order.getD i 0 = s.order[i] := by
  rw [getD_eq_getElem?_getD, List.getElem?_eq_getElem hi]
  rfl

theorem mem_taken (h : Good s) {opened feed : Nat} :
    feed ∈ s.taken opened ↔ ∃ k < opened, s.order[(s.next + k) % s.rendered]? = some feed := by
  unfold taken
  rw [mem_map]
  constructor
  · rintro ⟨k, hk, rfl⟩
    refine ⟨k, mem_range.mp hk, ?_⟩
    have hplace : (s.next + k) % s.rendered < s.order.length := Nat.mod_lt _ h.some_feed
    rw [order_getD hplace, List.getElem?_eq_getElem hplace]
  · rintro ⟨k, hk, hat⟩
    exact ⟨k, mem_range.mpr hk, by rw [getD_eq_getElem?_getD, hat]; rfl⟩

theorem taken_in_order (h : Good s) {opened feed : Nat} (hfeed : feed ∈ s.taken opened) : feed ∈ s.order := by
  obtain ⟨k, -, hat⟩ := (mem_taken h).mp hfeed
  exact mem_of_getElem? hat

theorem nodup_taken (h : Good s) {opened : Nat} (hopened : opened ≤ s.rendered) : (s.taken opened).Nodup := by
  refine List.Nodup.map_on (fun a ha b hb hsame => ?_) nodup_range
  have ha' : (s.next + a) % s.rendered < s.order.length := Nat.mod_lt _ h.some_feed
  have hb' : (s.next + b) % s.rendered < s.order.length := Nat.mod_lt _ h.some_feed
  rw [order_getD ha', order_getD hb', h.nodup.getElem_inj_iff] at hsame
  have ha'' := mem_range.mp ha
  have hb'' := mem_range.mp hb
  exact turn_injective (by omega) (by omega) hsame

/-- A frame opens as many feeds as are due. -/
theorem opened_count_frame (h : Good s) {t : Tick} (hframe : s.frame t = true) :
    s.opened_count t = (s.follow_time t.now_ms).due := by
  have hgood := h.follow_time t.now_ms
  generalize hs : s.follow_time t.now_ms = f at hgood
  have hopens : s.opens t = fun feed => decide (feed ∈ f.taken f.due) := by
    rw [opens, tick_frame hframe, hs]
    rfl
  have hperm : ((List.range kMaxCameraFeeds).filter (s.opens t)).Perm (f.taken f.due) := by
    rw [hopens, perm_ext_iff_of_nodup (nodup_range.filter _) (nodup_taken hgood f.due_le)]
    intro feed
    rw [mem_filter, mem_range, decide_eq_true_eq, and_iff_right_iff_imp]
    exact fun hfeed => hgood.few feed (taken_in_order hgood hfeed)
  rw [opened_count, hperm.length_eq, taken, length_map, length_range]

theorem opened_count_idle {t : Tick} (hframe : s.frame t = false) : s.opened_count t = 0 := by
  rw [opened_count, length_eq_zero_iff, filter_eq_nil_iff]
  intro feed _
  rw [(idle_tick hframe).1 feed]
  exact Bool.false_ne_true

/-- Where the rotation stands after so many openings. -/
def Turned (s : RenderSchedule) (turns : Nat) : Prop := s.next = turns % s.rendered

theorem turned_step (h : Good s) {turns : Nat} (hturned : Turned s turns) (t : Tick) :
    Turned (s.step t) (turns + s.opened_count t) := by
  have hrendered : (s.step t).rendered = s.rendered := congrArg List.length (same_settings_step s t).order
  unfold Turned at *
  rw [hrendered]
  cases hframe : s.frame t with
  | false =>
    rw [opened_count_idle hframe, (idle_tick hframe).2.1]
    exact hturned
  | true =>
    rw [opened_count_frame h hframe, step, tick_frame hframe]
    have hdue := (s.follow_time t.now_ms).due_le
    change (if _ < s.rendered then (s.next + _) % s.rendered else s.next) = _
    change _ ≤ s.rendered at hdue
    split
    · rw [hturned, Nat.mod_add_mod]
    · rw [hturned, show (s.follow_time t.now_ms).due = s.rendered by omega, Nat.add_mod_right]

/-- A feed is opened in the tick if one of the tick's turns is at its place. -/
theorem opens_place (h : Good s) {turns : Nat} (hturned : Turned s turns) (t : Tick) {p feed : Nat}
    (hp : s.order[p]? = some feed) :
    s.opens t feed = true ↔ ∃ k < s.opened_count t, (turns + k) % s.rendered = p := by
  cases hframe : s.frame t with
  | false =>
    rw [opened_count_idle hframe, (idle_tick hframe).1 feed]
    simp
  | true =>
    have hgood := h.follow_time t.now_ms
    obtain ⟨hlt, hat⟩ := List.getElem?_eq_some_iff.mp hp
    rw [opened_count_frame h hframe, opens, tick_frame hframe]
    change decide (feed ∈ (s.follow_time t.now_ms).taken (s.follow_time t.now_ms).due) = true ↔ _
    rw [decide_eq_true_eq, mem_taken hgood]
    refine exists_congr fun k => and_congr_right fun _ => ?_
    change s.order[(s.next + k) % s.rendered]? = some feed ↔ _
    rw [hturned, Nat.mod_add_mod]
    have hplace : (turns + k) % s.rendered < s.order.length := Nat.mod_lt _ h.some_feed
    rw [List.getElem?_eq_getElem hplace, Option.some.injEq, ← hat, h.nodup.getElem_inj_iff]

theorem Good.step (h : Good s) (t : Tick) : Good (s.step t) := h.tick t.now_ms t.suspended

/-- How often a feed was opened is how often its place was served. -/
theorem openings_served (h : Good s) {turns : Nat} (hturned : Turned s turns) {p feed : Nat}
    (hp : s.order[p]? = some feed) (ticks : List Tick) :
    served s.rendered p turns + s.openings feed ticks = served s.rendered p (turns + s.total_opened ticks) := by
  induction ticks generalizing s turns with
  | nil => rfl
  | cons t rest ih =>
    have hsettings := same_settings_step s t
    have hrendered : (s.step t).rendered = s.rendered := congrArg List.length hsettings.order
    have hrest := ih (h.step t) (turned_step h hturned t) (by rw [hsettings.order]; exact hp)
    have hmore : s.opened_count t ≤ s.rendered := by
      cases hframe : s.frame t with
      | false => rw [opened_count_idle hframe]; exact Nat.zero_le _
      | true => rw [opened_count_frame h hframe]; exact due_le _
    have hone : served s.rendered p (turns + s.opened_count t) = _ := served_add hmore
    rw [hrendered] at hrest
    rw [openings, total_opened, ← Nat.add_assoc turns, ← hrest, hone]
    simp only [opens_place h hturned t hp]
    omega

theorem openings_unwanted (h : Good s) {feed : Nat} (hfeed : feed ∉ s.order) (ticks : List Tick) :
    s.openings feed ticks = 0 := by
  induction ticks generalizing s with
  | nil => rfl
  | cons t rest ih =>
    have hrest := ih (h.step t) (by rw [(same_settings_step s t).order]; exact hfeed)
    have hnone : s.opens t feed = false := by
      cases hframe : s.frame t with
      | false => exact (idle_tick hframe).1 feed
      | true =>
        rw [opens, tick_frame hframe]
        exact decide_eq_false fun hmem => hfeed (taken_in_order (h.follow_time t.now_ms) hmem)
    rw [openings, hrest, hnone]
    rfl

theorem Good.run (h : Good s) (ticks : List Tick) : Good (runs.run RenderSchedule.step s ticks) :=
  invariant (fun _ t hgood => hgood.step t) ticks h

/-! ## Frames of one count -/

/-- No tick goes back, and each frame has the count `c`. -/
def Steady (c : Rat) (s : RenderSchedule) (t : Tick) : Prop :=
  s.backward t.now_ms = false ∧ (s.frame t = true → s.frame_count t = c)

/-- What was opened is the sum of the counts, up to the credit and the slack. -/
theorem credit_accounts (h : Good s) {c : Rat} (hc : c ≤ s.rendered) (ticks : List Tick)
    (hsteady : Guarded RenderSchedule.step (Steady c) s ticks) :
    s.credit + s.frames ticks * c - s.total_opened ticks ≤ (runs.run RenderSchedule.step s ticks).credit ∧
      (runs.run RenderSchedule.step s ticks).credit ≤
        s.credit + s.frames ticks * c - s.total_opened ticks + s.frames ticks * kSlack := by
  induction ticks generalizing s with
  | nil => simp [frames, total_opened]
  | cons t rest ih =>
    obtain ⟨⟨hforward, hcount⟩, hrest⟩ := hsteady
    have hrendered : (s.step t).rendered = s.rendered := congrArg List.length (same_settings_step s t).order
    obtain ⟨hlow, hhigh⟩ := ih (h.step t) (by rw [hrendered]; exact hc) hrest
    rw [run_cons, frames, total_opened]
    push_cast
    cases hframe : s.frame t with
    | false =>
      rw [(idle_tick hframe).2.2 hforward] at hlow hhigh
      rw [opened_count_idle hframe]
      simp only [Bool.false_eq_true, if_false, Nat.cast_zero]
      constructor <;> linarith
    | true =>
      have hgood := h.follow_time t.now_ms
      have hcount : (s.follow_time t.now_ms).count = c := hcount hframe
      have hafter := hgood.credit_after (by rw [hcount]; exact hc)
      rw [hcount] at hafter
      change s.credit + c - _ ≤ _ ∧ _ ≤ s.credit + c - _ + kSlack at hafter
      rw [opened_count_frame h hframe]
      have hstep : s.step t = (s.follow_time t.now_ms).open_cameras.2 := by rw [step, tick_frame hframe]
      rw [hstep] at hlow hhigh ⊢
      simp only [if_true]
      constructor <;> linarith

/-- The cameras of a schedule are shared fairly, opened by the count of each frame, and not at all where
rendering is suspended or the time goes back. -/
theorem cameras_are_shared_fairly (initial : RenderSchedule) (rate feeds per_frame wanted : Nat) (ticks : List Tick) :
    let s := (initial.configure rate feeds per_frame wanted).reset
    let now := run step s ticks
    (∀ a b, s.wanted.testBit a = true → s.wanted.testBit b = true → s.openings a ticks ≤ s.openings b ticks + 1) ∧
    (∀ feed, s.wanted.testBit feed = false → s.openings feed ticks = 0) ∧
    (0 ≤ now.credit ∧ now.credit ≤ 1) ∧
    (∀ t, now.frame t = true → now.opened_count t = min ⌊now.frame_count t⌋.toNat s.rendered ∨
      now.opened_count t = min (⌊now.frame_count t⌋ + 1).toNat s.rendered) ∧
    (∀ t, now.frame t = false → (∀ feed, now.opens t feed = false) ∧ (now.step t).next = now.next) ∧
    (∀ (c : Rat) (more : List Tick), c ≤ s.rendered → Guarded step (Steady c) now more →
      |(now.total_opened more : Rat) - now.frames more * c| ≤ 1 + now.frames more * kSlack) := by
  intro s now
  have hgood : Good s := good_reset initial rate feeds per_frame wanted
  have hnow : Good now := hgood.run ticks
  have hkept (s' : RenderSchedule) (t : Tick) (h : s'.rendered = s.rendered) : (s'.step t).rendered = s.rendered :=
    (congrArg List.length (same_settings_step s' t).order).trans h
  have hrendered : now.rendered = s.rendered := invariant hkept ticks rfl
  have hzero : Turned s 0 := (Nat.zero_mod _).symm
  refine ⟨fun a b ha hb => ?_, fun feed hfeed => ?_, hnow.credit, fun t hframe => ?_, fun t hframe => ?_,
    fun c more hc hsteady => ?_⟩
  · obtain ⟨p, hp, hpa⟩ := mem_iff_getElem.mp ((hgood.wanted a).mpr ha)
    obtain ⟨q, hq, hqb⟩ := mem_iff_getElem.mp ((hgood.wanted b).mpr hb)
    have hserveda := openings_served hgood hzero (List.getElem?_eq_some_iff.mpr ⟨hp, hpa⟩) ticks
    have hservedb := openings_served hgood hzero (List.getElem?_eq_some_iff.mpr ⟨hq, hqb⟩) ticks
    rw [served_zero, Nat.zero_add] at hserveda hservedb
    rw [hserveda, hservedb]
    exact served_close hp hq _
  · refine openings_unwanted hgood (fun hmem => ?_) ticks
    rw [(hgood.wanted feed).mp hmem] at hfeed
    cases hfeed
  · rw [opened_count_frame hnow hframe, ← hrendered]
    exact (hnow.follow_time t.now_ms).due_eq
  · obtain ⟨hnone, hnext, -⟩ := idle_tick hframe
    exact ⟨hnone, hnext⟩
  · obtain ⟨hlow, hhigh⟩ := credit_accounts hnow (by rw [hrendered]; exact hc) more hsteady
    obtain ⟨hbefore, hbefore'⟩ := hnow.credit
    obtain ⟨hafter, hafter'⟩ := (hnow.run more).credit
    rw [abs_le]
    constructor <;> linarith

/-- In every stretch of ticks each wanted camera is opened once a round, and at most once more. -/
theorem no_camera_is_starved (initial : RenderSchedule) (rate feeds per_frame wanted : Nat) (ticks more : List Tick) :
    let s := (initial.configure rate feeds per_frame wanted).reset
    let now := run step s ticks
    (∀ feed, s.wanted.testBit feed = true → now.total_opened more / s.rendered ≤ now.openings feed more) ∧
      ∀ feed, now.openings feed more ≤ now.total_opened more / s.rendered + 1 := by
  intro s now
  have hgood : Good s := good_reset initial rate feeds per_frame wanted
  have hkept (s' : RenderSchedule) (t : Tick) (h : Good s' ∧ s'.order = s.order ∧ ∃ turns, Turned s' turns) :
      Good (s'.step t) ∧ (s'.step t).order = s.order ∧ ∃ turns, Turned (s'.step t) turns := by
    obtain ⟨hs, horder, turns, hturned⟩ := h
    exact ⟨hs.step t, (same_settings_step s' t).order.trans horder, _, turned_step hs hturned t⟩
  obtain ⟨hnow, horder, turns, hturned⟩ : Good now ∧ now.order = s.order ∧ ∃ turns, Turned now turns :=
    invariant hkept ticks ⟨hgood, rfl, 0, (Nat.zero_mod _).symm⟩
  have hplaces : now.rendered = s.rendered := congrArg List.length horder
  have hround {feed : Nat} (hfeed : feed ∈ now.order) :
      now.total_opened more / s.rendered ≤ now.openings feed more ∧
        now.openings feed more ≤ now.total_opened more / s.rendered + 1 := by
    obtain ⟨p, hp, hat⟩ := mem_iff_getElem.mp hfeed
    have hserved := openings_served hnow hturned (List.getElem?_eq_some_iff.mpr ⟨hp, hat⟩) more
    have hplace : p < now.rendered := hp
    have hpos := Nat.zero_lt_of_lt hplace
    have hbefore := Nat.mod_lt turns hpos
    have hafter := Nat.mod_lt (now.total_opened more) hpos
    rw [served_eq hplace, served_eq hplace, Nat.add_div hpos, Nat.add_mod_eq_ite] at hserved
    rw [← hplaces]
    split_ifs at hserved <;> omega
  refine ⟨fun feed hfeed => (hround ?_).1, fun feed => ?_⟩
  · rw [horder]
    exact (hgood.wanted feed).mpr hfeed
  · by_cases hfeed : feed ∈ now.order
    · exact (hround hfeed).2
    · rw [openings_unwanted hnow hfeed]
      exact Nat.zero_le _

end RenderSchedule
end native_camera
end taxi_camera
