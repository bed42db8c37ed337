-- How long PLEASE WAIT stays on a display: a minimum from the moment the side
-- is drawn, unless it was past that minimum, stayed requested and came back at
-- once. `WaitingPageTimer` of src/shared/waiting_page.hpp.
import TaxiCam.Histories
import TaxiCam.Runs
import TaxiCam.TaxiButtons

namespace taxi_camera.standalone

open native_camera histories runs List

/-! ## The timer -/

def WaitingPageResumeMs : Nat := 3000

def WaitingPageMinimumMs : Nat := 750

/-- The entries of one side in the arrays of the timer; a time of 0 is none. -/
structure WaitingClocks where
  since : Nat := 0
  dropped : Nat := 0
  resumed : Bool := false

/-- `now ? now : 1` -/
def kept_time (now : Nat) : Nat := if now = 0 then 1 else now

namespace WaitingClocks

variable (c : WaitingClocks) (now : Nat)

/-- The side is drawn and its minimum is over. -/
def finished : Bool :=
  c.since != 0 && (c.resumed || decide (c.since ≤ now) && decide (WaitingPageMinimumMs ≤ now - c.since))

def inactive (requested : Bool) : WaitingClocks where
  dropped := if !requested then 0 else if c.finished now then kept_time now else c.dropped

def active : WaitingClocks :=
  if c.since = 0 then
    { since := kept_time now
      resumed := c.dropped != 0 && decide (c.dropped ≤ now) && decide (now - c.dropped ≤ WaitingPageResumeMs) }
  else c

def waits : Bool := !c.resumed && (decide (now < c.since) || decide (now - c.since < WaitingPageMinimumMs))

end WaitingClocks

abbrev WaitingPageTimer := Side → WaitingClocks

namespace WaitingPageTimer

variable (s : WaitingPageTimer) (now : Nat)

/-- One turn of the loop of `observe`. -/
def observe_side (active_mask requested_mask : Mask) (side : Side) : WaitingClocks :=
  if has active_mask side then (s side).active now else (s side).inactive now (has requested_mask side)

def observe (active_mask requested_mask : Mask) : WaitingPageTimer × Mask :=
  let after := s.observe_side now active_mask requested_mask
  (after, (List.finRange MaxDisplaySides).foldl (fun waiting side =>
    if has active_mask side && (after side).waits now then waiting ||| bit side else waiting) 0#32)

def restart (mask : Mask) : WaitingPageTimer := fun side =>
  if has mask side then { since := kept_time now } else s side

end WaitingPageTimer

inductive WaitingCall
  | observe (now : Nat) (active_mask requested_mask : Mask)
  | restart (mask : Mask) (now : Nat)

namespace WaitingCall

def step (s : WaitingPageTimer) : WaitingCall → WaitingPageTimer
  | .observe now active_mask requested_mask => (s.observe now active_mask requested_mask).1
  | .restart mask now => s.restart now mask

def time : WaitingCall → Nat
  | .observe now _ _ => now
  | .restart _ now => now

/-- The clock does not go back. -/
def Ordered (calls : List WaitingCall) : Prop := calls.Pairwise fun a b => a.time ≤ b.time

instance (calls : List WaitingCall) : Decidable (Ordered calls) := inferInstanceAs (Decidable (List.Pairwise _ _))

/-! ## What the calls say of a side -/

variable (side : Side)

def draws : WaitingCall → Bool
  | .observe _ active_mask _ => has active_mask side
  | .restart _ _ => false

/-- The side is not drawn, and is still requested. -/
def drops : WaitingCall → Bool
  | .observe _ active_mask requested_mask => !has active_mask side && has requested_mask side
  | .restart _ _ => false

def ends : WaitingCall → Bool
  | .observe _ active_mask requested_mask => !has active_mask side && !has requested_mask side
  | .restart _ _ => false

def restarts : WaitingCall → Bool
  | .observe _ _ _ => false
  | .restart mask _ => has mask side

/-- The minimum of the side begins. -/
def starts (c : WaitingCall) : Bool := c.draws side || c.restarts side

def interrupts (c : WaitingCall) : Bool := c.drops side || c.ends side || c.restarts side

/-- The side is drawn again, or is no longer requested. -/
def settles (c : WaitingCall) : Bool := c.starts side || c.ends side

/-- Drawn at every observation of the last minimum, with no restart in it. -/
def Throughout (calls : List WaitingCall) (now : Nat) : Prop :=
  ∀ c ∈ calls, now < c.time + WaitingPageMinimumMs → c.interrupts side = false

/-- A side was switched off, and neither drawn nor restarted since. -/
def SwitchedOff (calls : List WaitingCall) : Prop :=
  Since (starts side) (fun _ c => c.ends side = true) calls

/-- At this time the side is past its minimum: it was drawn or restarted so long ago and stayed, or it came back, still
requested all the while, so soon after it was past it. -/
inductive Past : List WaitingCall → Nat → Prop
  | long {before start stay now} (hstart : starts side start = true) (hstay : ∀ c ∈ stay, interrupts side c = false)
      (hlong : start.time + WaitingPageMinimumMs ≤ now) : Past (before ++ start :: stay) now
  | resumed {before drop gap back stay now} (hpast : Past before drop.time) (hdrop : drops side drop = true)
      (hgap : ∀ c ∈ gap, settles side c = false) (hback : draws side back = true)
      (hsoon : back.time ≤ drop.time + WaitingPageResumeMs) (hstay : ∀ c ∈ stay, interrupts side c = false) :
      Past (before ++ drop :: (gap ++ back :: stay)) now

/-- The side came back after a drop that found it past its minimum. -/
def Returned (calls : List WaitingCall) : Prop :=
  ∃ before drop gap back stay, calls = before ++ drop :: (gap ++ back :: stay) ∧ Past side before drop.time ∧
    drops side drop = true ∧ (∀ c ∈ gap, settles side c = false) ∧ draws side back = true ∧
    back.time ≤ drop.time + WaitingPageResumeMs ∧ ∀ c ∈ stay, interrupts side c = false

variable {side : Side} {calls : List WaitingCall} {call : WaitingCall} {now : Nat}

theorem Returned.past (h : Returned side calls) : Past side calls now := by
  obtain ⟨before, drop, gap, back, stay, rfl, hpast, hdrop, hgap, hback, hsoon, hstay⟩ := h
  exact .resumed hpast hdrop hgap hback hsoon hstay

theorem Returned.snoc (h : Returned side calls) (hcall : call.interrupts side = false) : Returned side (calls ++ [call]) := by
  obtain ⟨before, drop, gap, back, stay, rfl, hpast, hdrop, hgap, hback, hsoon, hstay⟩ := h
  refine ⟨before, drop, gap, back, stay ++ [call], by simp, hpast, hdrop, hgap, hback, hsoon, ?_⟩
  intro c hc
  rcases mem_append.mp hc with hc | hc
  · exact hstay c hc
  rw [mem_singleton.mp hc]
  exact hcall

/-! ## The clocks follow the calls -/

/-- What one call makes of the clocks of a side. -/
def tell (side : Side) (c : WaitingClocks) : WaitingCall → WaitingClocks
  | .observe now active_mask requested_mask =>
    if has active_mask side then c.active now else c.inactive now (has requested_mask side)
  | .restart mask now => if has mask side then { since := kept_time now } else c

theorem step_side (s : WaitingPageTimer) (call : WaitingCall) (side : Side) : step s call side = tell side (s side) call := by
  cases call with
  | observe | restart => rfl

theorem kept_time_ne_zero (now : Nat) : kept_time now ≠ 0 := by
  unfold kept_time
  split <;> omega

theorem le_kept_time (now : Nat) : now ≤ kept_time now := by
  unfold kept_time
  split <;> omega

/-- What the clocks say of the calls so far. -/
structure Followed (side : Side) (calls : List WaitingCall) (c : WaitingClocks) : Prop where
  started : c.since ≠ 0 → c.resumed = false →
    Since (interrupts side) (fun _ x => x.starts side = true ∧ c.since = kept_time x.time) calls
  returned : c.resumed = true → Returned side calls
  /-- A side has come back at a time that is not 0. -/
  late : c.resumed = true → ∃ x ∈ calls, x.time ≠ 0
  dropped : c.dropped ≠ 0 →
    Since (settles side) (fun before x => x.drops side = true ∧ Past side before x.time ∧ c.dropped = x.time) calls
  drawn : c.since ≠ 0 → c.dropped = 0

theorem Followed.start : Followed side [] {} where
  started h := absurd rfl h
  returned := nofun
  late := nofun
  dropped h := absurd rfl h
  drawn h := absurd rfl h

/-- A call that leaves the clocks alone. -/
theorem Followed.same {c : WaitingClocks} (h : Followed side calls c) (hstays : call.interrupts side = false)
    (hgap : c.dropped ≠ 0 → call.settles side = false) : Followed side (calls ++ [call]) c where
  started hsince hfresh := (h.started hsince hfresh).snoc hstays
  returned hresumed := (h.returned hresumed).snoc hstays
  late hresumed := by
    obtain ⟨x, hx, hlate⟩ := h.late hresumed
    exact ⟨x, mem_append_left _ hx, hlate⟩
  dropped hdropped := (h.dropped hdropped).snoc (hgap hdropped)
  drawn := h.drawn

/-- A side that is past its minimum when it drops, and the time of that drop. -/
theorem Followed.past {c : WaitingClocks} (h : Followed side calls c) (hclock : ∀ x ∈ calls, x.time ≤ now)
    (hfinished : c.finished now = true) : Past side calls now ∧ now ≠ 0 := by
  simp only [WaitingClocks.finished, Bool.and_eq_true, Bool.or_eq_true, bne_iff_ne, decide_eq_true_eq] at hfinished
  obtain ⟨hsince, hover⟩ := hfinished
  cases hresumed : c.resumed with
  | true =>
    obtain ⟨x, hx, hlate⟩ := h.late hresumed
    have hle := hclock x hx
    exact ⟨(h.returned hresumed).past, by omega⟩
  | false =>
    rw [hresumed] at hover
    obtain ⟨hpassed, hlong⟩ := hover.resolve_left (by decide)
    obtain ⟨before, x, stay, rfl, ⟨hstart, htime⟩, hstay⟩ := h.started hsince hresumed
    have hle := le_kept_time x.time
    exact ⟨.long hstart hstay (by omega), by omega⟩

theorem Followed.inactive {c : WaitingClocks} (h : Followed side calls c) (hclock : ∀ x ∈ calls, x.time ≤ now)
    (hcall : call.time = now) (requested : Bool) (hdrops : requested = true → call.drops side = true)
    (hgap : requested = true → call.settles side = false) : Followed side (calls ++ [call]) (c.inactive now requested) where
  started hsince := absurd rfl hsince
  returned := nofun
  late := nofun
  drawn hsince := absurd rfl hsince
  dropped hdropped := by
    cases requested with
    | false => exact absurd rfl hdropped
    | true =>
      simp only [WaitingClocks.inactive, Bool.not_true, Bool.false_eq_true, if_false] at hdropped ⊢
      cases hfinished : c.finished now with
      | false =>
        rw [hfinished, if_neg nofun] at hdropped
        exact (h.dropped hdropped).snoc (hgap rfl)
      | true =>
        obtain ⟨hpast, hnow⟩ := h.past hclock hfinished
        rw [if_pos rfl]
        refine Since.now ⟨hdrops rfl, hcall ▸ hpast, ?_⟩
        rw [hcall, kept_time, if_neg hnow]

theorem Followed.active {c : WaitingClocks} (h : Followed side calls c) (hcall : call.time = now)
    (hdraws : call.draws side = true) (hstays : call.interrupts side = false) :
    Followed side (calls ++ [call]) (c.active now) := by
  unfold WaitingClocks.active
  split
  · refine ⟨fun _ _ => Since.now ⟨by rw [starts, hdraws]; rfl, by rw [hcall]⟩, fun hresumed => ?_, fun hresumed => ?_,
      fun hdropped => absurd rfl hdropped, fun _ => rfl⟩
    all_goals
      simp only [Bool.and_eq_true, bne_iff_ne, decide_eq_true_eq] at hresumed
      obtain ⟨⟨hdropped, hpassed⟩, hsoon⟩ := hresumed
    · obtain ⟨before, drop, gap, rfl, ⟨hdrop, hpast, htime⟩, hgap⟩ := h.dropped hdropped
      exact ⟨before, drop, gap, call, [], by simp, hpast, hdrop, hgap, hdraws, by omega, nofun⟩
    · exact ⟨call, mem_append_right _ (mem_singleton.mpr rfl), by omega⟩
  rename_i hsince
  exact h.same hstays fun hdropped => absurd (h.drawn hsince) hdropped

theorem Followed.tell {c : WaitingClocks} (h : Followed side calls c) (hclock : ∀ x ∈ calls, x.time ≤ call.time) :
    Followed side (calls ++ [call]) (tell side c call) := by
  cases call with
  | observe now active_mask requested_mask =>
    rw [tell]
    split
    · rename_i hactive
      exact h.active rfl hactive (by simp [interrupts, drops, ends, restarts, hactive])
    rename_i hactive
    rw [Bool.not_eq_true] at hactive
    refine h.inactive hclock rfl _ (fun hrequested => ?_) fun hrequested => ?_
    · simp [drops, hactive, hrequested]
    · simp [settles, starts, draws, restarts, ends, hactive, hrequested]
  | restart mask now =>
    rw [tell]
    split
    · rename_i hmask
      exact ⟨fun _ _ => Since.now ⟨by simpa [starts, draws, restarts] using hmask, rfl⟩, nofun, nofun, fun h => absurd rfl h, fun _ => rfl⟩
    rename_i hmask
    rw [Bool.not_eq_true] at hmask
    exact h.same (by simp [interrupts, drops, ends, restarts, hmask]) fun _ => by
      simp [settles, starts, draws, restarts, ends, hmask]

/-- The clocks of a side after calls on a new timer. -/
def clocks (side : Side) (calls : List WaitingCall) : WaitingClocks := run step (fun _ => {}) calls side

theorem clocks_snoc : clocks side (calls ++ [call]) = tell side (clocks side calls) call := by
  unfold clocks
  rw [run_snoc, step_side]

theorem followed (side : Side) (calls : List WaitingCall) (h : Ordered calls) : Followed side calls (clocks side calls) := by
  induction calls using List.reverseRecOn with
  | nil => exact .start
  | append_singleton calls call ih =>
    obtain ⟨hcalls, -, hlast⟩ := pairwise_append.mp h
    rw [clocks_snoc]
    exact (ih hcalls).tell fun x hx => hlast x hx call (mem_singleton.mpr rfl)

/-! ## A new minimum -/

/-- The minimum of the side began at `start` or later, and no drop before that counts. -/
structure Fresh (start : Nat) (c : WaitingClocks) : Prop where
  resumed : c.resumed = false
  dropped : c.dropped = 0
  since : c.since = 0 ∨ start ≤ c.since

theorem Fresh.tell {start : Nat} {c : WaitingClocks} (h : Fresh start c) (hstart : start ≤ call.time)
    (hsoon : call.time < start + WaitingPageMinimumMs) : Fresh start (WaitingCall.tell side c call) := by
  have hbegun : start ≤ kept_time call.time := hstart.trans (le_kept_time _)
  cases call with
  | observe now active_mask requested_mask =>
    rw [tell]
    split
    · unfold WaitingClocks.active
      split
      · exact ⟨by rw [h.dropped]; rfl, rfl, .inr hbegun⟩
      · exact h
    refine ⟨rfl, ?_, .inl rfl⟩
    have hnot : c.finished now = false := by
      have hsince := h.since
      have hnow : now < start + WaitingPageMinimumMs := hsoon
      simp only [WaitingClocks.finished, h.resumed, Bool.false_or, Bool.and_eq_false_iff, bne_eq_false_iff_eq,
        decide_eq_false_iff_not]
      omega
    unfold WaitingClocks.inactive
    rw [hnot, h.dropped]
    split <;> rfl
  | restart mask now =>
    rw [tell]
    split
    · exact ⟨rfl, rfl, .inr hbegun⟩
    · exact h

theorem switched_off (h : SwitchedOff side calls) : clocks side calls = {} := by
  obtain ⟨before, off, rest, rfl, hoff, hrest⟩ := h
  induction rest using List.reverseRecOn with
  | nil =>
    rw [clocks_snoc]
    cases off with
    | observe now active_mask requested_mask =>
      simp only [ends, Bool.and_eq_true, Bool.not_eq_true'] at hoff
      simp [tell, WaitingClocks.inactive, hoff.1, hoff.2]
    | restart mask now => cases hoff
  | append_singleton rest call ih =>
    have hcall := hrest call (by simp)
    rw [← cons_append, ← append_assoc, clocks_snoc, ih fun c hc => hrest c (by simp [hc])]
    cases call with
    | observe now active_mask requested_mask =>
      simp only [starts, draws, restarts, Bool.or_false] at hcall
      rw [tell]
      rw [if_neg (by rw [hcall]; exact nofun)]
      unfold WaitingClocks.inactive
      split <;> rfl
    | restart mask now =>
      simp only [starts, draws, restarts, Bool.false_or] at hcall
      rw [tell]
      rw [if_neg (by rw [hcall]; exact nofun)]

theorem fresh_start (hstarts : call.restarts side = true ∨ call.draws side = true ∧ SwitchedOff side calls) :
    Fresh call.time (clocks side (calls ++ [call])) := by
  rw [clocks_snoc]
  rcases hstarts with hrestart | ⟨hdraws, hoff⟩
  · cases call with
    | observe => cases hrestart
    | restart mask now =>
      rw [tell]
      rw [if_pos (by exact hrestart)]
      exact ⟨rfl, rfl, .inr (le_kept_time now)⟩
  cases call with
  | observe now active_mask requested_mask =>
    rw [tell]
    rw [if_pos (by exact hdraws), switched_off hoff]
    exact ⟨rfl, rfl, .inr (le_kept_time now)⟩
  | restart => cases hdraws

theorem fresh_after {start : WaitingCall} {later : List WaitingCall} (h : Fresh start.time (clocks side (calls ++ [start])))
    (hlater : ∀ c ∈ later, start.time ≤ c.time ∧ c.time < start.time + WaitingPageMinimumMs) :
    Fresh start.time (clocks side (calls ++ start :: later)) := by
  induction later using List.reverseRecOn with
  | nil => exact h
  | append_singleton later call ih =>
    obtain ⟨hle, hsoon⟩ := hlater call (by simp)
    rw [← cons_append, ← append_assoc, clocks_snoc]
    exact (ih fun c hc => hlater c (by simp [hc])).tell hle hsoon

/-! ## The page of a side -/

theorem has_foldl_or_bit (p : Side → Bool) (sides : List Side) (mask : Mask) :
    has (sides.foldl (fun waiting other => if p other then waiting ||| bit other else waiting) mask) side =
      (has mask side || sides.contains side && p side) := by
  induction sides generalizing mask with
  | nil => simp
  | cons other rest ih =>
    rw [foldl_cons, ih, contains_cons]
    by_cases hsame : side = other
    · subst hsame
      cases p side
      · simp
      · rw [if_pos rfl, has_or_bit]
        simp
    have hbeq : (side == other) = false := beq_eq_false_iff_ne.mpr hsame
    cases p other
    · simp [hbeq]
    · rw [if_pos rfl, has_or_bit]
      simp [hsame, hbeq]

/-- The mask that an observation after these calls answers. -/
def waiting (calls : List WaitingCall) (now : Nat) (active_mask requested_mask : Mask) : Mask :=
  ((run step (fun _ => {}) calls : WaitingPageTimer).observe now active_mask requested_mask).2

theorem has_waiting {active_mask requested_mask : Mask} (hactive : has active_mask side = true) :
    has (waiting calls now active_mask requested_mask) side =
      (clocks side (calls ++ [.observe now active_mask requested_mask])).waits now := by
  have hside := step_side (run step (fun _ => {}) calls) (.observe now active_mask requested_mask) side
  unfold waiting WaitingPageTimer.observe
  rw [has_foldl_or_bit, has_zero, hactive, clocks_snoc]
  simp only [Bool.false_or, Bool.true_and, contains_iff_mem.mpr (mem_finRange side)]
  rw [clocks, ← hside]
  rfl

/-- A side that is drawn without the page was drawn throughout the last minimum, or came back after a drop that found it past
its minimum; and a side that was restarted, or switched off and on with no restart in between, has the page for a minimum. -/
theorem the_page_lasts_its_minimum (side : Side) (calls : List WaitingCall) (now : Nat) (active_mask requested_mask : Mask)
    (hclock : Ordered (calls ++ [.observe now active_mask requested_mask])) (hactive : has active_mask side = true) :
    (has (waiting calls now active_mask requested_mask) side = false →
        Throughout side (calls ++ [.observe now active_mask requested_mask]) now ∨
          Returned side (calls ++ [.observe now active_mask requested_mask])) ∧
      ∀ before start later, calls ++ [.observe now active_mask requested_mask] = before ++ start :: later →
        (start.restarts side = true ∨ start.draws side = true ∧ SwitchedOff side before) →
        now < start.time + WaitingPageMinimumMs → has (waiting calls now active_mask requested_mask) side = true := by
  rw [has_waiting hactive]
  generalize hall : calls ++ [.observe now active_mask requested_mask] = all at hclock ⊢
  have hsince : (clocks side all).since ≠ 0 := by
    rw [← hall, clocks_snoc, tell, if_pos hactive, WaitingClocks.active]
    split
    · exact kept_time_ne_zero now
    · assumption
  have hlast : ∀ c ∈ all, c.time ≤ now := by
    rw [← hall] at hclock ⊢
    obtain ⟨-, -, hend⟩ := pairwise_append.mp hclock
    intro c hc
    rcases mem_append.mp hc with hc | hc
    · exact hend c hc _ (mem_singleton.mpr rfl)
    rw [mem_singleton.mp hc]
    exact le_rfl
  constructor
  · intro hshown
    have hfollowed := followed side all hclock
    cases hresumed : (clocks side all).resumed with
    | true => exact .inr (hfollowed.returned hresumed)
    | false =>
      left
      obtain ⟨before, start, stay, rfl, ⟨-, htime⟩, hstay⟩ := hfollowed.started hsince hresumed
      simp only [WaitingClocks.waits, hresumed, Bool.not_false, Bool.true_and, Bool.or_eq_false_iff,
        decide_eq_false_iff_not] at hshown
      have hle := le_kept_time start.time
      obtain ⟨-, -, hbefore⟩ := pairwise_append.mp hclock
      intro c hc hrecent
      rcases mem_append.mp hc with hc | hc
      · have horder := hbefore c hc start mem_cons_self
        omega
      rcases mem_cons.mp hc with rfl | hc
      · omega
      · exact hstay c hc
  · rintro before start later rfl hstarts hsoon
    obtain ⟨-, hpart, -⟩ := pairwise_append.mp hclock
    have hfresh := fresh_after (fresh_start hstarts) fun c hc =>
      ⟨(pairwise_cons.mp hpart).1 c hc, (hlast c (by simp [hc])).trans_lt hsoon⟩
    have hbegun := hfresh.since.resolve_left hsince
    simp only [WaitingClocks.waits, hfresh.resumed, Bool.not_false, Bool.true_and, Bool.or_eq_true, decide_eq_true_eq]
    omega

/-- Drawn for a second, without a display texture for a second, and drawn again. -/
def recreated : List WaitingCall := [.observe 1000 1#32 1#32, .observe 2000 0#32 1#32]

theorem a_recreated_display_returns_at_once :
    Throughout 0 (recreated ++ [.observe 3000 1#32 1#32]) 3000 ∨ Returned 0 (recreated ++ [.observe 3000 1#32 1#32]) :=
  (the_page_lasts_its_minimum 0 recreated 3000 1#32 1#32 (by decide) (by decide)).1 (by decide)

/-- A restart of a side that is not drawn starts its minimum too: the first time it is drawn, it can be without the page. -/
theorem a_side_is_drawn_at_once_without_the_page :
    ¬∀ (side : Side) (calls : List WaitingCall) (now : Nat) (active_mask requested_mask : Mask),
      Ordered (calls ++ [.observe now active_mask requested_mask]) → has active_mask side = true →
      has (waiting calls now active_mask requested_mask) side = false →
      Throughout side (calls ++ [.observe now active_mask requested_mask]) now ∨ ∃ c ∈ calls, c.draws side = true := by
  intro h
  have hfirst := h 0 [.restart 1#32 1000, .observe 1750 0#32 1#32] 1751 1#32 1#32 (by decide) (by decide) (by decide)
  rcases hfirst with hthroughout | ⟨c, hc, hdraws⟩
  · exact absurd (hthroughout (.observe 1750 0#32 1#32) (by simp) (by decide)) (by decide)
  simp only [mem_cons, not_mem_nil, or_false] at hc
  rcases hc with rfl | rfl <;> exact absurd hdraws (by decide)

end WaitingCall

end taxi_camera.standalone
