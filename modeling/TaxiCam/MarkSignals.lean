-- Pages follow each mark signal once, unless a worker writes a signal again that
-- the simulator had reset before the page read its baseline.
import TaxiCam.MarkPages
import Mathlib.Data.List.Nodup

namespace taxi_camera.panel_pages

open runs List

variable {β : Type}

/-! ## What the claims of a run are -/

/-- A page acts once for each signal, and only for signals that were first written after it read its
baseline. -/
def Follows (s : System β) : Prop :=
  s.raised.Nodup ∧ ∀ f ∈ s.pages, f.acted.Nodup ∧
    ∀ v ∈ f.acted, v ∈ s.raised ∧ v ∈ s.written ∧ v ∉ f.before

/-- The blocks of a page: none where an error stops the drawing. -/
def blocks : Option (Drawing β) → List β
  | some drawing => drawing.blocks
  | none => []

/-- A page that reads the latest signal for the first time has its blocks up if the signal asks for
them, and has none up if it does not. -/
def Answers (s : System β) : Prop :=
  ∀ f ∈ s.pages, f.page.baseline ≠ none → s.panel_marks_signal ≠ 0 →
    s.variable_value = s.panel_marks_signal → s.variable_value ∉ f.seen →
      ∀ now sim drawing, (f.page.poll now sim drawing (.value s.variable_value)).shown =
        if s.panel_marks_signal < 0 then blocks drawing else []

/-- The clock of the signals has not stood there before. -/
def fresh (s : System β) : Op β → Bool
  | .signal _ tick => clock tick ∉ s.ticks
  | _ => true

/-- A page that read its baseline after a value was first written has no other baseline when the value
is written again. -/
def harmless (s : System β) : Op β → Bool
  | .send true =>
    match s.marks with
    | some m =>
      s.pages.all fun f => f.page.baseline = none ∨ f.page.baseline = some m ∨ m ∉ f.before
    | none => true
  | _ => true

/-! ## The page's baseline -/

theorem baseline_expire (now : Int) (sim : Option Rat) (p : Page β) : (p.expire now sim).baseline = p.baseline := by
  rw [Page.expire]
  split
  · dsimp only
    generalize (if sim = none ∨ p.lastSim = none ∨ sim ≠ p.lastSim then p.runMs + (now - p.lastPoll)
      else p.runMs) = ran
    split <;> rfl
  · rfl

theorem show_cases (now : Int) (drawing : Option (Drawing β)) (p : Page β) :
    p.show now drawing = none ∧ drawing = none ∨ ∃ d p', drawing = some d ∧ p.show now drawing = some p' ∧
      p'.shown = d.blocks ∧ p'.baseline = p.baseline ∧
        (p'.showing = true → p'.shownAt = now + d.elapsed ∧ p'.lastPoll = now + d.elapsed ∧ p'.runMs = 0) := by
  cases drawing with
  | none => exact .inl ⟨rfl, rfl⟩
  | some d =>
    refine .inr ⟨d, ?_⟩
    by_cases hnone : d.blocks.isEmpty
    · exact ⟨{ p.hide with shown := d.blocks }, rfl, if_pos hnone, rfl, rfl, nofun⟩
    · exact ⟨_, rfl, if_neg hnone, rfl, rfl, fun _ => ⟨rfl, rfl, rfl⟩⟩

/-- A read of the variable may give the page another baseline, and does nothing else to it. -/
def next_baseline (baseline : Option Int) : Reading → Option Int
  | .value v =>
    match baseline with
    | none => some v
    | some b => if v ≠ 0 ∧ v ≠ b then some v else some b
  | _ => baseline

theorem baseline_poll (now : Int) (sim : Option Rat) (drawing : Option (Drawing β)) (reading : Reading)
    (p : Page β) : (p.poll now sim drawing reading).baseline = next_baseline p.baseline reading := by
  cases reading with
  | thrown => rfl
  | null => exact baseline_expire ..
  | value v =>
    cases hb : p.baseline with
    | none =>
      rw [Page.poll, hb]
      exact baseline_expire ..
    | some b =>
      rw [Page.poll, hb, next_baseline]
      dsimp only
      split
      · split
        · exact baseline_expire ..
        rcases show_cases now drawing { p with baseline := some v } with
          ⟨hshow, -⟩ | ⟨_, p', -, hshow, -, hbase, -⟩
        · rw [hshow]
          rfl
        rw [hshow]
        exact (baseline_expire ..).trans hbase
      · exact (baseline_expire ..).trans hb

theorem baseline_start (now : Int) (drawing : Option (Drawing β)) (panel : Bool) (p : Page β) :
    (p.start now drawing panel).baseline = p.baseline := by
  rw [Page.start]
  split
  · rfl
  rcases show_cases now drawing p with ⟨hshow, -⟩ | ⟨_, p', -, hshow, -, hbase, -⟩
  · rw [hshow]
    rfl
  rw [hshow]
  exact hbase

variable {f : Follower β} {tick : Nat} {p : Page β} {s : System β}

/-- Blocks that are just up stay up. -/
theorem shown_expire {now : Int} {sim : Option Rat}
    (h : p.showing = true → now ≤ p.shownAt ∧ now ≤ p.lastPoll ∧ p.runMs = 0) :
    (p.expire now sim).shown = p.shown := by
  rw [Page.expire]
  split
  · rename_i hshowing
    obtain ⟨hat, hlast, hrun⟩ := h hshowing
    dsimp only
    have hran : (if sim = none ∨ p.lastSim = none ∨ sim ≠ p.lastSim then p.runMs + (now - p.lastPoll)
        else p.runMs) ≤ 0 := by
      split <;> omega
    generalize (if sim = none ∨ p.lastSim = none ∨ sim ≠ p.lastSim then p.runMs + (now - p.lastPoll)
      else p.runMs) = ran at hran
    rw [if_neg]
    rw [MAX_SHOW_MS, HARD_SHOW_MS]
    omega
  · rfl

theorem shown_poll {b v : Int} (hb : p.baseline = some b) (hv : v ≠ 0) (hvb : v ≠ b)
    (now : Int) (sim : Option Rat) (drawing : Option (Drawing β)) :
    (p.poll now sim drawing (.value v)).shown = if v < 0 then blocks drawing else [] := by
  rw [Page.poll, hb]
  dsimp only
  rw [if_pos ⟨hv, hvb⟩]
  split
  · rename_i hpos
    rw [if_neg (by omega)]
    exact shown_expire nofun
  rename_i hneg
  rw [if_pos (by omega)]
  rcases show_cases now drawing { p with baseline := some v } with
    ⟨hshow, rfl⟩ | ⟨d, p', rfl, hshow, hshown, -, hclock⟩
  · rw [hshow]
    rfl
  rw [hshow]
  refine (shown_expire fun h => ?_).trans hshown
  obtain ⟨hat, hlast, hrun⟩ := hclock h
  omega

/-! ## The worker sends the latest signal -/

/-- A value that another one was written after is not sent again, and while the worker holds an old
signal the latest one is not written yet. -/
structure Orderly (s : System β) : Prop where
  raised : ∀ v ∈ s.raised, ∃ t ∈ s.ticks, v.natAbs = t + 1
  nodup : s.raised.Nodup
  signal : s.raised = [] ∧ s.panel_marks_signal = 0 ∨ s.panel_marks_signal ∈ s.raised
  sent : s.panel_marks_sent = 0 ∨ s.panel_marks_sent ∈ s.raised
  marks : ∀ m ∈ s.marks, m ∈ s.raised
  written : ∀ v ∈ s.written, v ∈ s.raised
  superseded : ∀ w ∈ s.written, s.written.head? ≠ some w → w ≠ s.panel_marks_signal ∧ w ∉ s.marks
  newer : ∀ m ∈ s.marks, m ≠ s.panel_marks_signal → s.panel_marks_signal ∉ s.written

/-- With a fresh clock a signal has a value of its own. -/
theorem Orderly.fresh_signal (h : Orderly s) (read : Bool) (hfresh : clock tick ∉ s.ticks) :
    (s.signal_panel_marks read tick).panel_marks_signal.natAbs = clock tick + 1 ∧
      (s.signal_panel_marks read tick).panel_marks_signal ∉ s.raised := by
  have hother : (clock tick + 1 : Int) ≠ s.panel_marks_signal.natAbs := by
    rcases h.signal with ⟨-, hzero⟩ | hmem
    · rw [hzero]
      omega
    obtain ⟨t, ht, heq⟩ := h.raised _ hmem
    intro hsame
    have : t = clock tick := by omega
    exact hfresh (this ▸ ht)
  have habs : (s.signal_panel_marks read tick).panel_marks_signal.natAbs = clock tick + 1 := by
    rw [System.signal_panel_marks]
    dsimp only
    cases read
    · omega
    · omega
  refine ⟨habs, fun hmem => ?_⟩
  obtain ⟨t, ht, heq⟩ := h.raised _ hmem
  have : t = clock tick := by omega
  exact hfresh (this ▸ ht)

theorem Orderly.signal_panel_marks (h : Orderly s) (read : Bool)
    (hfresh : clock tick ∉ s.ticks) : Orderly (s.signal_panel_marks read tick) := by
  obtain ⟨habs, hnew⟩ := h.fresh_signal read hfresh
  have hraised : (s.signal_panel_marks read tick).raised =
      (s.signal_panel_marks read tick).panel_marks_signal :: s.raised := rfl
  have hticks : (s.signal_panel_marks read tick).ticks = clock tick :: s.ticks := rfl
  have hsent : (s.signal_panel_marks read tick).panel_marks_sent = s.panel_marks_sent := rfl
  have hmarks : (s.signal_panel_marks read tick).marks = s.marks := rfl
  have hwritten : (s.signal_panel_marks read tick).written = s.written := rfl
  generalize s.signal_panel_marks read tick = s' at *
  have hunwritten : s'.panel_marks_signal ∉ s.written := fun hmem => hnew (h.written _ hmem)
  constructor
  · intro v hv
    rw [hraised] at hv
    rw [hticks]
    rcases mem_cons.mp hv with rfl | hv
    · exact ⟨clock tick, mem_cons_self, habs⟩
    obtain ⟨t, ht, heq⟩ := h.raised v hv
    exact ⟨t, mem_cons_of_mem _ ht, heq⟩
  · rw [hraised]
    exact nodup_cons.mpr ⟨hnew, h.nodup⟩
  · rw [hraised]
    exact .inr mem_cons_self
  · rw [hsent, hraised]
    exact h.sent.imp id (mem_cons_of_mem _)
  · rw [hmarks, hraised]
    exact fun m hm => mem_cons_of_mem _ (h.marks m hm)
  · rw [hwritten, hraised]
    exact fun v hv => mem_cons_of_mem _ (h.written v hv)
  · rw [hwritten, hmarks]
    intro w hw hlast
    refine ⟨?_, (h.superseded w hw hlast).2⟩
    rintro rfl
    exact hunwritten hw
  · rw [hwritten]
    exact fun _ _ _ => hunwritten

theorem Orderly.restart (h : Orderly s) (defined : Bool) : Orderly (s.restart defined) where
  raised := h.raised
  nodup := h.nodup
  signal := h.signal
  sent := .inl rfl
  marks _ hm := by cases hm
  written := h.written
  superseded w hw hlast := ⟨(h.superseded w hw hlast).1, nofun⟩
  newer _ hm := by cases hm

theorem Orderly.fetch (h : Orderly s) : Orderly s.fetch := by
  rw [System.fetch]
  split
  · rename_i hdue
    have hsignal : s.panel_marks_signal ∈ s.raised := by
      rcases h.signal with ⟨hnone, hzero⟩ | hmem
      · rcases h.sent with hsent | hsent
        · exact absurd (hzero.trans hsent.symm) hdue.2
        rw [hnone] at hsent
        cases hsent
      · exact hmem
    exact {
      raised := h.raised
      nodup := h.nodup
      signal := h.signal
      sent := h.sent
      marks := fun m hm => by
        obtain rfl := Option.some.inj hm
        exact hsignal
      written := h.written
      superseded := fun w hw hlast => by
        have hold := (h.superseded w hw hlast).1
        exact ⟨hold, fun hm => hold (Option.some.inj hm).symm⟩
      newer := fun m hm hne => absurd (Option.some.inj hm).symm hne }
  · exact h

theorem Orderly.send (h : Orderly s) (accepted : Bool) : Orderly (s.send accepted) := by
  rw [System.send]
  split
  · exact h
  rename_i marks hmarks
  have hraised : marks ∈ s.raised := h.marks marks hmarks
  split
  · exact {
      raised := h.raised
      nodup := h.nodup
      signal := h.signal
      sent := .inr hraised
      marks := nofun
      written := fun v hv => (mem_cons.mp hv).elim (fun heq => heq ▸ hraised) (h.written v)
      superseded := fun w hw hlast => by
        refine ⟨?_, nofun⟩
        rintro rfl
        have hne : marks ≠ s.panel_marks_signal := fun heq => hlast (congrArg some heq)
        rcases mem_cons.mp hw with heq | hw
        · exact hne heq.symm
        · exact h.newer marks hmarks hne hw
      newer := fun _ hm => by cases hm }
  exact {
    raised := h.raised
    nodup := h.nodup
    signal := h.signal
    sent := h.sent
    marks := nofun
    written := h.written
    superseded := fun w hw hlast => ⟨(h.superseded w hw hlast).1, nofun⟩
    newer := fun _ hm => by cases hm }

/-! ## A page and what it has met -/

structure Loyal (s : System β) (f : Follower β) : Prop where
  acted : ∀ v ∈ f.acted, v ∈ s.written ∧ v ∉ f.before
  nodup : f.acted.Nodup
  unread : f.page.baseline = none → f.acted = []
  latest : ∀ b ∈ f.page.baseline, ∀ v ∈ f.acted, v ≠ b → s.written.head? ≠ some v
  news : ∀ b ∈ f.page.baseline, s.variable_value ≠ 0 → s.variable_value ≠ b →
    s.written.head? = some s.variable_value ∧ s.variable_value ∉ f.before
  seen : ∀ b ∈ f.page.baseline, b ∈ f.seen

theorem Loyal.same {s' : System β} (h : Loyal s f) (hwritten : s'.written = s.written)
    (hvalue : s'.variable_value = s.variable_value) : Loyal s' f := by
  refine ⟨?_, h.nodup, h.unread, ?_, ?_, h.seen⟩
  · rw [hwritten]
    exact h.acted
  · rw [hwritten]
    exact h.latest
  · rw [hwritten, hvalue]
    exact h.news

/-- What the page does without the variable keeps its baseline. -/
theorem Loyal.other_page (h : Loyal s f) {page : Page β}
    (hbase : page.baseline = f.page.baseline) : Loyal s { f with page } := by
  refine ⟨h.acted, h.nodup, ?_, ?_, ?_, ?_⟩
  · rw [hbase]
    exact h.unread
  · rw [hbase]
    exact h.latest
  · rw [hbase]
    exact h.news
  · rw [hbase]
    exact h.seen

theorem Loyal.reset (h : Loyal s f) : Loyal { s with variable_value := 0 } f :=
  { h with news := fun _ _ hzero => absurd rfl hzero }

/-- The worker writes a value that the page has not acted for, unless it is the page's baseline. -/
theorem Loyal.send (ho : Orderly s) (h : Loyal s f) {accepted : Bool}
    (hharmless : ∀ m ∈ s.marks, accepted = true → f.page.baseline = none ∨ f.page.baseline = some m ∨ m ∉ f.before) :
    Loyal (s.send accepted) f := by
  rw [System.send]
  split
  · exact h
  rename_i marks hmarks
  split
  · rename_i haccepted
    refine ⟨fun v hv => ⟨mem_cons_of_mem _ (h.acted v hv).1, (h.acted v hv).2⟩, h.nodup, h.unread, ?_, ?_, h.seen⟩
    · intro b hb v hv hne hlast
      obtain rfl : marks = v := Option.some.inj hlast
      by_cases hold : s.written.head? = some marks
      · exact h.latest b hb marks hv hne hold
      · exact (ho.superseded marks (h.acted marks hv).1 hold).2 hmarks
    · intro b hb _ hne
      refine ⟨rfl, ?_⟩
      rcases hharmless marks hmarks haccepted with hnone | hsame | hnew
      · rw [hnone] at hb
        cases hb
      · rw [hsame] at hb
        exact absurd (Option.some.inj hb) hne
      · exact hnew
  · exact h.same rfl rfl

theorem Loyal.load (s s' : System β) (access : Access) (hvalue : s'.variable_value = s.variable_value) :
    Loyal s' (if access = .read then
      { page := Page.load (access.reading s.variable_value), before := s.written, seen := [s.variable_value] }
      else { page := Page.load (access.reading s.variable_value) }) := by
  cases access with
  | read =>
    have hbase : ∀ b ∈ (Page.load (β := β) (Access.read.reading s.variable_value)).baseline,
        b = s.variable_value := fun b hb => (Option.some.inj hb).symm
    refine ⟨nofun, .nil, fun _ => rfl, nofun, ?_, ?_⟩
    · intro b hb _ hne
      rw [hbase b hb, hvalue] at hne
      exact absurd rfl hne
    · intro b hb
      rw [hbase b hb]
      exact mem_singleton_self _
  | null | thrown =>
    exact ⟨nofun, .nil, fun _ => rfl, nofun,
      nofun, nofun⟩

theorem Loyal.poll (h : Loyal s f) (now : Int) (sim : Option Rat) (drawing : Option (Drawing β)) (access : Access) :
    Loyal s (f.poll now sim drawing access s.variable_value s.written) := by
  have hbase := baseline_poll now sim drawing (access.reading s.variable_value) f.page
  unfold Follower.poll
  generalize f.page.poll now sim drawing (access.reading s.variable_value) = page at *
  cases access with
  | null | thrown => exact h.other_page hbase
  | read =>
    cases hb : f.page.baseline with
    | none =>
      rw [hb] at hbase
      have hnone := h.unread hb
      have heq : ∀ b ∈ page.baseline, b = s.variable_value := fun b hb' => by
        rw [hbase] at hb'
        exact (Option.some.inj hb').symm
      refine ⟨fun v hv => ?_, h.nodup, fun _ => hnone, fun _ _ v hv => ?_, fun b hb' _ hne => ?_, fun b hb' => ?_⟩
      · rw [hnone] at hv
        cases hv
      · rw [hnone] at hv
        cases hv
      · exact absurd (heq b hb').symm hne
      · rw [heq b hb']
        exact mem_cons_self
    | some b =>
      rw [hb] at hbase
      dsimp only
      by_cases hacts : s.variable_value ≠ 0 ∧ s.variable_value ≠ b
      · rw [if_pos hacts]
        have hnext : page.baseline = some s.variable_value := hbase.trans (if_pos hacts)
        obtain ⟨hlast, hnew⟩ := h.news b hb hacts.1 hacts.2
        have hfirst : s.variable_value ∉ f.acted := fun hmem =>
          h.latest b hb _ hmem hacts.2 hlast
        have heq : ∀ b ∈ page.baseline, b = s.variable_value := fun b hb' => by
          rw [hnext] at hb'
          exact (Option.some.inj hb').symm
        refine ⟨fun v hv => ?_, nodup_cons.mpr ⟨hfirst, h.nodup⟩, fun hnone => ?_, ?_,
          fun b hb' _ hne => absurd (heq b hb').symm hne, fun b hb' => ?_⟩
        · rcases mem_cons.mp hv with rfl | hv
          · exact ⟨mem_of_mem_head? hlast, hnew⟩
          · exact h.acted v hv
        · rw [hnext] at hnone
          cases hnone
        · intro b hb' v _ hne hhead
          rw [hlast] at hhead
          exact hne ((Option.some.inj hhead).symm.trans (heq b hb').symm)
        · rw [heq b hb']
          exact mem_cons_self
      rw [if_neg hacts]
      have hkeep := h.other_page (hbase.trans ((if_neg hacts).trans hb.symm))
      exact { hkeep with seen := fun b hb' => mem_cons_of_mem _ (hkeep.seen b hb') }

/-! ## Runs -/

structure Kept (s : System β) : Prop where
  orderly : Orderly s
  loyal : ∀ f ∈ s.pages, Loyal s f

theorem mem_of_modify {α : Type} {l : List α} {i : Nat} {g : α → α} {x : α} (h : x ∈ l.modify i g) :
    ∃ y ∈ l, x = y ∨ x = g y := by
  obtain ⟨j, hj⟩ := mem_iff_getElem?.mp h
  rw [List.getElem?_modify] at hj
  obtain ⟨y, hy, rfl⟩ := Option.map_eq_some_iff.mp hj
  refine ⟨y, mem_of_getElem? hy, ?_⟩
  split
  · exact .inr rfl
  · exact .inl rfl

theorem kept_start (value : Int) : Kept ({ variable_value := value } : System β) where
  orderly :=
    { raised := nofun
      nodup := .nil
      signal := .inl ⟨rfl, rfl⟩
      sent := .inl rfl
      marks := nofun
      written := nofun
      superseded := nofun
      newer := fun _ hm => by cases hm }
  loyal _ hf := by cases hf

theorem Kept.step (h : Kept s) (a : Op β) (hfresh : fresh s a = true)
    (hharmless : harmless s a = true) : Kept (step s a) := by
  cases a with
  | signal read tick =>
    exact ⟨h.orderly.signal_panel_marks read (of_decide_eq_true hfresh), fun f hf => (h.loyal f hf).same rfl rfl⟩
  | restart defined =>
    exact ⟨h.orderly.restart defined, fun f hf => (h.loyal f hf).same rfl rfl⟩
  | fetch =>
    refine ⟨h.orderly.fetch, ?_⟩
    change ∀ f ∈ s.fetch.pages, Loyal s.fetch f
    rw [System.fetch]
    split
    · exact fun f hf => (h.loyal f hf).same rfl rfl
    · exact h.loyal
  | send accepted =>
    have hpages : (s.send accepted).pages = s.pages := by
      rw [System.send]
      split
      · rfl
      · split <;> rfl
    refine ⟨h.orderly.send accepted, fun f hf => ?_⟩
    rw [panel_pages.step, hpages] at hf
    refine (h.loyal f hf).send h.orderly fun m hm haccepted => ?_
    subst haccepted
    rw [harmless, Option.mem_def.mp hm] at hharmless
    exact of_decide_eq_true (all_eq_true.mp hharmless f hf)
  | reset =>
    exact ⟨{ h.orderly with }, fun f hf => (h.loyal f hf).reset⟩
  | load access =>
    refine ⟨{ h.orderly with }, fun f hf => ?_⟩
    rcases mem_append.mp hf with hf | hf
    · exact (h.loyal f hf).same rfl rfl
    rw [mem_singleton.mp hf]
    exact Loyal.load s _ access rfl
  | start i now drawing panel =>
    refine ⟨{ h.orderly with }, fun f hf => ?_⟩
    obtain ⟨f0, hf0, rfl | rfl⟩ := mem_of_modify hf
    · exact (h.loyal f hf0).same rfl rfl
    split
    · exact ((h.loyal f0 hf0).other_page (baseline_start ..)).same rfl rfl
    · exact (h.loyal f0 hf0).same rfl rfl
  | poll i now sim drawing access =>
    refine ⟨{ h.orderly with }, fun f hf => ?_⟩
    obtain ⟨f0, hf0, rfl | rfl⟩ := mem_of_modify hf
    · exact (h.loyal f hf0).same rfl rfl
    split
    · exact ((h.loyal f0 hf0).poll now sim drawing access).same rfl rfl
    · exact (h.loyal f0 hf0).same rfl rfl

theorem Kept.follows (h : Kept s) : Follows s := by
  refine ⟨h.orderly.nodup, fun f hf => ⟨(h.loyal f hf).nodup, fun v hv => ?_⟩⟩
  obtain ⟨hwritten, hbefore⟩ := (h.loyal f hf).acted v hv
  exact ⟨h.orderly.written v hwritten, hwritten, hbefore⟩

theorem Kept.answers (h : Kept s) : Answers s := by
  intro f hf hread hsignal hvalue hfirst now sim drawing
  obtain ⟨b, hb⟩ := Option.ne_none_iff_exists'.mp hread
  have hother : s.variable_value ≠ b := by
    rintro rfl
    exact hfirst ((h.loyal f hf).seen _ hb)
  rw [shown_poll hb (by omega) hother, hvalue]

/-- In a run whose signals have a clock of their own, and in which no value is written again behind the
baseline of a page, every page follows each signal once. -/
theorem pages_follow_each_signal_once (value : Int) (ops : List (Op β))
    (hfresh : Guarded step (fun s a => fresh s a = true) { variable_value := value } ops)
    (hharmless : Guarded step (fun s a => harmless s a = true) { variable_value := value } ops) :
    Follows (run step { variable_value := value } ops) ∧ Answers (run step { variable_value := value } ops) := by
  have hkept : Kept (run step { variable_value := value } ops) :=
    guarded_invariant (fun s a h hg => h.step a hg.1 hg.2) ops (kept_start value)
      ((guarded_and ops).mpr ⟨hfresh, hharmless⟩)
  exact ⟨hkept.follows, hkept.answers⟩

/-- A page with one block is up when the bridge has read it, and takes the block down. -/
def one_page : List (Op Unit) :=
  [.restart true, .load .read, .start 0 500 (some { blocks := [()], elapsed := 1, sim := some 0 }) true,
    .signal true 5, .fetch, .send true, .poll 0 1500 (some 1) none .read]

theorem one_page_follows : Follows (run step { variable_value := 0 } one_page) ∧
    Answers (run step { variable_value := 0 } one_page) :=
  pages_follow_each_signal_once 0 one_page (by decide +kernel) (by decide +kernel)

/-- The simulator resets the variable before the page loads, and a new worker writes the old signal
again. -/
def old_signal : List (Op Unit) :=
  [.restart true, .signal true 5, .fetch, .send true, .reset, .load .read,
    .start 0 500 (some { blocks := [()], elapsed := 1, sim := some 0 }) true, .restart true, .fetch,
    .send true, .poll 0 1500 (some 1) none .read]

theorem an_old_signal_takes_the_blocks :
    Guarded step (fun s a => fresh s a = true) ({ variable_value := 0 } : System Unit) old_signal ∧
      ¬ Follows (run step { variable_value := 0 } old_signal) := by
  have hpages : (run step { variable_value := 0 } old_signal).pages.map (fun f => (f.acted, f.before)) =
      [([6], [6])] := by decide +kernel
  refine ⟨by decide +kernel, fun h => ?_⟩
  generalize run step { variable_value := 0 } old_signal = s at *
  obtain ⟨f, hf, heq⟩ := mem_map.mp (hpages ▸ mem_singleton_self ([6], [6]))
  obtain ⟨hacted, hbefore⟩ := Prod.mk.inj heq
  have hnot := ((h.2 f hf).2 6 (by rw [hacted]; exact mem_singleton_self _)).2.2
  exact hnot (by rw [hbefore]; exact mem_singleton_self _)

end taxi_camera.panel_pages
