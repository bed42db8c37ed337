-- The signal that takes panel marks down or shows them again: the bridge raises
-- it, the telemetry worker writes it to L:TAXICAM_MARKS, and every page polls
-- that variable. src/camera/body_pose_provider.cpp, src/panel_marks/taxi-cam-marks.js.
import TaxiCam.Runs

namespace taxi_camera.panel_pages

/-! ## The page -/

def MAX_SHOW_MS : Int := 45000
def HARD_SHOW_MS : Int := 120000

/-- What a read of the variable comes to. -/
inductive Reading where
  | value (v : Int)
  | null
  | thrown
deriving DecidableEq

/-- What `show` would draw on the page now: one block for each gauge that has room for it. It takes
`elapsed` milliseconds, and the simulation clock then stands at `sim`. -/
structure Drawing (β : Type) where
  blocks : List β
  elapsed : Nat
  sim : Option Rat
deriving DecidableEq

/-- `phase` is what the page's timer calls next, if it is set. -/
inductive Phase where
  | stopped
  | start
  | poll
deriving DecidableEq

structure Page (β : Type) where
  shown : List β := []
  showing : Bool := false
  shownAt : Int := 0
  runMs : Int := 0
  lastPoll : Int := 0
  lastSim : Option Rat := none
  baseline : Option Int := none
  phase : Phase := .stopped
deriving DecidableEq

section
variable {β : Type}

def Page.hide (p : Page β) : Page β := { p with showing := false, shown := [] }

/-- None where an error stops the drawing. -/
def Page.show (now : Int) (drawing : Option (Drawing β)) (p : Page β) : Option (Page β) := do
  let p := p.hide
  let drawing ← drawing
  let p := { p with shown := drawing.blocks }
  if p.shown.isEmpty then some p
  else
    some { p with
      showing := true
      shownAt := now + drawing.elapsed
      lastPoll := now + drawing.elapsed
      runMs := 0
      lastSim := drawing.sim }

/-- Blocks that are up come down in the end. -/
def Page.expire (now : Int) (sim : Option Rat) (p : Page β) : Page β :=
  if p.showing then
    let moves := sim = none ∨ p.lastSim = none ∨ sim ≠ p.lastSim
    let runMs := if moves then p.runMs + (now - p.lastPoll) else p.runMs
    let p := { p with runMs, lastSim := sim, lastPoll := now }
    if p.runMs > MAX_SHOW_MS ∨ now - p.shownAt > HARD_SHOW_MS then p.hide else p
  else p

def Page.poll (now : Int) (sim : Option Rat) (drawing : Option (Drawing β)) (reading : Reading)
    (p : Page β) : Page β :=
  match reading with
  | .thrown => p.hide
  | .null => p.expire now sim
  | .value v =>
    match p.baseline with
    | none => { p with baseline := some v }.expire now sim
    | some baseline =>
      if v ≠ 0 ∧ v ≠ baseline then
        let p := { p with baseline := some v }
        if v > 0 then p.hide.expire now sim
        else
          match p.show now drawing with
          | some p => p.expire now sim
          | none => p.hide
      else p.expire now sim

/-- The page waits for its panel. -/
def Page.start (now : Int) (drawing : Option (Drawing β)) (panel : Bool) (p : Page β) : Page β :=
  if !panel then p
  else
    match p.show now drawing with
    | some p => { p with phase := .poll }
    | none => { p.hide with phase := .stopped }

/-- The script runs when the page loads. -/
def Page.load (reading : Reading) : Page β :=
  match reading with
  | .thrown => { phase := .stopped }
  | .null => { phase := .start }
  | .value v => { baseline := some v, phase := .start }

end

/-! ## The bridge, the worker and the pages -/

/-- A page, and what it has met: the values that were written before it read its baseline, those that
it has read, and those for which it hid or showed its blocks, the latest first. -/
structure Follower (β : Type) where
  page : Page β
  before : List Int := []
  seen : List Int := []
  acted : List Int := []
deriving DecidableEq

/-- `marks` is what the worker has read and not sent yet; the last three fields keep the clock, the
signals and the writes of the run, the latest first. -/
structure System (β : Type) where
  panel_marks_signal : Int := 0
  panel_marks_defined : Bool := false
  panel_marks_sent : Int := 0
  marks : Option Int := none
  variable_value : Int
  pages : List (Follower β) := []
  ticks : List Nat := []
  raised : List Int := []
  written : List Int := []

/-- How a page's read of the variable goes. -/
inductive Access where
  | read
  | null
  | thrown
deriving DecidableEq

def Access.reading (a : Access) (v : Int) : Reading :=
  match a with
  | .read => .value v
  | .null => .null
  | .thrown => .thrown

inductive Op (β : Type) where
  | signal (read : Bool) (tick : Nat)
  | restart (defined : Bool)
  | fetch
  | send (accepted : Bool)
  | reset
  | load (access : Access)
  | start (page : Nat) (now : Int) (drawing : Option (Drawing β)) (panel : Bool)
  | poll (page : Nat) (now : Int) (sim : Option Rat) (drawing : Option (Drawing β)) (access : Access)

section
variable {β : Type}

def clock (tick : Nat) : Nat := tick % 1000000000

def System.signal_panel_marks (read : Bool) (tick : Nat) (s : System β) : System β :=
  let value : Int := clock tick + 1
  let value := if value = s.panel_marks_signal.natAbs then value + 1 else value
  let signal := if read then value else -value
  { s with panel_marks_signal := signal, ticks := clock tick :: s.ticks, raised := signal :: s.raised }

/-- A new worker defines the variable, or fails to; nothing counts as sent yet. -/
def System.restart (defined : Bool) (s : System β) : System β :=
  { s with panel_marks_defined := defined, panel_marks_sent := 0, marks := none }

def System.fetch (s : System β) : System β :=
  if s.panel_marks_defined ∧ s.panel_marks_signal ≠ s.panel_marks_sent then
    { s with marks := some s.panel_marks_signal }
  else s

def System.send (accepted : Bool) (s : System β) : System β :=
  match s.marks with
  | none => s
  | some marks =>
    if accepted then
      { s with panel_marks_sent := marks, marks := none, variable_value := marks
               written := marks :: s.written }
    else { s with marks := none }

/-- A page reads its baseline when it loads, or at the first poll that can read. -/
def Follower.poll (now : Int) (sim : Option Rat) (drawing : Option (Drawing β)) (access : Access)
    (value : Int) (written : List Int) (f : Follower β) : Follower β :=
  let page := f.page.poll now sim drawing (access.reading value)
  match access, f.page.baseline with
  | .read, none => { f with page, before := written, seen := value :: f.seen }
  | .read, some baseline =>
    { f with page, seen := value :: f.seen
             acted := if value ≠ 0 ∧ value ≠ baseline then value :: f.acted else f.acted }
  | _, _ => { f with page }

def System.load (access : Access) (s : System β) : System β :=
  let page := Page.load (access.reading s.variable_value)
  let f : Follower β :=
    if access = .read then { page, before := s.written, seen := [s.variable_value] } else { page }
  { s with pages := s.pages ++ [f] }

def step (s : System β) : Op β → System β
  | .signal read tick => s.signal_panel_marks read tick
  | .restart defined => s.restart defined
  | .fetch => s.fetch
  | .send accepted => s.send accepted
  | .reset => { s with variable_value := 0 }
  | .load access => s.load access
  | .start i now drawing panel =>
    { s with
      pages := s.pages.modify i fun f =>
        if f.page.phase = .start then { f with page := f.page.start now drawing panel } else f }
  | .poll i now sim drawing access =>
    { s with
      pages := s.pages.modify i fun f =>
        if f.page.phase = .poll then f.poll now sim drawing access s.variable_value s.written else f }

end

end taxi_camera.panel_pages
