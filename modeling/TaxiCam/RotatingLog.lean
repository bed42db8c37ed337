-- The size-bounded log and its one older file: src/shared/rotating_log.hpp.
-- Calls that hold the named mutex run one after another; one that finds it held
-- returns at once. So a run is the calls of all processes, in that order.
import TaxiCam.Runs

namespace taxi_camera.standalone.rotating_log

abbrev Bytes := List UInt8

def BridgeLogBytes : Nat := 8 * 1024 * 1024

def MaxLogRecordBytes : Nat := 8192

/-! ## Files -/

/-- The log and its `.1`; a file that is not there has no bytes. -/
structure Disk where
  log : Bytes := []
  previous : Bytes := []
deriving DecidableEq

/-- The files, all states they have been in, and the records whose write succeeded. -/
structure Files where
  disk : Disk
  seen : List Disk
  written : List Bytes := []
deriving DecidableEq

def Files.put (f : Files) (d : Disk) : Files := { f with disk := d, seen := f.seen ++ [d] }

/-- Which calls of the system work for one record. A write that fails has put some bytes into the
file, and so has one that reports fewer bytes than it was given. -/
structure System where
  get_size : Bool := true
  seek_tail : Bool := true
  read : Bool := true
  create_temporary : Bool := true
  write_temporary : Bool := true
  flush_temporary : Bool := true
  move : Bool := true
  seek_front : Bool := true
  truncate : Bool := true
  seek_end : Bool := true
  write_stops : Option Nat := none
  seek_back : Bool := true
  roll_back : Bool := true

/-! ## Rotation -/

/-- Without what stands before the first line and behind the last one. -/
def complete_lines (tail : Bytes) : Bytes :=
  let tail := match tail.idxOf? 10 with
    | some newline => tail.drop (newline + 1)
    | none => []
  (tail.reverse.dropWhile (· ≠ 10)).reverse

/-- What a rotation keeps of a log. -/
def archived (limit : Nat) (log : Bytes) : Bytes :=
  let take := if log.length > limit then limit + 1 else log.length
  let tail := log.drop (log.length - take)
  if log.length > limit then complete_lines tail else tail

def rotate (limit : Nat) (s : System) (f : Files) : Files × Bool :=
  let take := if f.disk.log.length > limit then limit + 1 else f.disk.log.length
  let tail := archived limit f.disk.log
  if !s.seek_tail || (decide (take ≠ 0) && !s.read) then (f, false)
  else if !s.create_temporary then (f, false)
  else if !(decide (tail = []) || s.write_temporary) || !s.flush_temporary then (f, false)
  else if !s.move then (f, false)
  else
    let f := f.put { f.disk with previous := tail }
    if s.seek_front && s.truncate then (f.put { f.disk with log := [] }, true) else (f, false)

/-! ## Appending -/

/-- One turn of the loop over the records. -/
def append_record (limit : Nat) (s : System) (f : Files) (record : Bytes) : Files × Bool :=
  if !s.get_size then (f, false)
  else
    let rotated := if f.disk.log.length > limit - record.length then rotate limit s f else (f, true)
    if !rotated.2 then (rotated.1, false)
    else
      let f := rotated.1
      if !s.seek_end then (f, false)
      else match s.write_stops with
        | none =>
          ({ f.put { f.disk with log := f.disk.log ++ record } with written := f.written ++ [record] }, true)
        | some bytes =>
          let stop := f.disk.log.length
          let f := f.put { f.disk with log := f.disk.log ++ record.take bytes }
          if s.seek_back && s.roll_back then (f.put { f.disk with log := f.disk.log.take stop }, false)
          else (f, false)

/-- The loop: the first failure ends it. -/
def append_each (limit : Nat) (system : Nat → System) : Nat → List Bytes → Files → Files × Bool
  | _, [], f => (f, true)
  | i, record :: rest, f =>
    let appended := append_record limit (system i) f record
    if appended.2 then append_each limit system (i + 1) rest appended.1 else (appended.1, false)

/-- A call: its records, whether it gets the mutex and the file, and the system's calls for each
record. -/
structure Call where
  path_length : Nat := 1
  records : List Bytes
  locks : Bool := true
  opens : Bool := true
  system : Nat → System := fun _ => {}

def append_rotating_log_records (limit : Nat) (f : Files) (call : Call) : Files × Bool :=
  if call.records = [] ∨ call.path_length = 0 ∨ call.path_length > 32700 ∨ limit = 0 ∨ limit > BridgeLogBytes then
    (f, false)
  else if call.records.any fun record =>
      record.isEmpty || decide (record.length > MaxLogRecordBytes) || decide (record.length > limit) then (f, false)
  else if !call.locks then (f, false)
  else if !call.opens then (f, false)
  else append_each limit call.system 0 call.records f

/-- The files after a call. -/
def step (limit : Nat) (f : Files) (call : Call) : Files := (append_rotating_log_records limit f call).1

def start (d : Disk) : Files := { disk := d, seen := [d] }

end taxi_camera.standalone.rotating_log
