-- The submission proof of the display overlay: what one recording of a
-- command list reports about the display textures, from its Reset to its
-- Close. `PfdSubmissionProof` of src/graphics/pfd_submission_proof.hpp.
import TaxiCam.Keyed
import TaxiCam.Runs

namespace taxi_camera.standalone

/-! ## The D3D12 resource states -/

/-- `D3D12_RESOURCE_STATES`: a set of bits in a `UINT`. -/
abbrev ResourceStates := BitVec 32

namespace ResourceStates

def COMMON : ResourceStates := 0x0#32
def RENDER_TARGET : ResourceStates := 0x4#32
def UNORDERED_ACCESS : ResourceStates := 0x8#32
def NON_PIXEL_SHADER_RESOURCE : ResourceStates := 0x40#32
def PIXEL_SHADER_RESOURCE : ResourceStates := 0x80#32
def COPY_DEST : ResourceStates := 0x400#32
def RESOLVE_DEST : ResourceStates := 0x1000#32

end ResourceStates

open ResourceStates

/-- No bit of `state` is outside `mask`. -/
def within (state mask : ResourceStates) : Bool := state &&& ~~~mask == 0#32

/-- The states that an explicit exit from RENDER_TARGET can leave for a tail copy. -/
def copy_restorable (state : ResourceStates) : Bool :=
  within state (PIXEL_SHADER_RESOURCE ||| NON_PIXEL_SHADER_RESOURCE)

def writable_gpu_state (state : ResourceStates) : Bool :=
  state &&& (RENDER_TARGET ||| UNORDERED_ACCESS ||| COPY_DEST ||| RESOLVE_DEST) != 0#32

/-- The states that a queue copy can restore. COMMON is none of them: the first write
promotes it. -/
def insertable_after (state : ResourceStates) : Bool :=
  if state == RENDER_TARGET || state == UNORDERED_ACCESS then true
  else state != COMMON && within state (PIXEL_SHADER_RESOURCE ||| NON_PIXEL_SHADER_RESOURCE)

def UINT_MAX : Nat := 0xffffffff

/-- `D3D12_RESOURCE_BARRIER_ALL_SUBRESOURCES`. -/
def ALL_SUBRESOURCES : Nat := 0xffffffff

/-- `D3D12_RESOURCE_BARRIER_FLAG_NONE`. -/
def BARRIER_FLAG_NONE : Nat := 0

/-- `D3D12_RENDER_PASS_FLAG_ALLOW_UAV_WRITES`. -/
def ALLOW_UAV_WRITES : BitVec 32 := 1#32

def maximum_batch : Nat := 256

def maximum_resources : Nat := 64

/-! ## The ledger of one recording -/

/-- A native resource pointer with the generation of its registration. -/
structure Key where
  resource : Nat := 0
  generation : Nat := 0
deriving DecidableEq

/-- Both numbers name something. -/
def Key.named (key : Key) : Bool := key.resource != 0 && key.generation != 0

inductive Refusal
  | none | unobserved | reset_generation | external | closed_mutation | close_failed
  | close_generation | close_twice | open_pass | pass_scope | invalid_transition | resource_reuse
  | capacity | transition_chain | barrier_uncertainty | enhanced_barrier | unsupported_command
  | boundary_invalidation | contended
deriving DecidableEq

structure Slot where
  key : Key := {}
  first_before : ResourceStates := COMMON
  after : ResourceStates := COMMON
  subresource : Nat := 0
  prefix_blocker : Nat := UINT_MAX
  seen : Bool := false
  exit : Bool := false
  prefix_exit : Bool := false
  leading_exit : Bool := false
  wrote : Bool := false
  entry_clean : Bool := false
deriving DecidableEq

/-- `PfdSubmissionProof`. `slots` is the occupied part of `slots_`, so its length is
`used_`. -/
structure PfdSubmissionProof where
  slots : List Slot := []
  recording : Nat := 0
  known : Bool := false
  closed : Bool := false
  active_pass : Bool := false
  barrier_only : Bool := true
  prefix_interference : Bool := false
  first_gpu_work : Nat := UINT_MAX
  prefix_blocker : Nat := UINT_MAX
  refusal : Refusal := .unobserved
deriving DecidableEq

namespace PfdSubmissionProof

def reset (p : PfdSubmissionProof) (generation : Nat) (observed : Bool) : PfdSubmissionProof :=
  let advances := generation != 0 && decide (generation > p.recording)
  { slots := []
    recording := if generation > p.recording then generation else p.recording
    known := advances && observed
    refusal :=
      if advances && observed then .none else if advances then .unobserved else .reset_generation
    closed := false
    active_pass := false
    barrier_only := true
    prefix_interference := false
    first_gpu_work := UINT_MAX
    prefix_blocker := UINT_MAX }

def invalidate (p : PfdSubmissionProof) (reason : Refusal := .external) : PfdSubmissionProof :=
  { p with refusal := if p.known then reason else p.refusal, known := false }

def close (p : PfdSubmissionProof) (generation : Nat) (succeeded : Bool) : PfdSubmissionProof :=
  if !p.known || p.closed || p.active_pass || generation != p.recording || !succeeded then
    p.invalidate (if p.closed then .close_twice
      else if p.active_pass then .open_pass
      else if generation != p.recording then .close_generation
      else .close_failed)
  else { p with closed := true }

/-- The test of `open()`. A caller whose `open()` fails invalidates with
`closed_mutation`. -/
def is_open (p : PfdSubmissionProof) : Bool := p.known && !p.closed

/-- The blocker that is already there, or `operation`. -/
def blocked_by (blocker operation : Nat) : Nat := if blocker == UINT_MAX then operation else blocker

/-- The slot loop of `gpu_work`: work that may draw promotes COMMON to RENDER_TARGET. -/
def promoted (operation : Nat) (slot : Slot) : Slot :=
  if slot.seen && slot.after == COMMON then
    if slot.prefix_exit then
      { slot with wrote := true, prefix_exit := false,
                  prefix_blocker := blocked_by slot.prefix_blocker operation }
    else { slot with wrote := true }
  else slot

def gpu_work (p : PfdSubmissionProof) (operation : Nat := 0) (may_render_target : Bool := true) :
    PfdSubmissionProof :=
  if !p.is_open then p.invalidate .closed_mutation
  else
    let q := { p with barrier_only := false
                      first_gpu_work := blocked_by p.first_gpu_work operation }
    if may_render_target then
      { q with prefix_interference := true
               prefix_blocker := blocked_by p.prefix_blocker operation
               slots := p.slots.map (promoted operation) }
    else q

def state_disjoint_work (p : PfdSubmissionProof) (operation : Nat) : PfdSubmissionProof :=
  p.gpu_work operation false

def begin_pass (p : PfdSubmissionProof) (flags : BitVec 32) (ordinary_access : Bool := true) :
    PfdSubmissionProof :=
  if !p.is_open then p.invalidate .closed_mutation
  else
    let q := p.gpu_work 68
    if q.active_pass || !ordinary_access || flags &&& ~~~ALLOW_UAV_WRITES != 0#32 then
      q.invalidate .pass_scope
    else { q with active_pass := true }

def end_pass (p : PfdSubmissionProof) : PfdSubmissionProof :=
  if !p.is_open then p.invalidate .closed_mutation
  else if !p.active_pass then p.invalidate .pass_scope
  else { p with active_pass := false }

/-- The first slot with the resource of a key. The scans of the source stop there: the slot
has the key, or the resource has another generation. -/
def holder (p : PfdSubmissionProof) (key : Key) : Option Slot :=
  p.slots.find? (fun slot => slot.key.resource == key.resource)

def update (p : PfdSubmissionProof) (key : Key) (f : Slot → Slot) : PfdSubmissionProof :=
  { p with slots := keyed.modify Slot.key key f p.slots }

/-- What `observe_legacy` writes to the slot of an accepted transition. -/
def transition (slot : Slot) (before after : ResourceStates) (subresource : Nat)
    (prefix_interference : Bool) (prefix_blocker : Nat) : Slot :=
  let leading := !slot.seen && before == RENDER_TARGET && copy_restorable after
  let first := { slot with
    leading_exit := leading || slot.leading_exit
    prefix_exit := if leading then !prefix_interference else slot.prefix_exit
    prefix_blocker :=
      if leading then (if prefix_interference then prefix_blocker else UINT_MAX)
      else slot.prefix_blocker }
  let revoked := first.prefix_exit && writable_gpu_state after
  { first with
    seen := true
    after := after
    subresource := subresource
    exit := before == RENDER_TARGET && copy_restorable after
    wrote := writable_gpu_state after || first.wrote
    prefix_exit := first.prefix_exit && !writable_gpu_state after
    prefix_blocker := if revoked then blocked_by first.prefix_blocker 26 else first.prefix_blocker }

def observe_legacy (p : PfdSubmissionProof) (key : Key) (before after : ResourceStates)
    (subresource : Nat) (flags : Nat := BARRIER_FLAG_NONE) : PfdSubmissionProof :=
  if !p.is_open then p.invalidate .closed_mutation
  else if p.active_pass || !key.named || flags != BARRIER_FLAG_NONE ||
      (subresource != 0 && subresource != ALL_SUBRESOURCES) || before == after then
    p.invalidate .invalid_transition
  else
    let write := fun slot =>
      transition slot before after subresource p.prefix_interference p.prefix_blocker
    match p.holder key with
    | some slot =>
      if slot.key != key then p.invalidate .resource_reuse
      else if slot.seen && slot.after != before then p.invalidate .transition_chain
      else p.update key write
    | none =>
      if p.slots.length < maximum_resources then
        { p with slots := p.slots ++ [write { key := key, first_before := before,
                                              entry_clean := !p.prefix_interference }] }
      else p.invalidate .capacity

/-- A slot whose state a dispatch can write. -/
def unordered (slot : Slot) : Bool :=
  slot.seen && (slot.after == COMMON || slot.after &&& UNORDERED_ACCESS != 0#32)

def computed (operation : Nat) (slot : Slot) : Slot :=
  if unordered slot then
    { slot with wrote := true, prefix_exit := false,
                prefix_blocker := blocked_by slot.prefix_blocker operation }
  else slot

def compute_work (p : PfdSubmissionProof) (operation : Nat := 14) : PfdSubmissionProof :=
  let q := p.state_disjoint_work operation
  if !q.is_open then q.invalidate .closed_mutation
  else
    { q with slots := q.slots.map (computed operation)
             prefix_blocker :=
               if q.slots.any unordered then blocked_by q.prefix_blocker operation
               else q.prefix_blocker }

/-- What `note_carried_write` writes to the slot of the display. -/
def carried (slot : Slot) (state : ResourceStates) (operation : Nat) : Slot :=
  let first := if slot.seen then slot
    else { slot with first_before := state, after := state, seen := true
                     entry_clean := state == RENDER_TARGET }
  { first with
    wrote := true
    prefix_blocker :=
      if first.prefix_exit then blocked_by first.prefix_blocker operation else first.prefix_blocker
    prefix_exit := false }

def note_carried_write (p : PfdSubmissionProof) (key : Key) (state : ResourceStates)
    (operation : Nat) : PfdSubmissionProof :=
  if !p.is_open then p.invalidate .closed_mutation
  else if !key.named then p
  else
    match p.holder key with
    | some slot =>
      if slot.key != key then p.invalidate .resource_reuse
      else if slot.seen && slot.after != state then p
      else p.update key (carried · state operation)
    | none =>
      if p.slots.length == maximum_resources then p.invalidate .capacity
      else { p with slots := p.slots ++ [carried { key := key } state operation] }

def note_render_target_write (p : PfdSubmissionProof) (key : Key) (operation : Nat := 12) :
    PfdSubmissionProof :=
  (p.gpu_work operation).note_carried_write key RENDER_TARGET operation

def note_unordered_access_write (p : PfdSubmissionProof) (key : Key) (operation : Nat := 50) :
    PfdSubmissionProof :=
  (p.compute_work operation).note_carried_write key UNORDERED_ACCESS operation

/-! ## The questions about one closed recording -/

def complete (p : PfdSubmissionProof) (generation : Nat) : Bool :=
  p.known && p.closed && !p.active_pass && generation != 0 && generation == p.recording

/-- A place for the overlay. The place is none when a number of it is zero. -/
structure Candidate where
  key : Key := {}
  recording : Nat := 0
  first_before : ResourceStates := COMMON
  state_after : ResourceStates := COMMON
  subresource : Nat := 0
deriving DecidableEq

/-- `explicit operator bool` of `Candidate`. -/
def Candidate.is_site (c : Candidate) : Bool := c.key.named && c.recording != 0

/-- The scans of the candidates: the first slot of the key that meets `test`. -/
def site_of (p : PfdSubmissionProof) (test : Slot → Bool) (key : Key) (generation : Nat) :
    Candidate :=
  match p.slots.find? (fun slot => slot.key == key && test slot) with
  | some slot => ⟨slot.key, generation, slot.first_before, slot.after, slot.subresource⟩
  | none => {}

def candidate (p : PfdSubmissionProof) (key : Key) (generation : Nat) : Candidate :=
  if p.complete generation && p.barrier_only then
    p.site_of (fun slot => slot.seen && slot.exit) key generation
  else {}

def prefix_candidate (p : PfdSubmissionProof) (key : Key) (generation : Nat) : Candidate :=
  if p.complete generation then
    p.site_of (fun slot => slot.seen && slot.prefix_exit) key generation
  else {}

/-- A barrier-only entry into RENDER_TARGET is a write, but its draw is still ahead. -/
def suffix_site (p : PfdSubmissionProof) (slot : Slot) : Bool :=
  slot.seen && slot.wrote && insertable_after slot.after &&
    (slot.after != RENDER_TARGET || !p.barrier_only)

def suffix_candidate (p : PfdSubmissionProof) (key : Key) (generation : Nat) : Candidate :=
  if p.complete generation then p.site_of p.suffix_site key generation else {}

def activity_candidate (p : PfdSubmissionProof) (key : Key) (generation : Nat) : Candidate :=
  if p.complete generation then
    p.site_of (fun slot => slot.seen && slot.leading_exit) key generation
  else {}

def overwrote (p : PfdSubmissionProof) (key : Key) (generation : Nat) : Bool :=
  p.complete generation && p.slots.any (fun slot => slot.key == key && slot.seen && slot.wrote)

def mentions (p : PfdSubmissionProof) (key : Key) (generation : Nat) : Bool :=
  if !p.complete generation || key.resource == 0 then false
  else p.slots.any (fun slot => slot.seen && slot.key == key)

structure Settlement where
  key : Key := {}
  after : ResourceStates := COMMON
  restorable : Bool := false
  wrote : Bool := false
deriving DecidableEq

def settlements (p : PfdSubmissionProof) (generation capacity : Nat) : List Settlement :=
  if !p.complete generation then []
  else ((p.slots.filter (fun slot => slot.seen && slot.key.resource != 0)).map fun slot =>
    { key := slot.key, after := slot.after, wrote := slot.wrote
      restorable := insertable_after slot.after &&
        (p.suffix_site slot || slot.exit || slot.prefix_exit) }).take capacity

/-! ## One recording, from Reset to Close -/

/-- A report between Reset and Close. -/
inductive Report
  | gpu_work (operation : Nat) (may_render_target : Bool)
  | begin_pass (flags : BitVec 32) (ordinary_access : Bool)
  | end_pass
  | observe_legacy (key : Key) (before after : ResourceStates) (subresource flags : Nat)
  | compute_work (operation : Nat)
  | note_render_target_write (key : Key) (operation : Nat)
  | note_unordered_access_write (key : Key) (operation : Nat)

def report (p : PfdSubmissionProof) : Report → PfdSubmissionProof
  | .gpu_work operation may => p.gpu_work operation may
  | .begin_pass flags ordinary => p.begin_pass flags ordinary
  | .end_pass => p.end_pass
  | .observe_legacy key before after subresource flags =>
    p.observe_legacy key before after subresource flags
  | .compute_work operation => p.compute_work operation
  | .note_render_target_write key operation => p.note_render_target_write key operation
  | .note_unordered_access_write key operation => p.note_unordered_access_write key operation

end PfdSubmissionProof

open PfdSubmissionProof

/-! ## The questions about one batch -/

/-- One list of an Execute: its ledger, and the recording that it was closed with. -/
structure Recording where
  proof : PfdSubmissionProof := {}
  generation : Nat := 0
deriving DecidableEq

/-- The list that a fresh ledger observed from Reset to a Close that may have failed. -/
def recorded (generation : Nat) (reports : List Report) (succeeded : Bool := true) : Recording :=
  let opened := ({} : PfdSubmissionProof).reset generation true
  ⟨(runs.run report opened reports).close generation succeeded, generation⟩

def batch_allows (batch : List Recording) : Bool :=
  if batch.length == 0 || decide (batch.length > maximum_batch) then false
  else batch.all (fun r => r.proof.complete r.generation)

/-- `static_cast<std::size_t>(-1)`. -/
def NO_LIST : Nat := 0xffffffffffffffff

structure Overlay where
  candidate : Candidate := {}
  list : Nat := NO_LIST
  before : Bool := false
deriving DecidableEq

/-- `explicit operator bool` of `Overlay`. -/
def Overlay.is_site (o : Overlay) : Bool := o.candidate.is_site && o.list != NO_LIST

/-- `write` and `safe` of `batch_overlay`. -/
structure Sites where
  write : Overlay := {}
  safe : Overlay := {}

/-- One turn of the first loop of `batch_overlay`. -/
def scan_list (key : Key) (i : Nat) (r : Recording) (s : Sites) : Sites :=
  let suffix := r.proof.suffix_candidate key r.generation
  let tail := r.proof.candidate key r.generation
  let prefixed := r.proof.prefix_candidate key r.generation
  { write := if suffix.is_site then ⟨suffix, i, false⟩ else s.write
    safe :=
      if s.safe.candidate.is_site then s.safe
      else if tail.is_site then ⟨tail, i, false⟩
      else if prefixed.is_site then ⟨prefixed, i, true⟩
      else s.safe }

def scan (key : Key) : Nat → List Recording → Sites → Sites
  | _, [], s => s
  | i, r :: rest, s => scan key (i + 1) rest (scan_list key i r s)

def batch_overlay (batch : List Recording) (key : Key) : Overlay :=
  if !batch_allows batch then {}
  else
    let sites := scan key 0 batch {}
    if sites.write.candidate.is_site then sites.write
    else if sites.safe.candidate.is_site &&
        (batch.drop (sites.safe.list + if sites.safe.before then 0 else 1)).any
          (fun r => r.proof.overwrote key r.generation) then {}
    else sites.safe

structure Entry where
  list : Nat := NO_LIST
  state : ResourceStates := COMMON
  clean : Bool := false
  insertable : Bool := false
deriving DecidableEq

/-- `explicit operator bool` of `Entry`. -/
def Entry.is_site (e : Entry) : Bool := e.list != NO_LIST

/-- The loops of `batch_entry`, from list `i` on. -/
def first_entry (key : Key) : Nat → List Recording → Entry
  | _, [] => {}
  | i, r :: rest =>
    match r.proof.slots.find? (fun slot => slot.key == key && slot.seen && slot.wrote) with
    | some slot =>
      ⟨i, slot.first_before, slot.entry_clean, insertable_after slot.first_before⟩
    | none => first_entry key (i + 1) rest

def batch_entry (batch : List Recording) (key : Key) : Entry :=
  if !batch_allows batch || !key.named then {} else first_entry key 0 batch

structure After where
  state : ResourceStates := COMMON
  known : Bool := false
deriving DecidableEq

/-- The loops of `batch_after`, over the lists from the last one on. -/
def last_after (key : Key) : List Recording → After
  | [] => {}
  | r :: rest =>
    match r.proof.slots.find? (fun slot => slot.key == key && slot.seen) with
    | some slot => ⟨slot.after, true⟩
    | none => last_after key rest

def batch_after (batch : List Recording) (key : Key) : After :=
  if !batch_allows batch || !key.named then {} else last_after key batch.reverse

def carried_overlay (batch : List Recording) (key : Key) (carried : ResourceStates) : Overlay :=
  if !batch_allows batch || !key.named || !insertable_after carried then {}
  else if batch.any (fun r => r.proof.mentions key r.generation) then {}
  else
    match batch.getLast? with
    | some last => ⟨⟨key, last.generation, carried, carried, 0⟩, batch.length - 1, false⟩
    | none => {}

end taxi_camera.standalone
