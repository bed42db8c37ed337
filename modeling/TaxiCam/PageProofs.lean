-- The page proofs of one inspection: what the system says of allocations, pages
-- and regions, what a scope records of it, and the check at its end.
-- src/camera/local_memory.hpp and local_memory.cpp, a scope of private pages
-- without an active carry. Addresses are numbers; the system may give another
-- answer to every call.
import Mathlib.Data.List.Sort
import Mathlib.Data.List.Basic

namespace taxi_camera.native_camera.local_memory

/-! ## The system -/

def UINTPTR_MAX : Nat := 0xffffffffffffffff

def MEM_COMMIT : Nat := 0x1000
def MEM_PRIVATE : Nat := 0x20000
def MEM_IMAGE : Nat := 0x1000000

def PAGE_NOACCESS : Nat := 0x1
def PAGE_READONLY : Nat := 0x2
def PAGE_READWRITE : Nat := 0x4
def PAGE_WRITECOPY : Nat := 0x8
def PAGE_EXECUTE_READ : Nat := 0x20
def PAGE_EXECUTE_READWRITE : Nat := 0x40
def PAGE_EXECUTE_WRITECOPY : Nat := 0x80
def PAGE_GUARD : Nat := 0x100

/-- `WIN32_MEMORY_REGION_INFORMATION`: a whole allocation. -/
structure Allocation where
  base : Nat
  size : Nat
  protection : Nat
  is_private : Bool := false
  mapped_data_file : Bool := false
  mapped_image : Bool := false
  mapped_page_file : Bool := false
  mapped_physical : Bool := false
  direct_mapped : Bool := false

/-- `PSAPI_WORKING_SET_EX_BLOCK`: a page, as far as it is in the working set. -/
structure Attributes where
  valid : Bool
  bad : Bool
  protection : Nat

/-- `MEMORY_BASIC_INFORMATION`: the pages of one state from `base` on. -/
structure Region where
  base : Nat
  allocation_base : Nat
  allocation_protect : Nat
  size : Nat
  state : Nat
  protect : Nat
  type : Nat
deriving DecidableEq

/-- What the system answers to each call, by the number of the call: an allocation and a region by an
address in them, the pages of one call by their addresses, and whether a copy is exact. -/
structure System where
  page_size : Nat
  paged : 0 < page_size
  main_module : Nat
  allocation : Nat → Nat → Option Allocation
  pages : Nat → Option (Nat → Attributes)
  region : Nat → Nat → Option Region
  copy : Nat → Nat → Nat → Bool

def contains (base extent address size : Nat) : Bool :=
  extent != 0 && decide (extent ≤ UINTPTR_MAX - base) && decide (base ≤ address) &&
    decide (address - base < extent) && decide (size ≤ extent - (address - base))

def ordinary_private (r : Allocation) : Bool :=
  r.is_private && !r.mapped_data_file && !r.mapped_image && !r.mapped_page_file && !r.mapped_physical &&
    !r.direct_mapped

def allocation_type (r : Allocation) (type : Nat) : Bool :=
  if type = MEM_PRIVATE then ordinary_private r
  else type == MEM_IMAGE && r.mapped_image && !r.is_private && !r.mapped_data_file && !r.mapped_page_file &&
    !r.mapped_physical && !r.direct_mapped

def readable (protection : Nat) : Bool :=
  let basic := protection &&& 0xff
  protection &&& (PAGE_GUARD ||| PAGE_NOACCESS) == 0 &&
    (basic == PAGE_READONLY || basic == PAGE_READWRITE || basic == PAGE_WRITECOPY || basic == PAGE_EXECUTE_READ ||
      basic == PAGE_EXECUTE_READWRITE || basic == PAGE_EXECUTE_WRITECOPY)

def region_contains (r : Region) (address size : Nat) : Bool := contains r.base r.size address size

/-! ## The scope -/

structure AllocationProof where
  base : Nat
  size : Nat
  protection : Nat
  type : Nat

/-- `allocation` is the place of its allocation among the proofs. -/
structure PageProof where
  base : Nat
  protection : Nat
  allocation : Nat

/-- `LocalMemoryQueryFailure`: where the first failure was, and the field that differed. -/
structure LocalMemoryQueryFailure where
  stage : String := "none"
  field : String := "none"

def kRegionLimit : Nat := 64
def kPageLimit : Nat := 128
def kAllocationLimit : Nat := 64
def kCandidateLimit : Nat := 64

/-- `PageHints`: addresses of pages that earlier scopes proved. -/
structure PageHints where
  pages : List Nat := List.replicate 128 0
  next : Nat := 0

def PageHints.kCapacity : Nat := 128

def PageHints.remember (s : PageHints) (base : Nat) : PageHints :=
  if s.pages.contains base then s
  else { pages := s.pages.set s.next base, next := (s.next + 1) % kCapacity }

/-- `ScopedLocalMemoryQueryCache`; `calls` counts the calls of the system. -/
structure ScopedLocalMemoryQueryCache where
  allocations : List AllocationProof := []
  pages : List PageProof := []
  candidates : List PageProof := []
  regions : List Region := []
  failure : LocalMemoryQueryFailure := {}
  failed : Bool := false
  calls : Nat := 0

/-- What a validation comes to. A cold page is to be read first. -/
inductive Verdict
  | proven
  | refused
  | cold
deriving DecidableEq

namespace ScopedLocalMemoryQueryCache

variable (system : System) (s : ScopedLocalMemoryQueryCache)

def called : ScopedLocalMemoryQueryCache := { s with calls := s.calls + 1 }

def refuse (stage field : String) : ScopedLocalMemoryQueryCache :=
  { s with failure := if s.failed then s.failure else { stage, field }, failed := true }

/-- A failed copy. -/
def fail : ScopedLocalMemoryQueryCache := s.refuse "read" "exact_read"

def record_region (r : Region) : ScopedLocalMemoryQueryCache := { s with regions := s.regions ++ [r] }

/-- The answer to the last of the calls, where it contains the address. -/
def settle_query (address : Nat) (answer : Option Region) :
    ScopedLocalMemoryQueryCache × Option Region :=
  match answer with
  | none => (s.refuse "query" "query_size", none)
  | some r =>
    if region_contains r address 1 then (s.record_region r, some r)
    else (s.refuse "query" "contains_address", none)

/-- A saved region, or a fresh one: first from the window of the address on, then from the address. -/
def query (address : Nat) : ScopedLocalMemoryQueryCache × Option Region :=
  if s.failed then (s, none)
  else
    match s.regions.find? (region_contains · address 1) with
    | some r => (s, some r)
    | none =>
      if s.regions.length = kRegionLimit then (s.refuse "capacity" "region_count", none)
      else
        let window := address - address % 65536
        let first := system.region s.calls window
        if (first.any (region_contains · address 1)) || window == address then
          s.called.settle_query address first
        else s.called.called.settle_query address (system.region s.called.calls address)

/-! ## The routes of a page -/

/-- The hinted pages that are asked for along with a page of the allocation. -/
def hinted (hints : PageHints) (base : Nat) (owner : AllocationProof) : List Nat :=
  hints.pages.foldl (fun batch hint =>
    if kCandidateLimit ≤ batch.length ∨ kCandidateLimit < s.candidates.length + (batch.length + 1) then batch
    else if hint == 0 || hint == base || !contains owner.base owner.size hint system.page_size then batch
    else if s.pages.any (·.base == hint) || s.candidates.any (·.base == hint) then batch
    else batch ++ [hint]) []

/-- The valid, readable pages of a batch become candidates, up to the limit. -/
def add_candidates (answers : Nat → Attributes) (allocation : Nat) (batch : List Nat) :
    List PageProof :=
  batch.foldl (fun candidates hint =>
    if candidates.length < kCandidateLimit && (answers hint).valid && !(answers hint).bad &&
        readable (answers hint).protection then
      candidates ++ [{ base := hint, protection := (answers hint).protection, allocation }]
    else candidates) s.candidates

/-- The answer is what the system says of the page itself. -/
def query_page_batch (hints : PageHints) (base allocation : Nat) (owner : AllocationProof) :
    ScopedLocalMemoryQueryCache × Option Attributes :=
  match system.pages s.calls with
  | none => (s.called, none)
  | some answers =>
    ({ s.called with
        candidates := s.add_candidates answers allocation (s.hinted system hints base owner) },
      some (answers base))

def record_page (p : PageProof) : ScopedLocalMemoryQueryCache := { s with pages := s.pages ++ [p] }

/-- Proven by a batch before: it becomes a requested page, and the last candidate takes its place. -/
def take_candidate (place : Nat) (c : PageProof) (allocation : Nat) : ScopedLocalMemoryQueryCache :=
  { s with
    pages := s.pages ++ [{ base := c.base, protection := c.protection, allocation }]
    candidates := (s.candidates.set place (s.candidates.getLastD c)).dropLast }

/-- The region route: the whole region is recorded. -/
def region_route (current chunk type allocation : Nat) : ScopedLocalMemoryQueryCache × Verdict :=
  let queried := s.query system current
  match queried.2 with
  | none => (queried.1.refuse "page" "allocation_readable", .refused)
  | some r =>
    if r.state ≠ MEM_COMMIT ∨ r.type ≠ type ∨ (allocation ≠ 0 ∧ r.allocation_base ≠ allocation) ∨
        readable r.protect = false ∨ region_contains r current chunk = false then
      (queried.1.refuse "page" "allocation_readable", .refused)
    else (queried.1, .proven)

/-- The allocation of a page: a proven one, or a fresh one where there is room. -/
def find_allocation (base type allocation : Nat) : ScopedLocalMemoryQueryCache × Option Nat :=
  match s.allocations.findIdx? (fun a => contains a.base a.size base system.page_size) with
  | some a => (s, some a)
  | none =>
    if kAllocationLimit ≤ s.allocations.length then (s, none)
    else
      match system.allocation s.calls base with
      | none => (s.called, none)
      | some r =>
        if allocation_type r type && (allocation == 0 || r.base == allocation) &&
            contains r.base r.size base system.page_size then
          ({ s.called with
              allocations := s.allocations ++
                [{ base := r.base, size := r.size, protection := r.protection, type }] },
            some s.allocations.length)
        else (s.called, none)

/-- A page of an allocation: a candidate, or a fresh one with a batch. -/
def page_route (hints : PageHints) (cold : Bool) (base current chunk type allocation a : Nat)
    (owner : AllocationProof) : ScopedLocalMemoryQueryCache × Verdict :=
  match s.candidates.findIdx? (·.base == base), s.candidates.find? (·.base == base) with
  | some place, some c => (s.take_candidate place c a, .proven)
  | _, _ =>
    let queried := s.query_page_batch system hints base a owner
    match queried.2 with
    | none => queried.1.region_route system current chunk type allocation
    | some page =>
      if page.valid then
        if page.bad || !readable page.protection then (queried.1.refuse "page" "protect", .refused)
        else (queried.1.record_page { base, protection := page.protection, allocation := a }, .proven)
      else if cold then (queried.1, .cold)
      else queried.1.region_route system current chunk type allocation

/-- The owner is of another kind, or it is another module. -/
def mismatched (owner : AllocationProof) (type allocation : Nat) : Bool :=
  owner.type != type || (allocation != 0 && owner.base != allocation)

/-- A page that is not proven yet. -/
def prove_page (hints : PageHints) (cold : Bool) (base current chunk type allocation : Nat) :
    ScopedLocalMemoryQueryCache × Verdict :=
  if s.regions.any (region_contains · current chunk) || kPageLimit ≤ s.pages.length then
    s.region_route system current chunk type allocation
  else
    let found := s.find_allocation system base type allocation
    match found.2.bind fun a => found.1.allocations[a]?.map fun owner => (a, owner) with
    | none => found.1.region_route system current chunk type allocation
    | some (a, owner) =>
      if mismatched owner type allocation then (found.1.refuse "page" "allocation_type", .refused)
      else found.1.page_route system hints cold base current chunk type allocation a owner

/-- One page, or the part of one. -/
def validate_page (hints : PageHints) (cold : Bool) (current chunk type allocation : Nat) :
    ScopedLocalMemoryQueryCache × Verdict :=
  let base := current - current % system.page_size
  match s.pages.find? (·.base == base) with
  | none => s.prove_page system hints cold base current chunk type allocation
  | some p =>
    match s.allocations[p.allocation]? with
    | none => (s.refuse "page" "allocation_type", .refused)
    | some owner =>
      if mismatched owner type allocation then (s.refuse "page" "allocation_type", .refused)
      else (s, .proven)

/-- The pages of a range from `offset` on; a turn takes at least one byte of it. -/
def validate_from (hints : PageHints) (cold : Bool) (address size type allocation : Nat) :
    Nat → Nat → ScopedLocalMemoryQueryCache → ScopedLocalMemoryQueryCache × Verdict
  | 0, _, s => (s, .proven)
  | turns + 1, offset, s =>
    if size ≤ offset then (s, .proven)
    else
      let current := address + offset
      let chunk := min (size - offset) (system.page_size - current % system.page_size)
      let validated := s.validate_page system hints cold current chunk type allocation
      match validated.2 with
      | .proven => validate_from hints cold address size type allocation turns (offset + chunk) validated.1
      | .refused | .cold => validated

def validate_page_range (hints : PageHints) (cold : Bool) (address size type allocation : Nat) :
    ScopedLocalMemoryQueryCache × Verdict :=
  if s.failed ∨ size = 0 ∨ UINTPTR_MAX - address < size then (s, .refused)
  else validate_from system hints cold address size type allocation size 0 s

def validate_private_range (hints : PageHints) (cold : Bool) (address size : Nat) :
    ScopedLocalMemoryQueryCache × Verdict :=
  s.validate_page_range system hints cold address size MEM_PRIVATE 0

def validate_image_range (hints : PageHints) (address size module : Nat) :
    ScopedLocalMemoryQueryCache × Verdict :=
  if module = 0 ∨ module ≠ system.main_module then (s, .refused)
  else s.validate_page_range system hints false address size MEM_IMAGE module

/-! ## The end of the scope -/

/-- The first field of an allocation that differs from its proof. -/
def allocation_differs (initial : AllocationProof) (current : Allocation) : Option String :=
  if !allocation_type current initial.type then some "type"
  else if current.base ≠ initial.base then some "allocation_base"
  else if current.size ≠ initial.size then some "region_size"
  else if current.protection ≠ initial.protection then some "allocation_protect"
  else none

def finish_allocations : List AllocationProof → ScopedLocalMemoryQueryCache → ScopedLocalMemoryQueryCache
  | [], s => s
  | initial :: rest, s =>
    match system.allocation s.calls initial.base with
    | none => s.called.refuse "allocation_endpoint" "query_size"
    | some current =>
      match allocation_differs initial current with
      | some field => s.called.refuse "allocation_endpoint" field
      | none => finish_allocations rest s.called

/-- A page that left the working set: its protection comes from its region. -/
def endpoint_region (owner : AllocationProof) (p : PageProof) :
    ScopedLocalMemoryQueryCache × Option Nat :=
  match system.region s.calls p.base with
  | none => (s.called.refuse "page_endpoint" "allocation_committed", none)
  | some r =>
    if region_contains r p.base system.page_size = false ∨ r.state ≠ MEM_COMMIT ∨ r.type ≠ owner.type then
      (s.called.refuse "page_endpoint" "allocation_committed", none)
    else if r.allocation_base ≠ owner.base ∨ r.allocation_protect ≠ owner.protection then
      (s.called.refuse "page_endpoint" "allocation_base", none)
    else (s.called, some r.protect)

/-- The protection of a page at the end. -/
def endpoint_protection (answers : Option (Nat → Attributes)) (owner : AllocationProof) (p : PageProof) :
    ScopedLocalMemoryQueryCache × Option Nat :=
  match answers.map (· p.base) with
  | none => s.endpoint_region system owner p
  | some page =>
    if page.valid then
      if page.bad then (s.refuse "page_endpoint" "page_bad", none) else (s, some page.protection)
    else s.endpoint_region system owner p

def finish_page_list (answers : Option (Nat → Attributes)) :
    List PageProof → ScopedLocalMemoryQueryCache → ScopedLocalMemoryQueryCache
  | [], s => s
  | p :: rest, s =>
    match s.allocations[p.allocation]? with
    | none => s.refuse "page_endpoint" "allocation_base"
    | some owner =>
      let ended := s.endpoint_protection system answers owner p
      match ended.2 with
      | none => ended.1
      | some protection =>
        if protection ≠ p.protection ∨ readable protection = false then ended.1.refuse "page_endpoint" "protect"
        else finish_page_list answers rest ended.1

def finish_pages : ScopedLocalMemoryQueryCache :=
  let checked := finish_allocations system s.allocations s
  if checked.failed || s.pages.isEmpty then checked
  else finish_page_list system (system.pages checked.calls) s.pages checked.called

/-- The part of a region from `base` on. -/
def suffix (r : Region) (base : Nat) : Region := { r with base, size := r.size - (base - r.base) }

/-- The first field of a region that differs. -/
def region_differs (initial current : Region) : Option String :=
  if initial.base ≠ current.base then some "base_address"
  else if initial.allocation_base ≠ current.allocation_base then some "allocation_base"
  else if initial.allocation_protect ≠ current.allocation_protect then some "allocation_protect"
  else if initial.size ≠ current.size then some "region_size"
  else if initial.state ≠ current.state then some "state"
  else if initial.protect ≠ current.protect then some "protect"
  else if initial.type ≠ current.type then some "type"
  else none

/-- The regions in the order of their bases. A region within the last fresh one is compared with its
suffix, any other one with a fresh query. -/
def finish_regions : Option Region → List Region → ScopedLocalMemoryQueryCache → ScopedLocalMemoryQueryCache
  | _, [], s => s
  | fresh, initial :: rest, s =>
    if s.failed then s
    else
      match fresh.filter (region_contains · initial.base 1) with
      | some wide =>
        match region_differs initial (suffix wide initial.base) with
        | some field => s.refuse "endpoint" field
        | none => finish_regions fresh rest s
      | none =>
        match system.region s.calls initial.base with
        | none => s.called.refuse "endpoint" "query_size"
        | some current =>
          match region_differs initial current with
          | some field => s.called.refuse "endpoint" field
          | none => finish_regions (some current) rest s.called

/-- Regions of one base keep their order. -/
def in_order : List Region := s.regions.insertionSort fun l r => l.base ≤ r.base

/-- The answer is whether the results of the scope may be used. -/
def finish (hints : PageHints) : ScopedLocalMemoryQueryCache × PageHints × Bool :=
  let paged := if s.failed then s else s.finish_pages system
  let ended := finish_regions system none s.in_order paged
  (ended, s.pages.foldl (fun h p => h.remember p.base) hints, !ended.failed)

end ScopedLocalMemoryQueryCache

end taxi_camera.native_camera.local_memory
