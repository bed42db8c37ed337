-- The readers of one inspection: private fields and pages of the main image, read
-- in any order inside one scope, and what the end of the scope says of them.
-- src/camera/local_memory.cpp. The bytes themselves are left out.
import TaxiCam.PageRecords
import TaxiCam.Runs
import Mathlib.Logic.Function.Basic

namespace taxi_camera.native_camera.local_memory

open runs List

def kLocalObjectReadLimit : Nat := 131072
def kLocalObjectFieldLimit : Nat := 32768
def kMaximumImageSize : Nat := 0x80000000

/-! ## The readers -/

namespace ScopedLocalMemoryQueryCache

variable (system : System) (s : ScopedLocalMemoryQueryCache)

/-- A copy that is not exact fails the scope. -/
def read_memory (address size : Nat) : ScopedLocalMemoryQueryCache × Bool :=
  if system.copy s.calls address size then (s.called, true) else (s.called.fail, false)

/-- A cold range is read first, and then proven before its bytes are used. -/
def private_bytes (hints : PageHints) (address size : Nat) : ScopedLocalMemoryQueryCache × Bool :=
  let first := s.validate_private_range system hints true address size
  match first.2 with
  | .proven => first.1.read_memory system address size
  | .refused => (first.1, false)
  | .cold =>
    let copied := first.1.read_memory system address size
    if copied.2 then
      let again := copied.1.validate_private_range system hints false address size
      (again.1, again.2 == .proven)
    else (copied.1, false)

end ScopedLocalMemoryQueryCache

structure LocalMemoryReader where
  limit : Nat := 0
  attempted : Nat := 0
  failures : Nat := 0

def LocalMemoryReader.reset_budget (limit : Nat) : LocalMemoryReader :=
  { limit := min limit kLocalObjectReadLimit }

/-- The request is valid and within the budget. -/
def LocalMemoryReader.admits (reader : LocalMemoryReader) (destination : Bool) (address size : Nat) : Bool :=
  destination && address != 0 && size != 0 && decide (size ≤ kLocalObjectFieldLimit) &&
    decide (address ≤ UINTPTR_MAX - size) && decide (size ≤ reader.limit - reader.attempted)

/-- `LocalMemoryReader::read` of an admitted request. -/
def LocalMemoryReader.read (reader : LocalMemoryReader) (system : System) (hints : PageHints)
    (s : ScopedLocalMemoryQueryCache) (address size : Nat) :
    LocalMemoryReader × ScopedLocalMemoryQueryCache × Bool :=
  let copied := s.private_bytes system hints address size
  ({ reader with
      attempted := reader.attempted + size
      failures := if copied.2 then reader.failures else reader.failures + 1 }, copied)

/-- In the mode of pages. -/
structure LocalImageReader where
  base : Nat
  limit : Nat

def local_image_reader (system : System) (main_module image_size : Nat) : LocalImageReader :=
  if main_module = 0 ∨ main_module ≠ system.main_module ∨ image_size = 0 ∨ kMaximumImageSize < image_size ∨
      UINTPTR_MAX - main_module < image_size then { base := 0, limit := 0 }
  else { base := main_module, limit := image_size }

structure ReadWindow where
  size : Nat := 0
  readable : Bool := false

namespace LocalImageReader

variable (reader : LocalImageReader) (system : System) (hints : PageHints)

/-- A window ends with its page. -/
def query (s : ScopedLocalMemoryQueryCache) (rva maximum : Nat) :
    ScopedLocalMemoryQueryCache × ReadWindow :=
  if reader.limit ≤ rva ∨ maximum = 0 then (s, {})
  else
    let address := reader.base + rva
    let size := min (min maximum (reader.limit - rva)) (system.page_size - address % system.page_size)
    let validated := s.validate_image_range system hints address size reader.base
    (validated.1, { size, readable := validated.2 == .proven })

/-- The windows of a request from `offset` on. -/
def read_from (rva size : Nat) :
    Nat → Nat → ScopedLocalMemoryQueryCache → ScopedLocalMemoryQueryCache × Bool
  | 0, _, s => (s, true)
  | turns + 1, offset, s =>
    if size ≤ offset then (s, true)
    else
      let queried := reader.query system hints s (rva + offset) (size - offset)
      if !queried.2.readable || queried.2.size == 0 || decide (size - offset < queried.2.size) then
        (queried.1, false)
      else
        let copied := queried.1.read_memory system (reader.base + rva + offset) queried.2.size
        if copied.2 then read_from rva size turns (offset + queried.2.size) copied.1 else (copied.1, false)

def admits (destination : Bool) (rva size : Nat) : Bool :=
  destination && size != 0 && decide (rva < reader.limit) && decide (size ≤ reader.limit - rva)

/-- `LocalImageReader::read` of an admitted request. -/
def read (s : ScopedLocalMemoryQueryCache) (rva size : Nat) : ScopedLocalMemoryQueryCache × Bool :=
  reader.read_from system hints rva size size 0 s

end LocalImageReader

/-! ## The runs -/

/-- A read, with what it expects of its pages; module 0 is any private allocation. -/
structure Attempt where
  type : Nat
  module : Nat
  address : Nat
  size : Nat
  admitted : Bool
  success : Bool

structure World where
  scope : ScopedLocalMemoryQueryCache := {}
  readers : Nat → LocalMemoryReader := fun _ => {}
  attempts : List Attempt := []

inductive Op
  | reset_budget (reader limit : Nat)
  | read (reader : Nat) (destination : Bool) (address size : Nat)
  | image (main_module image_size : Nat) (destination : Bool) (rva size : Nat)

namespace World

variable (system : System) (hints : PageHints) (w : World)

def attempt (a : Attempt) : World := { w with attempts := w.attempts ++ [a] }

/-- A request that is not admitted asks for nothing. -/
def read (r : Nat) (destination : Bool) (address size : Nat) : World :=
  if (w.readers r).admits destination address size then
    let done := (w.readers r).read system hints w.scope address size
    { w with scope := done.2.1, readers := Function.update w.readers r done.1 }.attempt
      { type := MEM_PRIVATE, module := 0, address, size, admitted := true, success := done.2.2 }
  else w.attempt { type := MEM_PRIVATE, module := 0, address, size, admitted := false, success := false }

def image (main_module image_size : Nat) (destination : Bool) (rva size : Nat) : World :=
  let reader := local_image_reader system main_module image_size
  if reader.admits destination rva size then
    let done := reader.read system hints w.scope rva size
    { w with scope := done.1 }.attempt
      { type := MEM_IMAGE, module := reader.base, address := reader.base + rva, size, admitted := true
        success := done.2 }
  else
    w.attempt
      { type := MEM_IMAGE, module := reader.base, address := reader.base + rva, size, admitted := false
        success := false }

def step (w : World) : Op → World
  | .reset_budget r limit =>
    { w with readers := Function.update w.readers r (LocalMemoryReader.reset_budget limit) }
  | .read r destination address size => w.read system hints r destination address size
  | .image main_module image_size destination rva size =>
    w.image system hints main_module image_size destination rva size

/-- Whether the scope may be used, if it ends here. -/
def finishes : Bool := (w.scope.finish system hints).2.2

/-- The scope at its end. -/
def ended : ScopedLocalMemoryQueryCache := (w.scope.finish system hints).1

end World

/-! ## What a finished scope says -/

open ScopedLocalMemoryQueryCache

/-- A recorded page of address `x`: it was seen readable and in an allocation of its kind before the end
of the scope `s`, and the end saw both again. -/
structure PageKept (system : System) (s t : ScopedLocalMemoryQueryCache) (type module x : Nat)
    (p : PageProof) (owner : AllocationProof) : Prop where
  recorded : p ∈ s.pages
  base : p.base = x - x % system.page_size
  owned : s.allocations[p.allocation]? = some owner
  inside : contains owner.base owner.size p.base system.page_size = true
  type : owner.type = type
  module : module ≠ 0 → owner.base = module
  seen : PageSeen system s.calls p
  allocated : AllocationSeen system s.calls owner
  seen_again : PageAgain system s.calls t.calls owner p
  allocated_again : AllocationAgain system s.calls t.calls owner

/-- A recorded region around address `x`, where its page has no proof of its own. -/
structure RegionKept (system : System) (s t : ScopedLocalMemoryQueryCache) (type module x : Nat)
    (r : Region) : Prop where
  recorded : r ∈ s.regions
  inside : region_contains r x 1 = true
  committed : r.state = MEM_COMMIT
  type : r.type = type
  module : module ≠ 0 → r.allocation_base = module
  readable : readable r.protect = true
  seen : RegionSeen system s.calls r
  seen_again : RegionAgain system s.calls t.calls r

def Kept (system : System) (s t : ScopedLocalMemoryQueryCache) (type module x : Nat) : Prop :=
  (∃ p owner, PageKept system s t type module x p owner) ∨ ∃ r, RegionKept system s t type module x r

/-- What the end of the scope says of the reads of the run. -/
structure World.Proves (system : System) (hints : PageHints) (w : World) : Prop where
  kept : w.finishes system hints = true → ∀ a ∈ w.attempts, a.success = true →
    ∀ x, a.address ≤ x → x < a.address + a.size → Kept system w.scope (w.ended system hints) a.type a.module x
  failed : w.finishes system hints = true → ∀ a ∈ w.attempts, a.admitted = true → a.success = true
  refused : ∀ ops, w.scope.failed = true →
    (run (World.step system hints) w ops).finishes system hints = false

/-! ## The laws of the readers -/

namespace ScopedLocalMemoryQueryCache

variable {system : System} {s t : ScopedLocalMemoryQueryCache} {type module first last : Nat}

/-- A read: what it records was seen, a read that succeeds is covered, and one that does not fails the
scope. -/
structure Reads (system : System) (s : ScopedLocalMemoryQueryCache)
    (r : ScopedLocalMemoryQueryCache × Bool) (type module first last : Nat) : Prop where
  recorded : Recorded system r.1
  grown : Grown s r.1
  covered : r.2 = true → ∀ x, first ≤ x → x < last → Covered system r.1 type module x
  failed : r.2 = false → r.1.failed = true

theorem read_memory_spec (system : System) (s : ScopedLocalMemoryQueryCache) (address size : Nat) :
    Kin s (s.read_memory system address size).1 ∧
      ((s.read_memory system address size).2 = false → (s.read_memory system address size).1.failed = true) := by
  unfold read_memory
  split
  · exact ⟨called_kin s, nofun⟩
  · exact ⟨(called_kin s).trans (refuse_kin _ _ _), fun _ => rfl⟩

theorem private_bytes_spec (h : Recorded system s) (hints : PageHints) {address size : Nat}
    (hsize : 0 < size) (hfits : address + size ≤ UINTPTR_MAX) :
    Reads system s (s.private_bytes system hints address size) MEM_PRIVATE 0 address (address + size) := by
  have hfirst : Validates system s true (s.validate_private_range system hints true address size)
      MEM_PRIVATE 0 address (address + size) := validate_page_range_spec h hsize hfits
  unfold private_bytes
  dsimp only
  generalize s.validate_private_range system hints true address size = first at hfirst ⊢
  cases hverdict : first.2 with
  | proven =>
    obtain ⟨hkin, hfailed⟩ := read_memory_spec system first.1 address size
    exact ⟨hkin.recorded hfirst.recorded, hfirst.grown.trans hkin.grown,
      fun _ x hx hlast => (hfirst.proven hverdict x hx hlast).later hkin.grown, hfailed⟩
  | refused =>
    exact ⟨hfirst.recorded, hfirst.grown, nofun, fun _ => hfirst.refused hverdict⟩
  | cold =>
    obtain ⟨hkin, hfailed⟩ := read_memory_spec system first.1 address size
    dsimp only
    split
    · have hagain : Validates system (first.1.read_memory system address size).1 false
          ((first.1.read_memory system address size).1.validate_private_range system hints false address size)
          MEM_PRIVATE 0 address (address + size) :=
        validate_page_range_spec (hkin.recorded hfirst.recorded) hsize hfits
      refine ⟨hagain.recorded, (hfirst.grown.trans hkin.grown).trans hagain.grown, fun hproven => ?_, fun hno => ?_⟩
      · exact hagain.proven (beq_iff_eq.mp hproven)
      · apply hagain.refused
        rw [beq_eq_false_iff_ne] at hno
        cases hlast : ((first.1.read_memory system address size).1.validate_private_range system hints
            false address size).2 with
        | proven => exact absurd hlast hno
        | refused => rfl
        | cold => exact absurd (hagain.warm hlast) Bool.false_ne_true
    rename_i hno
    rw [Bool.not_eq_true] at hno
    exact ⟨hkin.recorded hfirst.recorded, hfirst.grown.trans hkin.grown, nofun,
      fun _ => hfailed hno⟩

end ScopedLocalMemoryQueryCache

namespace LocalImageReader

variable {system : System} {s : ScopedLocalMemoryQueryCache} {reader : LocalImageReader}

/-- A reader with an extent is one of the main module, and its extent fits. -/
structure Fits (system : System) (reader : LocalImageReader) : Prop where
  main : 0 < reader.limit → reader.base ≠ 0 ∧ reader.base = system.main_module
  fits : reader.base + reader.limit ≤ UINTPTR_MAX

theorem local_image_reader_fits (system : System) (main_module image_size : Nat) :
    Fits system (local_image_reader system main_module image_size) := by
  unfold local_image_reader
  split
  · exact ⟨fun hno => absurd hno (Nat.lt_irrefl _), Nat.zero_le _⟩
  rename_i hgood
  simp only [not_or, ne_eq, Decidable.not_not, not_lt] at hgood
  refine ⟨fun _ => ⟨hgood.1, hgood.2.1⟩, ?_⟩
  dsimp only
  omega

/-- One window inside of the extent. -/
theorem query_spec (h : Recorded system s) (hreader : Fits system reader) (hints : PageHints)
    {rva maximum : Nat} (hmaximum : 0 < maximum) (hinside : rva + maximum ≤ reader.limit) :
    ∃ size, 0 < size ∧ size ≤ maximum ∧ (reader.query system hints s rva maximum).2.size = size ∧
      ∃ v, (reader.query system hints s rva maximum).1 = v.1 ∧
        (reader.query system hints s rva maximum).2.readable = (v.2 == .proven) ∧
        Validates system s false v MEM_IMAGE reader.base (reader.base + rva) (reader.base + rva + size) := by
  obtain ⟨hbase, hmain⟩ := hreader.main (by omega)
  have hfits := hreader.fits
  have hmod := Nat.mod_lt (reader.base + rva) system.paged
  have hopen : ¬ (reader.limit ≤ rva ∨ maximum = 0) := by omega
  unfold query
  rw [if_neg hopen]
  dsimp only
  generalize hsize : min (min maximum (reader.limit - rva))
    (system.page_size - (reader.base + rva) % system.page_size) = size
  refine ⟨size, by omega, by omega, rfl, _, rfl, rfl, ?_⟩
  unfold validate_image_range
  rw [if_neg (by rw [not_or, not_not]; exact ⟨hbase, hmain⟩)]
  exact validate_page_range_spec h (by omega) (by omega)

theorem read_from_spec (hreader : Fits system reader) (hints : PageHints) {rva size : Nat}
    (hinside : rva + size ≤ reader.limit) (turns offset : Nat) {s : ScopedLocalMemoryQueryCache}
    (h : Recorded system s) (hturns : size ≤ turns + offset) :
    Reads system s (reader.read_from system hints rva size turns offset s) MEM_IMAGE reader.base
      (reader.base + rva + offset) (reader.base + rva + size) := by
  induction turns generalizing offset s with
  | zero =>
    refine ⟨h, Grown.refl s, fun _ x hfirst hlast => ?_, nofun⟩
    omega
  | succ turns ih =>
    unfold read_from
    split
    · refine ⟨h, Grown.refl s, fun _ x hfirst hlast => ?_, nofun⟩
      omega
    rename_i hopen
    have hmore : 0 < size - offset := by omega
    have hwithin : rva + offset + (size - offset) ≤ reader.limit := by omega
    obtain ⟨window, hpos, hle, hsize, v, hscope, hreadable, hv⟩ := query_spec h hreader hints hmore hwithin
    dsimp only
    rw [hsize, hscope, hreadable]
    split
    · rename_i hno
      have hbound : ¬ (size - offset < window) := by omega
      have hsome : window ≠ 0 := by omega
      simp only [Bool.or_eq_true, Bool.not_eq_true', beq_iff_eq, decide_eq_true_eq, hbound, hsome,
        or_false, beq_eq_false_iff_ne] at hno
      refine ⟨hv.recorded, hv.grown, nofun, fun _ => hv.refused ?_⟩
      cases hverdict : v.2 with
      | proven => exact absurd hverdict hno
      | refused => rfl
      | cold => exact absurd (hv.warm hverdict) Bool.false_ne_true
    rename_i hgood
    simp only [Bool.or_eq_true, Bool.not_eq_true', not_or, beq_eq_false_iff_ne, not_not] at hgood
    obtain ⟨hkin, hfailed⟩ := read_memory_spec system v.1 (reader.base + rva + offset) window
    split
    · have hrest := ih (offset + window) (hkin.recorded hv.recorded) (by omega)
      refine ⟨hrest.recorded, (hv.grown.trans hkin.grown).trans hrest.grown,
        fun hdone x hfirst hlast => ?_, hrest.failed⟩
      by_cases hhere : x < reader.base + (rva + offset) + window
      · exact ((hv.proven hgood.1.1 x (by omega) hhere).later hkin.grown).later hrest.grown
      · exact hrest.covered hdone x (by omega) hlast
    rename_i hno
    rw [Bool.not_eq_true] at hno
    exact ⟨hkin.recorded hv.recorded, hv.grown.trans hkin.grown, nofun, fun _ => hfailed hno⟩

end LocalImageReader

/-! ## The laws of the runs -/

namespace World

variable {system : System} {hints : PageHints} {w : World}

structure Lawful (system : System) (w : World) : Prop where
  recorded : Recorded system w.scope
  covered : ∀ a ∈ w.attempts, a.success = true → ∀ x, a.address ≤ x → x < a.address + a.size →
    Covered system w.scope a.type a.module x
  failed : ∀ a ∈ w.attempts, a.admitted = true → a.success = false → w.scope.failed = true

theorem initial_lawful (system : System) : Lawful system {} where
  recorded := ⟨(fun a ha => by cases ha), (fun p hp => by cases hp), (fun c hc => by cases hc),
    fun r hr => by cases hr⟩
  covered a ha := by cases ha
  failed a ha := by cases ha

variable {a : Attempt}

/-- One more attempt, in a scope that has grown. -/
theorem Lawful.attempted (h : Lawful system w) {v : World}
    (hg : Grown w.scope v.scope) (hrecorded : Recorded system v.scope)
    (hattempts : v.attempts = w.attempts ++ [a])
    (hcovered : a.success = true → ∀ x, a.address ≤ x → x < a.address + a.size →
      Covered system v.scope a.type a.module x)
    (hfailed : a.admitted = true → a.success = false → v.scope.failed = true) : Lawful system v where
  recorded := hrecorded
  covered b hb := by
    rw [hattempts] at hb
    rcases mem_append.mp hb with hbefore | hnew
    · exact fun hs x hfirst hlast => (h.covered b hbefore hs x hfirst hlast).later hg
    rw [mem_singleton] at hnew
    exact hnew ▸ hcovered
  failed b hb := by
    rw [hattempts] at hb
    rcases mem_append.mp hb with hbefore | hnew
    · exact fun hadmitted hs => hg.failed (h.failed b hbefore hadmitted hs)
    rw [mem_singleton] at hnew
    exact hnew ▸ hfailed

/-- What a step leaves of the scope. -/
structure Steps (system : System) (w v : World) : Prop where
  lawful : Lawful system v
  grown : Grown w.scope v.scope

theorem Lawful.unadmitted (h : Lawful system w) (hadmitted : a.admitted = false)
    (hs : a.success = false) : Steps system w (w.attempt a) where
  lawful := h.attempted (Grown.refl _) h.recorded rfl (fun hno => by rw [hs] at hno; cases hno)
    fun hno => by rw [hadmitted] at hno; cases hno
  grown := Grown.refl _

theorem Lawful.read (h : Lawful system w) (r : Nat) (destination : Bool) (address size : Nat) :
    Steps system w (w.read system hints r destination address size) := by
  unfold World.read
  split
  · rename_i hadmits
    simp only [LocalMemoryReader.admits, Bool.and_eq_true, bne_iff_ne, decide_eq_true_eq] at hadmits
    have hsize : 0 < size := by omega
    have hend : address + size ≤ UINTPTR_MAX := by omega
    have hreads := private_bytes_spec h.recorded hints hsize hend
    exact ⟨h.attempted hreads.grown hreads.recorded rfl hreads.covered fun _ => hreads.failed, hreads.grown⟩
  · exact h.unadmitted rfl rfl

theorem Lawful.image (h : Lawful system w) (main_module image_size : Nat) (destination : Bool)
    (rva size : Nat) : Steps system w (w.image system hints main_module image_size destination rva size) := by
  have hfits := LocalImageReader.local_image_reader_fits system main_module image_size
  unfold World.image
  dsimp only
  split
  · rename_i hadmits
    simp only [LocalImageReader.admits, Bool.and_eq_true, bne_iff_ne, decide_eq_true_eq] at hadmits
    have hinside : rva + size ≤ (local_image_reader system main_module image_size).limit := by omega
    have hreads := LocalImageReader.read_from_spec hfits hints hinside size 0 h.recorded (le_refl _)
    exact ⟨h.attempted hreads.grown hreads.recorded rfl hreads.covered fun _ => hreads.failed, hreads.grown⟩
  · exact h.unadmitted rfl rfl

theorem Lawful.step (h : Lawful system w) (hints : PageHints) (op : Op) : Steps system w (w.step system hints op) := by
  cases op with
  | reset_budget r limit => exact ⟨⟨h.recorded, h.covered, h.failed⟩, Grown.refl _⟩
  | read r destination address size => exact h.read r destination address size
  | image main_module image_size destination rva size =>
    exact h.image main_module image_size destination rva size

/-- Over a run the scope only grows. -/
theorem Lawful.run (h : Lawful system w) (hints : PageHints) (ops : List Op) :
    Steps system w (run (World.step system hints) w ops) := by
  induction ops generalizing w with
  | nil => exact ⟨h, Grown.refl _⟩
  | cons op rest ih =>
    have hstep := h.step hints op
    have hrest := ih hstep.lawful
    exact ⟨hrest.lawful, hstep.grown.trans hrest.grown⟩

theorem Covered.kept {s : ScopedLocalMemoryQueryCache} {type module x : Nat}
    (hrecorded : Recorded system s) (hcovered : Covered system s type module x)
    {t : ScopedLocalMemoryQueryCache} (hagain : Again system s t) : Kept system s t type module x := by
  cases hcovered with
  | page p owner hpage howner hbase hkind =>
    simp only [mismatched, Bool.or_eq_false_iff, bne_eq_false_iff_eq, Bool.and_eq_false_imp, bne_iff_ne] at hkind
    obtain ⟨hseen, other, hother, hinside⟩ := hrecorded.pages p hpage
    obtain ⟨last, hlast, hpage_again⟩ := hagain.pages p hpage
    have hsame : other = owner := Option.some.inj (hother.symm.trans howner)
    have hsame_last : last = owner := Option.some.inj (hlast.symm.trans howner)
    rw [hsame] at hinside
    rw [hsame_last] at hpage_again
    have hmem := mem_of_getElem? howner
    exact .inl ⟨p, owner, hpage, hbase, howner, hinside, hkind.1, hkind.2, hseen,
      hrecorded.allocations owner hmem, hpage_again, hagain.allocations owner hmem⟩
  | region r hregion hinside hstate htype howner hreadable =>
    exact .inr ⟨r, hregion, hinside, hstate, htype, howner, hreadable, hrecorded.regions r hregion,
      hagain.regions r hregion⟩

/-- A scope that ends without a failure has proven every page that its reads used, with whatever the
system answered in between. -/
theorem finished_scope_proves_its_pages (system : System) (hints : PageHints) (ops : List Op) :
    (run (step system hints) {} ops).Proves system hints := by
  have h := ((initial_lawful system).run hints ops).lawful
  refine ⟨fun hfinishes a ha hs x hfirst hlast => ?_, fun hfinishes a ha hadmitted => ?_, fun later hfailed => ?_⟩
  · exact Covered.kept h.recorded (h.covered a ha hs x hfirst hlast) (finish_again _ hints hfinishes)
  · rw [← Bool.not_eq_false]
    intro hs
    have hno := finish_failed system _ hints (h.failed a ha hadmitted hs)
    rw [World.finishes, hno] at hfinishes
    cases hfinishes
  · exact finish_failed system _ hints ((h.run hints later).grown.failed hfailed)

/-! ## Two runs -/

/-- One private allocation and the main image; the page at 0x12000 is out of the working set up to the
fifth call. -/
def quiet_system : System where
  page_size := 4096
  paged := Nat.succ_pos 4095
  main_module := 0x140000000
  allocation _ address :=
    if address < 0x20000 then
      some { base := 0x10000, size := 0x10000, protection := PAGE_READWRITE, is_private := true }
    else
      some { base := 0x140000000, size := 0x100000, protection := PAGE_EXECUTE_WRITECOPY, mapped_image := true }
  pages n := some fun page =>
    { valid := page != 0x12000 || decide (5 < n), bad := false
      protection := if page < 0x20000 then PAGE_READWRITE else PAGE_EXECUTE_READ }
  region _ _ := none
  copy _ _ _ := true

/-- A field over two pages, a field of a cold page and one of the image. -/
def three_fields : List Op :=
  [.reset_budget 0 100, .read 0 true 0x10ff8 16, .read 0 true 0x12010 8,
    .image 0x140000000 0x100000 true 0x2000 16]

theorem cold_page_is_kept :
    (run (step quiet_system {}) {} three_fields).finishes quiet_system {} = true ∧
      Kept quiet_system (run (step quiet_system {}) {} three_fields).scope
        ((run (step quiet_system {}) {} three_fields).ended quiet_system {}) MEM_PRIVATE 0 0x12010 := by
  have hfinishes : (run (step quiet_system {}) {} three_fields).finishes quiet_system {} = true := by
    decide +kernel
  refine ⟨hfinishes, ?_⟩
  have hread : ∃ a ∈ (run (step quiet_system {}) {} three_fields).attempts, a.success = true ∧
      a.type = MEM_PRIVATE ∧ a.module = 0 ∧ a.address = 0x12010 ∧ a.size = 8 := by decide +kernel
  obtain ⟨a, ha, hs, htype, hmodule, haddress, hsize⟩ := hread
  have hkept := (finished_scope_proves_its_pages quiet_system {} three_fields).kept hfinishes a ha hs
    0x12010 (by omega) (by omega)
  rw [htype, hmodule] at hkept
  exact hkept

/-- A read over the budget fails, and it is no part of the scope. -/
theorem read_over_its_budget_finishes :
    ¬ ∀ (system : System) (hints : PageHints) (ops : List Op),
      (run (step system hints) {} ops).finishes system hints = true →
        ∀ a ∈ (run (step system hints) {} ops).attempts, a.success = true := by
  intro hclaim
  have hall := hclaim quiet_system {} [.reset_budget 0 16, .read 0 true 0x10ff8 16, .read 0 true 0x10ff8 1]
    (by decide +kernel)
  have hone : ∃ a ∈ (run (step quiet_system {}) {}
      [.reset_budget 0 16, .read 0 true 0x10ff8 16, .read 0 true 0x10ff8 1]).attempts,
      a.success = false := by decide +kernel
  obtain ⟨a, ha, hfailed⟩ := hone
  rw [hall a ha] at hfailed
  cases hfailed

end World

end taxi_camera.native_camera.local_memory
