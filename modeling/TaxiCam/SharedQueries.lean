-- The endpoint check of the saved regions asks once for the regions that one
-- fresh region covers. In a fixed address space that comes to asking for each of
-- them. `ScopedLocalMemoryQueryCache::finish` of src/camera/local_memory.cpp.
import TaxiCam.PageRecords

namespace taxi_camera.native_camera.local_memory

open List

/-! ## A fixed address space -/

/-- What a query tells of a page, apart from how far it reaches. -/
structure PageState where
  allocation_base : Nat
  allocation_protect : Nat
  state : Nat
  protect : Nat
  type : Nat
deriving DecidableEq

/-- The pages by their numbers, as far as a query answers for them; there are none from `limit` on. -/
structure AddressSpace where
  page : Nat → Option PageState
  limit : Nat

namespace AddressSpace

open ScopedLocalMemoryQueryCache

variable (space : AddressSpace) (page_size : Nat)

/-- The number of equal pages from this one on. -/
def run_length (p : PageState) (first : Nat) : Nat :=
  ((List.range' first (space.limit - first)).takeWhile fun n => space.page n = some p).length

/-- `VirtualQuery`: the run of equal pages that starts at the page of the address. -/
def region (address : Nat) : Option Region :=
  (space.page (address / page_size)).map fun p =>
    { base := address / page_size * page_size, allocation_base := p.allocation_base,
      allocation_protect := p.allocation_protect, size := page_size * space.run_length p (address / page_size),
      state := p.state, protect := p.protect, type := p.type }

variable {space} {p : PageState} {page_size first n address base : Nat} {wide : Region}

theorem run_length_part (hle : first ≤ n) (hn : n < first + space.run_length p first) :
    space.page n = some p ∧ space.run_length p first = n - first + space.run_length p n := by
  unfold run_length at hn ⊢
  have hpage (i : Nat) (hi : i < ((range' first (space.limit - first)).takeWhile
      fun n => space.page n = some p).length) : space.page (first + i) = some p ∧ first + i < space.limit := by
    have hin := takeWhile_prefix (l := range' first (space.limit - first)) fun n => space.page n = some p
    have hsize := hin.length_le
    rw [length_range'] at hsize
    refine ⟨?_, by omega⟩
    have hmem := all_eq_true.mp all_takeWhile _ (getElem_mem hi)
    rw [hin.getElem hi, getElem_range', Nat.one_mul] at hmem
    exact of_decide_eq_true hmem
  have hlast := hpage (n - first) (by omega)
  rw [Nat.add_sub_cancel' hle] at hlast
  refine ⟨hlast.1, ?_⟩
  have hsplit : range' first (space.limit - first) =
      range' first (n - first) ++ range' n (space.limit - n) := by
    have happend := @range'_append_1 first (n - first) (space.limit - n)
    rw [Nat.add_sub_cancel' hle] at happend
    rw [happend]
    congr 1
    omega
  rw [hsplit, takeWhile_append_of_pos, length_append, length_range']
  intro i hi
  obtain ⟨hfirst, hi⟩ := mem_range'_1.mp hi
  have hthere := (hpage (i - first) (by omega)).1
  rw [Nat.add_sub_cancel' hfirst] at hthere
  exact decide_eq_true hthere

/-- A region covers a page: the query of the page is the rest of the region. -/
theorem region_suffix (hpage : 0 < page_size) (h : space.region page_size address = some wide)
    (hcontains : region_contains wide base 1 = true) (haligned : page_size ∣ base) :
    space.region page_size base = some (suffix wide base) := by
  obtain ⟨n, rfl⟩ := haligned
  obtain ⟨p, hp, rfl⟩ := Option.map_eq_some_iff.mp h
  simp only [region_contains, contains, Bool.and_eq_true, bne_iff_ne, decide_eq_true_eq] at hcontains
  obtain ⟨⟨⟨⟨-, -⟩, hle⟩, hlt⟩, -⟩ := hcontains
  rw [Nat.mul_comm _ page_size] at hle hlt
  have hfirst : address / page_size ≤ n := Nat.le_of_mul_le_mul_left hle hpage
  rw [← Nat.mul_sub] at hlt
  have hn := Nat.lt_of_mul_lt_mul_left hlt
  obtain ⟨hsame, hlength⟩ := @run_length_part space p _ n hfirst (by omega)
  unfold region suffix
  rw [Nat.mul_div_cancel_left n hpage, hsame, Option.map_some, hlength]
  have hrest : page_size * (n - address / page_size + space.run_length p n) - (page_size * n - address / page_size * page_size) =
      page_size * space.run_length p n := by
    rw [Nat.mul_comm _ page_size, ← Nat.mul_sub, Nat.mul_add, Nat.add_sub_cancel_left]
  simp only [hrest, Nat.mul_comm n page_size]

theorem region_aligned (h : space.region page_size address = some wide) : page_size ∣ wide.base := by
  obtain ⟨p, -, rfl⟩ := Option.map_eq_some_iff.mp h
  exact Nat.dvd_mul_left _ _

end AddressSpace

/-- Each query answers from the address space of its moment. -/
def Paged (system : System) : Prop :=
  ∀ n address r, system.region n address = some r → ∃ space : AddressSpace, space.region system.page_size address = some r

/-! ## The check at the end -/

namespace ScopedLocalMemoryQueryCache

variable {system : System} {space : AddressSpace}

theorem region_differs_self (r : Region) : region_differs r r = none := by
  simp [region_differs]

/-- The check fails where it had failed, or where one region is not what the query of its own base gives. -/
theorem finish_regions_iff (regions : List Region) (fresh : Option Region) {s : ScopedLocalMemoryQueryCache}
    (hfixed : ∀ n address, s.calls ≤ n → system.region n address = space.region system.page_size address)
    (haligned : ∀ r ∈ regions, system.page_size ∣ r.base)
    (hfresh : ∀ wide, fresh = some wide → ∃ address, space.region system.page_size address = some wide) :
    (finish_regions system fresh regions s).failed = false ↔
      s.failed = false ∧ ∀ r ∈ regions, space.region system.page_size r.base = some r := by
  induction regions generalizing fresh s with
  | nil => simp [finish_regions]
  | cons initial rest ih =>
    have hrest : ∀ r ∈ rest, system.page_size ∣ r.base := fun r hr => haligned r (mem_cons_of_mem _ hr)
    rw [forall_mem_cons]
    unfold finish_regions
    split
    · rename_i hfailed
      simp [hfailed]
    rename_i hfailed
    rw [Bool.not_eq_true] at hfailed
    split
    · rename_i wide hwide
      obtain ⟨hsome, hcontains⟩ := Option.filter_eq_some_iff.mp hwide
      obtain ⟨address, hanswer⟩ := hfresh wide hsome
      have hown := AddressSpace.region_suffix system.paged hanswer hcontains (haligned initial mem_cons_self)
      split
      · rename_i hdiffers
        refine iff_of_false Bool.noConfusion fun hall => ?_
        have hsame := Option.some.inj (hown.symm.trans hall.2.1)
        rw [hsame, region_differs_self] at hdiffers
        cases hdiffers
      rename_i hsame
      rw [ih fresh hfixed hrest hfresh, hown, region_differs_none hsame]
      simp [hfailed]
    rw [hfixed s.calls initial.base le_rfl]
    cases hanswer : space.region system.page_size initial.base with
    | none => exact iff_of_false Bool.noConfusion fun hall => by cases hall.2.1
    | some current =>
      dsimp only
      cases hdiffers : region_differs initial current with
      | some field =>
        refine iff_of_false Bool.noConfusion fun hall => ?_
        rw [Option.some.inj hall.2.1, region_differs_self] at hdiffers
        cases hdiffers
      | none =>
        rw [ih (some current) (s := s.called) (fun n address hn => hfixed n address (Nat.le_of_succ_le hn)) hrest
          fun wide hwide => ⟨_, hwide ▸ hanswer⟩, region_differs_none hdiffers]
        simp [hfailed, called]

/-- The saved regions stand exactly where the query of each one's own base gives it back. -/
theorem shared_queries_are_separate_queries (hpaged : Paged system) (s : ScopedLocalMemoryQueryCache) (hints : PageHints)
    (hseen : ∀ r ∈ s.regions, RegionSeen system s.calls r)
    (hfixed : ∀ n address, s.calls ≤ n → system.region n address = space.region system.page_size address) :
    (s.finish system hints).2.2 = true ↔ (if s.failed then s else s.finish_pages system).failed = false ∧
      ∀ r ∈ s.regions, space.region system.page_size r.base = some r := by
  have hlater : s.calls ≤ (if s.failed then s else s.finish_pages system).calls := by
    split
    · exact le_rfl
    rename_i hfailed
    exact (finish_pages_spec system s (Bool.not_eq_true _ ▸ hfailed)).1.calls
  have hends := @finish_regions_iff system space s.in_order none _
    (fun n address hn => hfixed n address (hlater.trans hn)) (fun r hr => ?_) nofun
  · unfold finish
    rw [Bool.not_eq_true', hends]
    refine and_congr_right fun _ => forall_congr' fun r => ?_
    rw [in_order, mem_insertionSort]
  · obtain ⟨n, address, -, hanswer⟩ := hseen r ((mem_insertionSort _).mp hr)
    obtain ⟨then_space, hregion⟩ := hpaged n address r hanswer
    exact AddressSpace.region_aligned hregion

/-- Four pages of one allocation at the start of the address space. -/
def four_pages : AddressSpace where
  page n := if n < 4 then some ⟨0, PAGE_READWRITE, MEM_COMMIT, PAGE_READWRITE, MEM_PRIVATE⟩ else none
  limit := 8

theorem still_page : 0 < 4096 := Nat.succ_pos 4095

def still_system (space : AddressSpace) : System where
  page_size := 4096
  paged := still_page
  main_module := 0
  allocation _ _ := none
  pages _ := none
  region _ address := space.region 4096 address
  copy _ _ _ := true

def whole : Region := ⟨0, 0, PAGE_READWRITE, 16384, MEM_COMMIT, PAGE_READWRITE, MEM_PRIVATE⟩

theorem a_suffix_stands_with_its_region :
    (({ regions := [suffix whole 8192, whole], calls := 2 } : ScopedLocalMemoryQueryCache).finish
      (still_system four_pages) {}).2.2 = true := by
  refine (@shared_queries_are_separate_queries _ four_pages (fun _ _ _ h => ⟨four_pages, h⟩) _ {} ?_
    fun _ _ _ => rfl).mpr ⟨rfl, by decide⟩
  intro r hr
  exact ⟨0, r.base, Nat.succ_pos 1, by revert r; decide⟩

end ScopedLocalMemoryQueryCache

end taxi_camera.native_camera.local_memory
