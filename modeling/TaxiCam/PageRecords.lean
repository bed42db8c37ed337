-- The laws of the page proofs: every record of a scope comes from a call of the
-- scope, a validation covers its range with records or fails the scope, and an
-- end that does not fail has seen every record again.
import TaxiCam.PageProofs
import Mathlib.Data.List.Sort

namespace taxi_camera.native_camera.local_memory

open List

namespace ScopedLocalMemoryQueryCache

/-! ## What a scope records -/

variable {system : System} {s t u : ScopedLocalMemoryQueryCache}

/-- A page of this base was seen valid and readable, with this protection. -/
def PageSeen (system : System) (calls : Nat) (p : PageProof) : Prop :=
  ∃ n answers, n < calls ∧ system.pages n = some answers ∧ (answers p.base).valid = true ∧
    (answers p.base).bad = false ∧ (answers p.base).protection = p.protection ∧
    readable p.protection = true

def AllocationSeen (system : System) (calls : Nat) (a : AllocationProof) : Prop :=
  ∃ n address r, n < calls ∧ system.allocation n address = some r ∧ allocation_type r a.type = true ∧
    r.base = a.base ∧ r.size = a.size ∧ r.protection = a.protection

def RegionSeen (system : System) (calls : Nat) (r : Region) : Prop :=
  ∃ n address, n < calls ∧ system.region n address = some r

/-- The page is within its allocation. -/
def Owned (system : System) (s : ScopedLocalMemoryQueryCache) (p : PageProof) : Prop :=
  ∃ a, s.allocations[p.allocation]? = some a ∧ contains a.base a.size p.base system.page_size = true

/-- Every record of the scope comes from a call of the scope. -/
structure Recorded (system : System) (s : ScopedLocalMemoryQueryCache) : Prop where
  allocations : ∀ a ∈ s.allocations, AllocationSeen system s.calls a
  pages : ∀ p ∈ s.pages, PageSeen system s.calls p ∧ Owned system s p
  candidates : ∀ c ∈ s.candidates, PageSeen system s.calls c
  regions : ∀ r ∈ s.regions, RegionSeen system s.calls r

/-- Nothing recorded goes away, and a failure stays. -/
structure Grown (s t : ScopedLocalMemoryQueryCache) : Prop where
  allocations : ∃ later, t.allocations = s.allocations ++ later
  pages : ∀ p ∈ s.pages, p ∈ t.pages
  regions : ∀ r ∈ s.regions, r ∈ t.regions
  calls : s.calls ≤ t.calls
  failed : s.failed = true → t.failed = true

theorem Grown.refl (s : ScopedLocalMemoryQueryCache) : Grown s s :=
  ⟨⟨[], (append_nil _).symm⟩, fun _ hp => hp, fun _ hr => hr, le_refl _, fun hf => hf⟩

theorem Grown.trans (h : Grown s t) (hu : Grown t u) : Grown s u where
  allocations := by
    obtain ⟨later, hlater⟩ := h.allocations
    obtain ⟨latest, hlatest⟩ := hu.allocations
    exact ⟨later ++ latest, by rw [hlatest, hlater, append_assoc]⟩
  pages p hp := hu.pages p (h.pages p hp)
  regions r hr := hu.regions r (h.regions r hr)
  calls := le_trans h.calls hu.calls
  failed hf := hu.failed (h.failed hf)

variable {a : AllocationProof} {address asked base calls chunk current since size x : Nat}
variable {answers : Option (Nat → Attributes)} {hints : PageHints} {p : PageProof}

theorem Grown.owner (h : Grown s t) {i : Nat} (ha : s.allocations[i]? = some a) : t.allocations[i]? = some a := by
  obtain ⟨later, hlater⟩ := h.allocations
  rw [hlater, List.getElem?_append_left (List.getElem?_eq_some_iff.mp ha).1]
  exact ha

theorem PageSeen.later {later : Nat} (h : PageSeen system calls p)
    (hle : calls ≤ later) : PageSeen system later p := by
  obtain ⟨n, answers, hn, hseen⟩ := h
  exact ⟨n, answers, Nat.lt_of_lt_of_le hn hle, hseen⟩

theorem AllocationSeen.later {later : Nat} (h : AllocationSeen system calls a)
    (hle : calls ≤ later) : AllocationSeen system later a := by
  obtain ⟨n, address, r, hn, hseen⟩ := h
  exact ⟨n, address, r, Nat.lt_of_lt_of_le hn hle, hseen⟩

theorem RegionSeen.later {later : Nat} {r : Region} (h : RegionSeen system calls r)
    (hle : calls ≤ later) : RegionSeen system later r := by
  obtain ⟨n, address, hn, hseen⟩ := h
  exact ⟨n, address, Nat.lt_of_lt_of_le hn hle, hseen⟩

theorem Owned.later (h : Owned system s p) (hg : Grown s t) : Owned system t p := by
  obtain ⟨a, ha, hcontains⟩ := h
  exact ⟨a, hg.owner ha, hcontains⟩

/-- A scope whose new records were seen. -/
theorem Recorded.extend (h : Recorded system s) (hg : Grown s t)
    (hallocations : ∀ a ∈ t.allocations, a ∈ s.allocations ∨ AllocationSeen system t.calls a)
    (hpages : ∀ p ∈ t.pages, p ∈ s.pages ∨ PageSeen system t.calls p ∧ Owned system t p)
    (hcandidates : ∀ c ∈ t.candidates, c ∈ s.candidates ∨ PageSeen system t.calls c)
    (hregions : ∀ r ∈ t.regions, r ∈ s.regions ∨ RegionSeen system t.calls r) : Recorded system t where
  allocations a ha := (hallocations a ha).elim (fun hb => (h.allocations a hb).later hg.calls) fun hn => hn
  pages p hp := (hpages p hp).elim
    (fun hb => ⟨(h.pages p hb).1.later hg.calls, (h.pages p hb).2.later hg⟩) fun hn => hn
  candidates c hc := (hcandidates c hc).elim (fun hb => (h.candidates c hb).later hg.calls) fun hn => hn
  regions r hr := (hregions r hr).elim (fun hb => (h.regions r hb).later hg.calls) fun hn => hn

/-- The same records, with more calls and maybe a failure. -/
structure Kin (s t : ScopedLocalMemoryQueryCache) : Prop where
  allocations : t.allocations = s.allocations
  pages : t.pages = s.pages
  candidates : t.candidates = s.candidates
  regions : t.regions = s.regions
  calls : s.calls ≤ t.calls
  failed : s.failed = true → t.failed = true

theorem Kin.grown (h : Kin s t) : Grown s t :=
  ⟨⟨[], by rw [h.allocations, append_nil]⟩, fun _ hp => h.pages ▸ hp, fun _ hr => h.regions ▸ hr, h.calls, h.failed⟩

theorem Kin.recorded (h : Kin s t) (hr : Recorded system s) : Recorded system t :=
  hr.extend h.grown (fun _ ha => .inl (h.allocations ▸ ha)) (fun _ hp => .inl (h.pages ▸ hp))
    (fun _ hc => .inl (h.candidates ▸ hc)) fun _ hm => .inl (h.regions ▸ hm)

theorem Kin.trans (h : Kin s t) (hu : Kin t u) : Kin s u :=
  ⟨hu.allocations.trans h.allocations, hu.pages.trans h.pages, hu.candidates.trans h.candidates,
    hu.regions.trans h.regions, le_trans h.calls hu.calls, fun hf => hu.failed (h.failed hf)⟩

theorem called_kin (s : ScopedLocalMemoryQueryCache) : Kin s s.called :=
  ⟨rfl, rfl, rfl, rfl, Nat.le_succ _, fun hf => hf⟩

theorem refuse_kin (s : ScopedLocalMemoryQueryCache) (stage field : String) :
    Kin s (s.refuse stage field) := ⟨rfl, rfl, rfl, rfl, le_refl _, fun _ => rfl⟩

/-- An address is of a proven page, or of a recorded region. -/
inductive Covered (system : System) (s : ScopedLocalMemoryQueryCache) (type allocation x : Nat) : Prop
  | page (p : PageProof) (owner : AllocationProof) (hpage : p ∈ s.pages)
      (howner : s.allocations[p.allocation]? = some owner) (hbase : p.base = x - x % system.page_size)
      (hkind : mismatched owner type allocation = false)
  | region (r : Region) (hregion : r ∈ s.regions) (hinside : region_contains r x 1 = true)
      (hstate : r.state = MEM_COMMIT) (htype : r.type = type)
      (howner : allocation ≠ 0 → r.allocation_base = allocation) (hreadable : readable r.protect = true)

theorem Covered.later {type allocation : Nat} (h : Covered system s type allocation x)
    (hg : Grown s t) : Covered system t type allocation x := by
  cases h with
  | page p owner hpage howner hbase hkind =>
    exact .page p owner (hg.pages p hpage) (hg.owner howner) hbase hkind
  | region r hregion hinside hstate htype howner hreadable =>
    exact .region r (hg.regions r hregion) hinside hstate htype howner hreadable

/-- A validation: what it records was seen; it covers the range that it proves, and it fails the scope
where it refuses. -/
structure Validates (system : System) (s : ScopedLocalMemoryQueryCache) (cold : Bool)
    (v : ScopedLocalMemoryQueryCache × Verdict) (type allocation first last : Nat) : Prop where
  recorded : Recorded system v.1
  grown : Grown s v.1
  proven : v.2 = .proven → ∀ x, first ≤ x → x < last → Covered system v.1 type allocation x
  refused : v.2 = .refused → v.1.failed = true
  warm : v.2 = .cold → cold = true

variable {type allocation first last : Nat} {cold : Bool}

theorem Validates.of_refused (hg : Grown s t) (hr : Recorded system t) (hfailed : t.failed = true) :
    Validates system s cold (t, .refused) type allocation first last :=
  ⟨hr, hg, nofun, (fun _ => hfailed), nofun⟩

theorem contains_part {extent : Nat} (h : contains base extent address size = true)
    (hfirst : address ≤ x) (hlast : x < address + size) : contains base extent x 1 = true := by
  simp only [contains, Bool.and_eq_true, bne_iff_ne, decide_eq_true_eq] at h ⊢
  omega

/-- The addresses of a part of a page have the page of its first one. -/
theorem page_base {page : Nat} (hpage : 0 < page)
    (hchunk : chunk ≤ page - current % page) (hfirst : current ≤ x) (hlast : x < current + chunk) :
    x - x % page = current - current % page := by
  have hmod := Nat.mod_lt current hpage
  have hx : x = page * (current / page) + (current % page + (x - current)) := by
    have hsplit := Nat.div_add_mod current page
    omega
  have hrest : x % page = current % page + (x - current) := by
    conv_lhs => rw [hx]
    rw [Nat.mul_add_mod]
    apply Nat.mod_eq_of_lt
    omega
  omega

/-! ## The query of a region -/

theorem record_region_grown (s : ScopedLocalMemoryQueryCache) (r : Region) : Grown s (s.record_region r) :=
  ⟨⟨[], (append_nil _).symm⟩, fun _ hp => hp, fun _ hr => mem_append_left _ hr, le_refl _, fun hf => hf⟩

/-- What a query leaves and answers. -/
structure Queries (system : System) (s : ScopedLocalMemoryQueryCache)
    (q : ScopedLocalMemoryQueryCache × Option Region) (address : Nat) : Prop where
  recorded : Recorded system q.1
  grown : Grown s q.1
  answered : ∀ r, q.2 = some r → r ∈ q.1.regions ∧ region_contains r address 1 = true

theorem settle_query_spec (h : Recorded system s) {answer : Option Region}
    (hseen : ∀ r, answer = some r → RegionSeen system s.calls r) :
    Queries system s (s.settle_query address answer) address := by
  unfold settle_query
  cases answer with
  | none =>
    exact ⟨(refuse_kin s _ _).recorded h, (refuse_kin s _ _).grown, fun r hr => by cases hr⟩
  | some r =>
    dsimp only
    split
    · rename_i hcontains
      have hg := record_region_grown s r
      refine ⟨h.extend hg (fun _ ha => .inl ha) (fun _ hp => .inl hp) (fun _ hc => .inl hc) ?_, hg, ?_⟩
      · intro other hother
        rcases mem_append.mp hother with hbefore | hnew
        · exact .inl hbefore
        rw [mem_singleton] at hnew
        exact .inr (hnew ▸ hseen r rfl)
      · intro other hother
        cases hother
        exact ⟨mem_append_right _ (mem_singleton.mpr rfl), hcontains⟩
    · exact ⟨(refuse_kin s _ _).recorded h, (refuse_kin s _ _).grown, fun r hr => by cases hr⟩

theorem Queries.after {q : ScopedLocalMemoryQueryCache × Option Region}
    (hk : Kin s t) (hq : Queries system t q address) : Queries system s q address :=
  ⟨hq.recorded, hk.grown.trans hq.grown, hq.answered⟩

theorem query_spec (h : Recorded system s) (address : Nat) : Queries system s (s.query system address) address := by
  unfold query
  split
  · exact ⟨h, Grown.refl s, fun r hr => by cases hr⟩
  cases hfind : s.regions.find? (region_contains · address 1) with
  | some r =>
    refine ⟨h, Grown.refl s, fun other hother => ?_⟩
    cases hother
    exact ⟨mem_of_find?_eq_some hfind, by simpa using List.find?_some hfind⟩
  | none =>
    dsimp only
    split
    · exact ⟨(refuse_kin s _ _).recorded h, (refuse_kin s _ _).grown, fun r hr => by cases hr⟩
    split
    · have hk := called_kin s
      exact (settle_query_spec (hk.recorded h) fun r hr => ⟨s.calls, _, Nat.lt_succ_self _, hr⟩).after hk
    have hk := (called_kin s).trans (called_kin s.called)
    exact (settle_query_spec (hk.recorded h) fun r hr =>
      ⟨s.called.calls, _, Nat.lt_succ_self _, hr⟩).after hk

/-! ## The routes of a page -/

theorem region_route_spec (h : Recorded system s) (current chunk : Nat) :
    Validates system s cold (s.region_route system current chunk type allocation) type allocation current
      (current + chunk) := by
  have hq := query_spec h current
  unfold region_route
  dsimp only
  cases hanswer : (s.query system current).2 with
  | none =>
    have hk := refuse_kin (s.query system current).1 "page" "allocation_readable"
    exact Validates.of_refused (hq.grown.trans hk.grown) (hk.recorded hq.recorded) rfl
  | some r =>
    dsimp only
    split
    · have hk := refuse_kin (s.query system current).1 "page" "allocation_readable"
      exact Validates.of_refused (hq.grown.trans hk.grown) (hk.recorded hq.recorded) rfl
    rename_i hgood
    simp only [not_or, not_and, Decidable.not_not, Bool.not_eq_false] at hgood
    obtain ⟨hstate, htype, howner, hreadable, hinside⟩ := hgood
    refine ⟨hq.recorded, hq.grown, fun _ x hfirst hlast => ?_, nofun, nofun⟩
    exact .region r (hq.answered r hanswer).1 (contains_part hinside hfirst hlast) hstate htype howner hreadable

theorem Validates.after {v : ScopedLocalMemoryQueryCache × Verdict} (hg : Grown s t)
    (hv : Validates system t cold v type allocation first last) :
    Validates system s cold v type allocation first last :=
  ⟨hv.recorded, hg.trans hv.grown, hv.proven, hv.refused, hv.warm⟩

theorem mem_add_candidates {answers : Nat → Attributes} {a : Nat} {batch : List Nat} {c : PageProof}
    (hc : c ∈ s.add_candidates answers a batch) :
    c ∈ s.candidates ∨ (answers c.base).valid = true ∧ (answers c.base).bad = false ∧
      (answers c.base).protection = c.protection ∧ readable c.protection = true := by
  unfold add_candidates at hc
  generalize s.candidates = start at hc ⊢
  induction batch generalizing start with
  | nil => exact .inl hc
  | cons hint rest ih =>
    rw [foldl_cons] at hc
    rcases ih _ hc with hbefore | hnew
    · split at hbefore
      · rename_i hkeep
        simp only [Bool.and_eq_true, Bool.not_eq_true'] at hkeep
        rcases mem_append.mp hbefore with hstart | hlast
        · exact .inl hstart
        rw [mem_singleton] at hlast
        subst hlast
        exact .inr ⟨hkeep.1.1.2, hkeep.1.2, rfl, hkeep.2⟩
      · exact .inl hbefore
    · exact .inr hnew

/-- The candidates of a batch were seen in it. -/
theorem query_page_batch_spec (h : Recorded system s) (hints : PageHints) (base a : Nat) (owner : AllocationProof) :
    Recorded system (s.query_page_batch system hints base a owner).1 ∧
      Grown s (s.query_page_batch system hints base a owner).1 ∧
      ∀ page, (s.query_page_batch system hints base a owner).2 = some page →
        ∃ n answers, n < (s.query_page_batch system hints base a owner).1.calls ∧
          system.pages n = some answers ∧ answers base = page := by
  unfold query_page_batch
  cases hanswer : system.pages s.calls with
  | none =>
    exact ⟨(called_kin s).recorded h, (called_kin s).grown, fun page hpage => by cases hpage⟩
  | some answers =>
    have hg : Grown s { s.called with
        candidates := s.add_candidates answers a (s.hinted system hints base owner) } :=
      ⟨⟨[], (append_nil _).symm⟩, fun _ hp => hp, fun _ hr => hr, Nat.le_succ _, fun hf => hf⟩
    refine ⟨h.extend hg (fun _ hm => .inl hm) (fun _ hp => .inl hp) ?_ fun _ hr => .inl hr, hg, ?_⟩
    · intro c hc
      exact (mem_add_candidates hc).imp_right fun hseen => ⟨s.calls, answers, Nat.lt_succ_self _, hanswer, hseen⟩
    · intro page hpage
      cases hpage
      exact ⟨s.calls, answers, Nat.lt_succ_self _, hanswer, rfl⟩

theorem find_allocation_spec (h : Recorded system s) (base type allocation : Nat) :
    Recorded system (s.find_allocation system base type allocation).1 ∧
      Grown s (s.find_allocation system base type allocation).1 ∧
      ∀ a owner, (s.find_allocation system base type allocation).2 = some a →
        (s.find_allocation system base type allocation).1.allocations[a]? = some owner →
        contains owner.base owner.size base system.page_size = true := by
  unfold find_allocation
  cases hfind : s.allocations.findIdx? (fun a => contains a.base a.size base system.page_size) with
  | some place =>
    refine ⟨h, Grown.refl s, fun a owner ha howner => ?_⟩
    cases ha
    obtain ⟨hlt, hcontains, -⟩ := List.findIdx?_eq_some_iff_getElem.mp hfind
    rw [List.getElem?_eq_getElem hlt, Option.some.injEq] at howner
    exact howner ▸ hcontains
  | none =>
    dsimp only
    split
    · exact ⟨h, Grown.refl s, fun a owner ha => by cases ha⟩
    cases hanswer : system.allocation s.calls base with
    | none => exact ⟨(called_kin s).recorded h, (called_kin s).grown, fun a owner ha => by cases ha⟩
    | some r =>
      dsimp only
      split
      · rename_i hgood
        simp only [Bool.and_eq_true] at hgood
        have hg : Grown s { s.called with
            allocations := s.allocations ++
              [{ base := r.base, size := r.size, protection := r.protection, type }] } :=
          ⟨⟨_, rfl⟩, fun _ hp => hp, fun _ hr => hr, Nat.le_succ _, fun hf => hf⟩
        refine ⟨h.extend hg ?_ (fun _ hp => .inl hp) (fun _ hc => .inl hc) fun _ hr => .inl hr, hg,
          fun a owner ha howner => ?_⟩
        · intro proof hproof
          rcases mem_append.mp hproof with hbefore | hnew
          · exact .inl hbefore
          rw [mem_singleton] at hnew
          subst hnew
          exact .inr ⟨s.calls, base, r, Nat.lt_succ_self _, hanswer, hgood.1.1, rfl, rfl, rfl⟩
        · cases ha
          simp only [List.getElem?_concat_length, Option.some.injEq] at howner
          rw [← howner]
          exact hgood.2
      · exact ⟨(called_kin s).recorded h, (called_kin s).grown, fun a owner ha => by cases ha⟩

/-- A page of an allocation is proven. -/
theorem record_page_spec (h : Recorded system s) {owner : AllocationProof} {candidates : List PageProof}
    (hseen : PageSeen system s.calls p) (howner : s.allocations[p.allocation]? = some owner)
    (hcontains : contains owner.base owner.size p.base system.page_size = true)
    (hkind : mismatched owner type allocation = false)
    (hbase : p.base = current - current % system.page_size)
    (hchunk : chunk ≤ system.page_size - current % system.page_size)
    (hcandidates : ∀ c ∈ candidates, c ∈ s.candidates) :
    Validates system s cold ({ s with pages := s.pages ++ [p], candidates := candidates }, .proven) type
      allocation current (current + chunk) := by
  have hg : Grown s { s with pages := s.pages ++ [p], candidates := candidates } :=
    ⟨⟨[], (append_nil _).symm⟩, fun _ hq => mem_append_left _ hq, fun _ hr => hr, le_refl _, fun hf => hf⟩
  refine ⟨h.extend hg (fun _ ha => .inl ha) ?_ (fun c hc => .inl (hcandidates c hc))
    fun _ hr => .inl hr, hg, fun _ x hfirst hlast => ?_, nofun, nofun⟩
  · intro q hq
    rcases mem_append.mp hq with hbefore | hnew
    · exact .inl hbefore
    rw [mem_singleton] at hnew
    subst hnew
    exact .inr ⟨hseen, owner, howner, hcontains⟩
  · refine .page p owner (mem_append_right _ (mem_singleton.mpr rfl)) howner ?_ hkind
    rw [page_base system.paged hchunk hfirst hlast]
    exact hbase

theorem page_route_spec (h : Recorded system s) {a : Nat} {owner : AllocationProof}
    (howner : s.allocations[a]? = some owner)
    (hcontains : contains owner.base owner.size base system.page_size = true)
    (hkind : mismatched owner type allocation = false)
    (hbase : base = current - current % system.page_size)
    (hchunk : chunk ≤ system.page_size - current % system.page_size) :
    Validates system s cold (s.page_route system hints cold base current chunk type allocation a owner) type
      allocation current (current + chunk) := by
  unfold page_route
  split
  · rename_i place c _ hfind
    have hmem := mem_of_find?_eq_some hfind
    have hsame : c.base = base := by simpa using List.find?_some hfind
    refine record_page_spec (p := { base := c.base, protection := c.protection, allocation := a }) h
      (h.candidates c hmem) howner (by rw [hsame]; exact hcontains) hkind (hsame.trans hbase) hchunk ?_
    intro other hother
    rcases mem_or_eq_of_mem_set (dropLast_subset _ hother) with hbefore | hlast
    · exact hbefore
    rw [hlast, getLastD_eq_getLast?]
    cases hl : s.candidates.getLast? with
    | none => exact hmem
    | some last => exact mem_of_getLast? hl
  obtain ⟨hrecorded, hgrown, hanswered⟩ := query_page_batch_spec h hints base a owner
  dsimp only
  cases hanswer : (s.query_page_batch system hints base a owner).2 with
  | none => exact (region_route_spec hrecorded current chunk).after hgrown
  | some page =>
    obtain ⟨n, answers, hn, hpages, hpage⟩ := hanswered page hanswer
    dsimp only
    split
    · rename_i hvalid
      split
      · exact Validates.of_refused (hgrown.trans (refuse_kin _ _ _).grown) ((refuse_kin _ _ _).recorded hrecorded) rfl
      rename_i hgood
      simp only [Bool.or_eq_true, Bool.not_eq_true', not_or, Bool.not_eq_true, Bool.not_eq_false] at hgood
      have hseen : PageSeen system (s.query_page_batch system hints base a owner).1.calls
          { base, protection := page.protection, allocation := a } :=
        ⟨n, answers, hn, hpages, by rw [hpage]; exact hvalid, by rw [hpage]; exact hgood.1, by rw [hpage], hgood.2⟩
      exact (record_page_spec hrecorded hseen (hgrown.owner howner) hcontains hkind hbase hchunk
        fun _ hc => hc).after hgrown
    split
    · rename_i hcold
      exact ⟨hrecorded, hgrown, nofun, nofun, fun _ => hcold⟩
    · exact (region_route_spec hrecorded current chunk).after hgrown

theorem prove_page_spec (h : Recorded system s) (hbase : base = current - current % system.page_size)
    (hchunk : chunk ≤ system.page_size - current % system.page_size) :
    Validates system s cold (s.prove_page system hints cold base current chunk type allocation) type
      allocation current (current + chunk) := by
  unfold prove_page
  split
  · exact region_route_spec h current chunk
  obtain ⟨hrecorded, hgrown, hfound⟩ := find_allocation_spec h base type allocation
  dsimp only
  split
  · exact (region_route_spec hrecorded current chunk).after hgrown
  rename_i a owner hbind
  simp only [Option.bind_eq_some_iff, Option.map_eq_some_iff, Prod.mk.injEq] at hbind
  obtain ⟨place, hplace, found, howner, rfl, rfl⟩ := hbind
  split
  · exact Validates.of_refused (hgrown.trans (refuse_kin _ _ _).grown) ((refuse_kin _ _ _).recorded hrecorded) rfl
  rename_i hkind
  rw [Bool.not_eq_true] at hkind
  exact (page_route_spec hrecorded howner (hfound _ _ hplace howner) hkind hbase hchunk).after hgrown

theorem validate_page_spec (h : Recorded system s) (hchunk : chunk ≤ system.page_size - current % system.page_size) :
    Validates system s cold (s.validate_page system hints cold current chunk type allocation) type allocation
      current (current + chunk) := by
  unfold validate_page
  dsimp only
  split
  · exact prove_page_spec h rfl hchunk
  rename_i p hfind
  have hsame : p.base = current - current % system.page_size := by simpa using List.find?_some hfind
  split
  · exact Validates.of_refused (refuse_kin _ _ _).grown ((refuse_kin _ _ _).recorded h) rfl
  rename_i owner howner
  split
  · exact Validates.of_refused (refuse_kin _ _ _).grown ((refuse_kin _ _ _).recorded h) rfl
  rename_i hkind
  rw [Bool.not_eq_true] at hkind
  refine ⟨h, Grown.refl s, fun _ x hfirst hlast => ?_, nofun, nofun⟩
  exact .page p owner (mem_of_find?_eq_some hfind) howner
    (hsame.trans (page_base system.paged hchunk hfirst hlast).symm) hkind

/-! ## The range -/

/-- A run over the pages of a range; every turn takes at least one byte. -/
theorem validate_from_spec (turns offset : Nat)
    {s : ScopedLocalMemoryQueryCache} (h : Recorded system s) (hturns : size ≤ turns + offset) :
    Validates system s cold (validate_from system hints cold address size type allocation turns offset s) type
      allocation (address + offset) (address + size) := by
  induction turns generalizing offset s with
  | zero =>
    refine ⟨h, Grown.refl s, fun _ x hfirst hlast => ?_, nofun, nofun⟩
    omega
  | succ turns ih =>
    unfold validate_from
    split
    · refine ⟨h, Grown.refl s, fun _ x hfirst hlast => ?_, nofun, nofun⟩
      omega
    rename_i hopen
    have hmod := Nat.mod_lt (address + offset) system.paged
    dsimp only
    generalize hchunk : min (size - offset) (system.page_size - (address + offset) % system.page_size) = chunk
    have hv : Validates system s cold
        (s.validate_page system hints cold (address + offset) chunk type allocation) type allocation
        (address + offset) (address + offset + chunk) := validate_page_spec h (by omega)
    split
    · rename_i hproven
      have hrest := ih (offset + chunk) hv.recorded (by omega)
      refine ⟨hrest.recorded, hv.grown.trans hrest.grown, fun hdone x hfirst hlast => ?_, hrest.refused, hrest.warm⟩
      by_cases hhere : x < address + offset + chunk
      · exact (hv.proven hproven x hfirst hhere).later hrest.grown
      · exact hrest.proven hdone x (by omega) hlast
    · rename_i hrefused
      exact ⟨hv.recorded, hv.grown, (fun hno => by rw [hrefused] at hno; cases hno), hv.refused, hv.warm⟩
    rename_i hcold
    exact ⟨hv.recorded, hv.grown, (fun hno => by rw [hcold] at hno; cases hno), hv.refused, hv.warm⟩

theorem validate_page_range_spec (h : Recorded system s) (hsize : 0 < size) (hfits : address + size ≤ UINTPTR_MAX) :
    Validates system s cold (s.validate_page_range system hints cold address size type allocation) type
      allocation address (address + size) := by
  unfold validate_page_range
  split
  · rename_i hno
    refine ⟨h, Grown.refl s, nofun, (fun _ => ?_), nofun⟩
    rcases hno with hfailed | hzero | hmax
    · exact hfailed
    · omega
    · omega
  · exact validate_from_spec size 0 h (le_refl _)

/-! ## What the end observes again -/

/-- A call of `[since, calls)` saw the allocation with the same base, size and protection. -/
def AllocationAgain (system : System) (since calls : Nat) (a : AllocationProof) : Prop :=
  ∃ n r, since ≤ n ∧ n < calls ∧ system.allocation n a.base = some r ∧ allocation_type r a.type = true ∧
    r.base = a.base ∧ r.size = a.size ∧ r.protection = a.protection

/-- A region of the page, with the allocation of the page. -/
structure PageRegion (system : System) (owner : AllocationProof) (p : PageProof) (r : Region) : Prop where
  inside : region_contains r p.base system.page_size = true
  state : r.state = MEM_COMMIT
  type : r.type = owner.type
  allocation_base : r.allocation_base = owner.base
  allocation_protect : r.allocation_protect = owner.protection
  protect : r.protect = p.protection

/-- A call saw the page with the same protection, in the working set or through its region. -/
def PageAgain (system : System) (since calls : Nat) (owner : AllocationProof) (p : PageProof) : Prop :=
  ∃ n, since ≤ n ∧ n < calls ∧
    ((∃ answers, system.pages n = some answers ∧ (answers p.base).valid = true ∧
        (answers p.base).bad = false ∧ (answers p.base).protection = p.protection) ∨
      ∃ r, system.region n p.base = some r ∧ PageRegion system owner p r)

/-- A call saw the region, or one with this end. -/
def RegionAgain (system : System) (since calls : Nat) (r : Region) : Prop :=
  ∃ n address wide, since ≤ n ∧ n < calls ∧ system.region n address = some wide ∧ suffix wide r.base = r

theorem AllocationAgain.later {later : Nat} (h : AllocationAgain system since calls a) (hle : calls ≤ later) :
    AllocationAgain system since later a := by
  obtain ⟨n, r, hsince, hn, hseen⟩ := h
  exact ⟨n, r, hsince, Nat.lt_of_lt_of_le hn hle, hseen⟩

theorem PageAgain.later {later : Nat} {owner : AllocationProof}
    (h : PageAgain system since calls owner p) (hle : calls ≤ later) :
    PageAgain system since later owner p := by
  obtain ⟨n, hsince, hn, hseen⟩ := h
  exact ⟨n, hsince, Nat.lt_of_lt_of_le hn hle, hseen⟩

theorem allocation_differs_none {r : Allocation} (h : allocation_differs a r = none) :
    allocation_type r a.type = true ∧ r.base = a.base ∧ r.size = a.size ∧ r.protection = a.protection := by
  unfold allocation_differs at h
  split at h
  · cases h
  rename_i htype
  split at h
  · cases h
  rename_i hbase
  split at h
  · cases h
  rename_i hsize
  split at h
  · cases h
  rename_i hprotection
  simp only [Bool.not_eq_true', Bool.not_eq_false, ne_eq, Decidable.not_not] at *
  exact ⟨htype, hbase, hsize, hprotection⟩

theorem region_differs_none {initial current : Region} (h : region_differs initial current = none) :
    current = initial := by
  unfold region_differs at h
  cases initial
  cases current
  repeat' split at h
  all_goals simp_all

/-- The allocations are all there at an end that does not fail. -/
theorem finish_allocations_spec (system : System) (since : Nat) (proofs : List AllocationProof)
    {s : ScopedLocalMemoryQueryCache} (hs : s.failed = false) (hsince : since ≤ s.calls) :
    Kin s (finish_allocations system proofs s) ∧
      ((finish_allocations system proofs s).failed = false →
        ∀ a ∈ proofs, AllocationAgain system since (finish_allocations system proofs s).calls a) := by
  induction proofs generalizing s with
  | nil => exact ⟨⟨rfl, rfl, rfl, rfl, le_refl _, fun hf => hf⟩, fun _ a ha => by cases ha⟩
  | cons a rest ih =>
    unfold finish_allocations
    cases hanswer : system.allocation s.calls a.base with
    | none => exact ⟨(called_kin s).trans (refuse_kin _ _ _), nofun⟩
    | some r =>
      dsimp only
      cases hdiffers : allocation_differs a r with
      | some field => exact ⟨(called_kin s).trans (refuse_kin _ _ _), nofun⟩
      | none =>
        obtain ⟨hkin, hrest⟩ := ih (s := s.called) hs (Nat.le_succ_of_le hsince)
        refine ⟨(called_kin s).trans hkin, fun hdone other hother => ?_⟩
        rcases mem_cons.mp hother with hhere | hlater
        · subst hhere
          have hnow : AllocationAgain system since s.called.calls other :=
            ⟨s.calls, r, hsince, Nat.lt_succ_self _, hanswer, allocation_differs_none hdiffers⟩
          exact hnow.later hkin.calls
        · exact hrest hdone other hlater

theorem endpoint_region_spec (system : System) (s : ScopedLocalMemoryQueryCache) (owner : AllocationProof) (p : PageProof) :
    Kin s (s.endpoint_region system owner p).1 ∧
      ((s.endpoint_region system owner p).2 = none → (s.endpoint_region system owner p).1.failed = true) ∧
      ((s.endpoint_region system owner p).2 = some p.protection →
        ∃ r, s.calls < (s.endpoint_region system owner p).1.calls ∧
          system.region s.calls p.base = some r ∧ PageRegion system owner p r) := by
  have hrefused : ∀ stage field, Kin s (s.called.refuse stage field) := fun stage field =>
    (called_kin s).trans (refuse_kin _ _ _)
  unfold endpoint_region
  cases hanswer : system.region s.calls p.base with
  | none => exact ⟨hrefused _ _, fun _ => rfl, nofun⟩
  | some r =>
    dsimp only
    split
    · exact ⟨hrefused _ _, fun _ => rfl, nofun⟩
    rename_i hcommitted
    split
    · exact ⟨hrefused _ _, fun _ => rfl, nofun⟩
    rename_i hbase
    simp only [not_or, Bool.not_eq_false, ne_eq, Decidable.not_not] at hcommitted hbase
    refine ⟨called_kin s, nofun, fun hsame => ⟨r, Nat.lt_succ_self _, rfl, ?_⟩⟩
    exact ⟨hcommitted.1, hcommitted.2.1, hcommitted.2.2, hbase.1, hbase.2, by simpa using hsame⟩

theorem endpoint_protection_spec (s : ScopedLocalMemoryQueryCache) (owner : AllocationProof) (p : PageProof)
    (hanswers : system.pages asked = answers) (hasked : since ≤ asked ∧ asked < s.calls)
    (hsince : since ≤ s.calls) :
    Kin s (s.endpoint_protection system answers owner p).1 ∧
      ((s.endpoint_protection system answers owner p).2 = none →
        (s.endpoint_protection system answers owner p).1.failed = true) ∧
      ((s.endpoint_protection system answers owner p).2 = some p.protection →
        PageAgain system since (s.endpoint_protection system answers owner p).1.calls owner p) := by
  have hregion : ∀ v, v = s.endpoint_region system owner p →
      Kin s v.1 ∧ (v.2 = none → v.1.failed = true) ∧
        (v.2 = some p.protection → PageAgain system since v.1.calls owner p) := fun v hv => by
    subst hv
    obtain ⟨hkin, hnone, hsome⟩ := endpoint_region_spec system s owner p
    refine ⟨hkin, hnone, fun hsame => ?_⟩
    obtain ⟨r, hlt, hr, hpage⟩ := hsome hsame
    exact ⟨s.calls, hsince, hlt, .inr ⟨r, hr, hpage⟩⟩
  unfold endpoint_protection
  cases answers with
  | none => exact hregion _ rfl
  | some answers =>
    dsimp only [Option.map]
    split
    · rename_i hvalid
      split
      · exact ⟨refuse_kin _ _ _, fun _ => rfl, nofun⟩
      rename_i hbad
      rw [Bool.not_eq_true] at hbad
      refine ⟨⟨rfl, rfl, rfl, rfl, le_refl _, fun hf => hf⟩, nofun, fun hsame => ?_⟩
      exact ⟨asked, hasked.1, hasked.2, .inl ⟨answers, hanswers, hvalid, hbad, by simpa using hsame⟩⟩
    · exact hregion _ rfl

theorem finish_page_list_spec (proofs : List PageProof) {s : ScopedLocalMemoryQueryCache}
    (hanswers : system.pages asked = answers) (hasked : since ≤ asked ∧ asked < s.calls) :
    Kin s (finish_page_list system answers proofs s) ∧
      ((finish_page_list system answers proofs s).failed = false →
        ∀ p ∈ proofs, ∃ owner, s.allocations[p.allocation]? = some owner ∧
          PageAgain system since (finish_page_list system answers proofs s).calls owner p) := by
  induction proofs generalizing s with
  | nil => exact ⟨⟨rfl, rfl, rfl, rfl, le_refl _, fun hf => hf⟩, fun _ p hp => by cases hp⟩
  | cons p rest ih =>
    unfold finish_page_list
    cases howner : s.allocations[p.allocation]? with
    | none => exact ⟨refuse_kin _ _ _, nofun⟩
    | some owner =>
      obtain ⟨hkin, hnone, hsome⟩ := endpoint_protection_spec s owner p hanswers hasked
        (le_trans hasked.1 (Nat.le_of_lt hasked.2))
      dsimp only
      cases hended : (s.endpoint_protection system answers owner p).2 with
      | none => exact ⟨hkin, fun hno => by rw [hnone hended] at hno; cases hno⟩
      | some protection =>
        dsimp only
        split
        · exact ⟨hkin.trans (refuse_kin _ _ _), nofun⟩
        rename_i hsame
        simp only [not_or, ne_eq, Decidable.not_not] at hsame
        rw [hsame.1] at hended
        obtain ⟨hrest, hall⟩ := ih (s := (s.endpoint_protection system answers owner p).1)
          ⟨hasked.1, Nat.lt_of_lt_of_le hasked.2 hkin.calls⟩
        refine ⟨hkin.trans hrest, fun hdone other hother => ?_⟩
        rcases mem_cons.mp hother with hhere | hlater
        · subst hhere
          exact ⟨owner, howner, (hsome hended).later hrest.calls⟩
        obtain ⟨found, hfound, hagain⟩ := hall hdone other hlater
        exact ⟨found, by rw [← hkin.allocations]; exact hfound, hagain⟩

theorem finish_pages_spec (system : System) (s : ScopedLocalMemoryQueryCache) (hs : s.failed = false) :
    Kin s (s.finish_pages system) ∧
      ((s.finish_pages system).failed = false →
        (∀ a ∈ s.allocations, AllocationAgain system s.calls (s.finish_pages system).calls a) ∧
        ∀ p ∈ s.pages, ∃ owner, s.allocations[p.allocation]? = some owner ∧
          PageAgain system s.calls (s.finish_pages system).calls owner p) := by
  obtain ⟨hkin, hall⟩ := finish_allocations_spec system s.calls s.allocations hs (le_refl _)
  unfold finish_pages
  dsimp only
  split
  · rename_i hends
    refine ⟨hkin, fun hdone => ⟨hall hdone, fun p hp => ?_⟩⟩
    rw [hdone, Bool.false_or, List.isEmpty_iff] at hends
    rw [hends] at hp
    cases hp
  rename_i hgoes
  have hchecked : (finish_allocations system s.allocations s).failed = false := by
    simp only [Bool.or_eq_true, not_or, Bool.not_eq_true] at hgoes
    exact hgoes.1
  have hasked : s.calls ≤ (finish_allocations system s.allocations s).calls ∧
      (finish_allocations system s.allocations s).calls < (finish_allocations system s.allocations s).called.calls :=
    ⟨hkin.calls, Nat.lt_succ_self _⟩
  obtain ⟨hrest, hpages⟩ := finish_page_list_spec s.pages rfl hasked
  have hcalled := (hkin.trans (called_kin _)).trans hrest
  refine ⟨hcalled, fun hdone => ⟨fun a ha => ?_, fun p hp => ?_⟩⟩
  · exact (hall hchecked a ha).later (le_trans (Nat.le_succ _) hrest.calls)
  · obtain ⟨owner, howner, hagain⟩ := hpages hdone p hp
    exact ⟨owner, by rw [← hkin.allocations]; exact howner, hagain⟩

theorem suffix_self (r : Region) : suffix r r.base = r := by
  unfold suffix
  rw [Nat.sub_self, Nat.sub_zero]

/-- The regions are all there at an end that does not fail. -/
theorem finish_regions_spec (system : System) (since : Nat) (regions : List Region) (fresh : Option Region)
    {s : ScopedLocalMemoryQueryCache} (hsince : since ≤ s.calls)
    (hfresh : ∀ wide, fresh = some wide →
      ∃ n address, since ≤ n ∧ n < s.calls ∧ system.region n address = some wide) :
    Kin s (finish_regions system fresh regions s) ∧
      ((finish_regions system fresh regions s).failed = false →
        ∀ r ∈ regions, RegionAgain system since (finish_regions system fresh regions s).calls r) := by
  induction regions generalizing fresh s with
  | nil => exact ⟨⟨rfl, rfl, rfl, rfl, le_refl _, fun hf => hf⟩, fun _ r hr => by cases hr⟩
  | cons initial rest ih =>
    unfold finish_regions
    split
    · rename_i hfailed
      exact ⟨⟨rfl, rfl, rfl, rfl, le_refl _, fun hf => hf⟩, fun hno => by rw [hfailed] at hno; cases hno⟩
    split
    · rename_i wide hwide
      have hsome : fresh = some wide := (Option.filter_eq_some_iff.mp hwide).1
      split
      · exact ⟨refuse_kin _ _ _, nofun⟩
      rename_i hsame
      obtain ⟨hkin, hrest⟩ := ih fresh hsince hfresh
      refine ⟨hkin, fun hdone r hr => ?_⟩
      rcases mem_cons.mp hr with hhere | hlater
      · subst hhere
        obtain ⟨n, address, hfrom, hn, hseen⟩ := hfresh wide hsome
        exact ⟨n, address, wide, hfrom, Nat.lt_of_lt_of_le hn hkin.calls, hseen, region_differs_none hsame⟩
      · exact hrest hdone r hlater
    cases hanswer : system.region s.calls initial.base with
    | none => exact ⟨(called_kin s).trans (refuse_kin _ _ _), nofun⟩
    | some current =>
      dsimp only
      cases hdiffers : region_differs initial current with
      | some field => exact ⟨(called_kin s).trans (refuse_kin _ _ _), nofun⟩
      | none =>
        have hsame := region_differs_none hdiffers
        obtain ⟨hkin, hrest⟩ := ih (some current) (s := s.called) (Nat.le_succ_of_le hsince)
          fun wide hwide => by
            cases hwide
            exact ⟨s.calls, _, hsince, Nat.lt_succ_self _, hanswer⟩
        refine ⟨(called_kin s).trans hkin, fun hdone r hr => ?_⟩
        rcases mem_cons.mp hr with hhere | hlater
        · subst hhere
          exact ⟨s.calls, _, current, hsince, Nat.lt_of_lt_of_le (Nat.lt_succ_self _) hkin.calls,
            hanswer, by rw [hsame]; exact suffix_self r⟩
        · exact hrest hdone r hlater

/-- Every record is there again at an end that does not fail. -/
structure Again (system : System) (s t : ScopedLocalMemoryQueryCache) : Prop where
  allocations : ∀ a ∈ s.allocations, AllocationAgain system s.calls t.calls a
  pages : ∀ p ∈ s.pages, ∃ owner, s.allocations[p.allocation]? = some owner ∧
    PageAgain system s.calls t.calls owner p
  regions : ∀ r ∈ s.regions, RegionAgain system s.calls t.calls r

theorem finish_failed (system : System) (s : ScopedLocalMemoryQueryCache) (hints : PageHints) (hs : s.failed = true) :
    (s.finish system hints).2.2 = false := by
  have hended : (finish_regions system none s.in_order s).failed = true :=
    (finish_regions_spec system s.calls s.in_order none (le_refl _) nofun).1.failed hs
  unfold finish
  simp [hs, hended]

theorem finish_again (s : ScopedLocalMemoryQueryCache) (hints : PageHints)
    (hfinish : (s.finish system hints).2.2 = true) : Again system s (s.finish system hints).1 := by
  have hs : s.failed = false := by
    cases hs : s.failed with
    | false => rfl
    | true =>
      rw [finish_failed system s hints hs] at hfinish
      cases hfinish
  unfold finish at hfinish ⊢
  simp only [hs, Bool.false_eq_true, if_false, Bool.not_eq_true'] at hfinish ⊢
  obtain ⟨hpaged, hpages⟩ := finish_pages_spec system s hs
  obtain ⟨hended, hregions⟩ := finish_regions_spec system s.calls s.in_order none
    (s := s.finish_pages system) hpaged.calls nofun
  have hmiddle : (s.finish_pages system).failed = false := by
    cases hm : (s.finish_pages system).failed with
    | false => rfl
    | true =>
      rw [hended.failed hm] at hfinish
      cases hfinish
  obtain ⟨hallocations, hproofs⟩ := hpages hmiddle
  refine ⟨fun a ha => (hallocations a ha).later hended.calls, fun p hp => ?_, fun r hr => ?_⟩
  · obtain ⟨owner, howner, hagain⟩ := hproofs p hp
    exact ⟨owner, howner, hagain.later hended.calls⟩
  · exact hregions hfinish r ((perm_insertionSort _ s.regions).mem_iff.mpr hr)

end ScopedLocalMemoryQueryCache

end taxi_camera.native_camera.local_memory
