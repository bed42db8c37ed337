-- Where `batch_overlay` puts the overlay: behind the last write that leaves
-- an insertable state, and else at the first proven exit with no write
-- behind it.
import TaxiCam.SubmissionProof

namespace taxi_camera.standalone

open PfdSubmissionProof List

/-! ## The lists of a batch -/

/-- List `i` of the batch has a suffix site for the display. -/
def SuffixAt (batch : List Recording) (key : Key) (i : Nat) : Prop :=
  ∃ r, batch[i]? = some r ∧ (r.proof.suffix_candidate key r.generation).is_site = true

/-- List `i` of the batch overwrote the display. -/
def OverwroteAt (batch : List Recording) (key : Key) (i : Nat) : Prop :=
  ∃ r, batch[i]? = some r ∧ r.proof.overwrote key r.generation = true

/-- No list that overwrote the display runs behind the overlay. -/
def RunsLast (batch : List Recording) (key : Key) (o : Overlay) : Prop :=
  o.is_site = true → ∀ j, OverwroteAt batch key j → if o.before then j < o.list else j ≤ o.list

/-- A list that overwrote the display behind a suffix site is a suffix site too, or a later
list is. -/
def LastWriteInsertable (batch : List Recording) (key : Key) : Prop :=
  ∀ i j, SuffixAt batch key i → i < j → OverwroteAt batch key j →
    ∃ k, j ≤ k ∧ SuffixAt batch key k

/-! ## The scan of the batch -/

theorem scan_append (key : Key) (i : Nat) (before after : List Recording) (s : Sites) :
    scan key i (before ++ after) s = scan key (i + before.length) after (scan key i before s) := by
  induction before generalizing i s with
  | nil => rfl
  | cons r rest ih =>
    simp only [cons_append, scan, length_cons]
    rw [ih, Nat.add_right_comm, Nat.add_assoc]

/-- Lists with no suffix site leave `write` as it is. -/
theorem scan_write_of_none (key : Key) (i : Nat) (l : List Recording) (s : Sites)
    (h : ∀ r ∈ l, (r.proof.suffix_candidate key r.generation).is_site = false) :
    (scan key i l s).write = s.write := by
  induction l generalizing i s with
  | nil => rfl
  | cons r rest ih =>
    rw [scan, ih _ _ (fun x hx => h x (mem_cons_of_mem _ hx))]
    simp [scan_list, h r mem_cons_self]

/-- `write` is the suffix site of the last list that has one. -/
theorem scan_write_of_last (key : Key) (before after : List Recording) (r : Recording) (s : Sites)
    (hr : (r.proof.suffix_candidate key r.generation).is_site = true)
    (h : ∀ x ∈ after, (x.proof.suffix_candidate key x.generation).is_site = false) :
    (scan key 0 (before ++ r :: after) s).write =
      ⟨r.proof.suffix_candidate key r.generation, before.length, false⟩ := by
  rw [scan_append, scan, scan_write_of_none _ _ _ _ h]
  simp [scan_list, hr]

variable {key : Key} {after batch before : List Recording} {last r : Recording}

/-- A batch with a suffix site has a last one. -/
theorem exists_last_suffix (hr : r ∈ batch) (hs : (r.proof.suffix_candidate key r.generation).is_site = true) :
    ∃ before last after, batch = before ++ last :: after ∧
      (last.proof.suffix_candidate key last.generation).is_site = true ∧
      ∀ x ∈ after, (x.proof.suffix_candidate key x.generation).is_site = false := by
  let test := fun x : Recording => (x.proof.suffix_candidate key x.generation).is_site
  obtain ⟨last, hlast⟩ : ∃ last, batch.reverse.find? test = some last := by
    rw [← Option.isSome_iff_exists, find?_isSome]
    exact ⟨r, mem_reverse.mpr hr, hs⟩
  obtain ⟨htest, after, before, hsplit, hnone⟩ := find?_eq_some_iff_append.mp hlast
  refine ⟨before.reverse, last, after.reverse, ?_, htest, ?_⟩
  · rw [← reverse_reverse batch, hsplit]
    simp
  · intro x hx
    simpa using hnone x (mem_reverse.mp hx)

theorem suffixAt_of_last {k : Nat} (h : ∀ x ∈ after, (x.proof.suffix_candidate key x.generation).is_site = false)
    (hk : SuffixAt (before ++ last :: after) key k) : k ≤ before.length := by
  obtain ⟨x, hx, hsite⟩ := hk
  by_contra hlt
  have hmem : x ∈ after := by
    rw [getElem?_append_right (by omega)] at hx
    obtain ⟨m, hm⟩ : ∃ m, k - before.length = m + 1 := ⟨k - before.length - 1, by omega⟩
    rw [hm, getElem?_cons_succ] at hx
    exact mem_of_getElem? hx
  rw [h x hmem] at hsite
  cases hsite

/-! ## The two ends of `batch_overlay` -/

theorem overlay_of_last_suffix (ha : batch_allows (before ++ last :: after) = true)
    (hlast : (last.proof.suffix_candidate key last.generation).is_site = true)
    (h : ∀ x ∈ after, (x.proof.suffix_candidate key x.generation).is_site = false) :
    batch_overlay (before ++ last :: after) key =
      ⟨last.proof.suffix_candidate key last.generation, before.length, false⟩ := by
  simp [batch_overlay, ha, scan_write_of_last key before after last {} hlast h, hlast]

/-- The lists that `batch_overlay` searches for an overwrite behind the safe site. -/
theorem mem_behind {safe : Overlay} {j : Nat} (hr : batch[j]? = some r)
    (hbehind : ¬ if safe.before then j < safe.list else j ≤ safe.list) :
    r ∈ batch.drop (safe.list + if safe.before then 0 else 1) := by
  have hle : (safe.list + if safe.before then 0 else 1) ≤ j := by
    cases hb : safe.before <;> simp only [hb, if_true, Bool.false_eq_true, if_false] at hbehind ⊢ <;>
      omega
  apply mem_iff_getElem?.mpr
  refine ⟨j - (safe.list + if safe.before then 0 else 1), ?_⟩
  rw [getElem?_drop, ← hr, Nat.add_sub_of_le hle]

/-- With no suffix site, the overlay is the safe site with no write behind it. -/
theorem runsLast_of_no_suffix (h : ∀ r ∈ batch, (r.proof.suffix_candidate key r.generation).is_site = false) :
    RunsLast batch key (batch_overlay batch key) := by
  intro hsite j ⟨r, hr, hover⟩
  have hnone : ({} : Sites).write.candidate.is_site = false := rfl
  simp only [batch_overlay, scan_write_of_none key 0 batch {} h, hnone, Bool.false_eq_true, if_false] at hsite ⊢
  by_cases hallow : batch_allows batch = true
  · simp only [hallow, Bool.not_true, Bool.false_eq_true, if_false] at hsite ⊢
    generalize (scan key 0 batch {}).safe = safe at hsite ⊢
    by_cases hclear : (safe.candidate.is_site &&
        (batch.drop (safe.list + if safe.before then 0 else 1)).any
          (fun r => r.proof.overwrote key r.generation)) = true
    · rw [if_pos hclear] at hsite
      simp [Overlay.is_site, Candidate.is_site, Key.named] at hsite
    rw [if_neg hclear] at hsite ⊢
    have hsafe : safe.candidate.is_site = true := (Bool.and_eq_true_iff.mp hsite).1
    rw [hsafe, Bool.true_and, Bool.not_eq_true, any_eq_false] at hclear
    by_contra hbehind
    exact hclear r (mem_behind hr hbehind) hover
  · simp [hallow, Overlay.is_site, Candidate.is_site, Key.named] at hsite

/-! ## The law -/

/-- The overlay runs behind every recorded write of the display exactly when the batch is
refused, or no list overwrites the display behind the last suffix site without an insertable
state of its own: `batch_overlay` looks for a later overwrite of a tail or prefix site, and
not of a suffix site. -/
theorem overlay_runs_last_iff_last_write_is_insertable (batch : List Recording) (key : Key) :
    RunsLast batch key (batch_overlay batch key) ↔ (batch_allows batch = true → LastWriteInsertable batch key) := by
  by_cases hsuffix : ∃ r ∈ batch, (r.proof.suffix_candidate key r.generation).is_site = true
  · obtain ⟨r, hr, hs⟩ := hsuffix
    obtain ⟨before, last, after, rfl, hlast, hnone⟩ := exists_last_suffix hr hs
    have hat : SuffixAt (before ++ last :: after) key before.length := ⟨last, by simp, hlast⟩
    by_cases ha : batch_allows (before ++ last :: after) = true
    · rw [overlay_of_last_suffix ha hlast hnone]
      constructor
      · intro hlaw _ i j _ hij hover
        have hle : j ≤ before.length := hlaw (by
          have hshort : before.length ≠ NO_LIST := by
            simp only [batch_allows, length_append, length_cons] at ha
            have : before.length + (after.length + 1) ≤ maximum_batch := by
              by_contra hlong
              simp [Nat.lt_of_not_le hlong] at ha
            unfold maximum_batch at this
            unfold NO_LIST
            omega
          simp [Overlay.is_site, hlast, hshort]) j hover
        exact ⟨before.length, hle, hat⟩
      · intro hcover _ j hover
        simp only [Bool.false_eq_true, if_false]
        by_contra hlt
        obtain ⟨k, hjk, hk⟩ := hcover ha before.length j hat (by omega) hover
        have := suffixAt_of_last hnone hk
        omega
    have hrefused : batch_overlay (before ++ last :: after) key = {} := by
      simp [batch_overlay, ha]
    rw [hrefused]
    exact ⟨fun _ h => absurd h ha, fun _ hsite => by
      simp [Overlay.is_site, Candidate.is_site, Key.named] at hsite⟩
  · push Not at hsuffix
    have hnone : ∀ r ∈ batch, (r.proof.suffix_candidate key r.generation).is_site = false :=
      fun r hr => by simpa using hsuffix r hr
    refine ⟨fun _ _ i j hi => ?_, fun _ => runsLast_of_no_suffix hnone⟩
    obtain ⟨r, hr, hsite⟩ := hi
    rw [hnone r (mem_of_getElem? hr)] at hsite
    cases hsite

/-- A UAV write that exits to a shader resource, and behind it a list that takes the display
to COPY_DEST: the overlay is placed between the two. -/
theorem overlay_is_left_in_front_of_a_copy_write : let display : Key := ⟨1, 1⟩
    let computed := recorded 1
      [.observe_legacy display .PIXEL_SHADER_RESOURCE .UNORDERED_ACCESS 0 0, .compute_work 14,
       .observe_legacy display .UNORDERED_ACCESS .PIXEL_SHADER_RESOURCE 0 0]
    let copied := recorded 1 [.observe_legacy display .PIXEL_SHADER_RESOURCE .COPY_DEST 0 0, .gpu_work 17 false]
    let o := batch_overlay [computed, copied] display
    (o.is_site = true ∧ o.list = 0 ∧ o.before = false) ∧ OverwroteAt [computed, copied] display 1 ∧
      ¬ RunsLast [computed, copied] display o := by
  intro display computed copied o
  have hsite : o.is_site = true ∧ o.list = 0 ∧ o.before = false := by decide
  have hover : OverwroteAt [computed, copied] display 1 := ⟨copied, rfl, by decide⟩
  refine ⟨hsite, hover, fun h => ?_⟩
  have := h hsite.1 1 hover
  rw [hsite.2.1, hsite.2.2] at this
  simp at this

end taxi_camera.standalone
