-- The sites of a batch, against the states that a valid stream of commands
-- really leaves its displays in: each is read off the invariant `Agrees` of
-- the recording that it comes from.
import TaxiCam.SubmissionStates

namespace taxi_camera.standalone

open PfdSubmissionProof ResourceStates List
open Candidate (is_site)

/-! ## The sites of one closed list -/

theorem slots_close (p : PfdSubmissionProof) (generation : Nat) (succeeded : Bool) :
    (p.close generation succeeded).slots = p.slots := by
  unfold close
  split <;> rfl

variable {key : Key} {batch l : List Recording} {generation i : Nat} {p : PfdSubmissionProof}
variable {r : Recording} {test : Slot → Bool}

theorem known_of_complete (h : r.proof.complete r.generation = true) : r.proof.known = true := by
  simp only [complete, Bool.and_eq_true] at h
  exact h.1.1.1.1

theorem known_of_close {succeeded : Bool} (h : (p.close generation succeeded).known = true) : p.known = true := by
  unfold close at h
  split at h
  · simp at h
  · exact h

/-- The slots of a complete recording agree with the states around its list. -/
theorem agrees_recording (mip_levels : Key → Nat) {d : Displays} {l : CommandList}
    (hv : runs.Guarded Command.effect Command.Valid d l.commands)
    (hc : (l.recording mip_levels).proof.complete (l.recording mip_levels).generation = true) :
    Agrees d (l.effect d) (fun k => ∃ c ∈ l.commands, c.Names k)
      (fun k => ∃ c ∈ l.commands, c.Writes k) (l.recording mip_levels).proof.slots := by
  have hopened : Tracks d d (fun _ => False) (fun _ => False) (l.ledger.reset l.generation l.observed) :=
    fun _ => ⟨nofun, nodup_nil, fun _ _ => rfl, nofun, nofun⟩
  have hrun := tracks_run mip_levels l.commands hopened hv
  have hagrees := hrun (known_of_close (known_of_complete hc))
  rw [CommandList.recording, slots_close]
  exact hagrees.weaken (fun k hk => .inr hk) fun k hk => .inr hk

/-- A site is the place of a slot of its key. -/
theorem slot_of_site (h : (p.site_of test key generation).is_site = true) :
    ∃ s ∈ p.slots, s.key = key ∧ test s = true ∧
      p.site_of test key generation = ⟨s.key, generation, s.first_before, s.after, s.subresource⟩ := by
  unfold site_of at h ⊢
  split at h
  · rename_i s hs
    have htest := List.find?_some hs
    simp only [Bool.and_eq_true, beq_iff_eq] at htest
    exact ⟨s, mem_of_find?_eq_some hs, htest.1, htest.2, rfl⟩
  · simp [is_site, Key.named] at h

/-- A slot that agrees gives a true state behind its list. -/
theorem site_state {entry now : Displays} {named written : Key → Prop} (h : Agrees entry now named written p.slots)
    (hsite : (p.site_of test key generation).is_site = true) :
    (p.site_of test key generation).state_after = now key := by
  obtain ⟨s, hs, rfl, -, heq⟩ := slot_of_site hsite
  rw [heq]
  exact (h.slot s hs).after

/-- The sites of the candidates are slots of a complete recording. -/
theorem sites_of_candidates (r : Recording) (key : Key) {c : Candidate}
    (hc : c = r.proof.candidate key r.generation ∨ c = r.proof.suffix_candidate key r.generation)
    (hsite : c.is_site = true) :
    r.proof.complete r.generation = true ∧ ∃ test, c = r.proof.site_of test key r.generation := by
  rcases hc with rfl | rfl
  · unfold candidate at hsite ⊢
    split at hsite
    · rename_i h
      rw [if_pos h]
      exact ⟨(Bool.and_eq_true_iff.mp h).1, _, rfl⟩
    · simp [is_site, Key.named] at hsite
  unfold suffix_candidate at hsite ⊢
  split at hsite
  · rename_i h
    rw [if_pos h]
    exact ⟨h, _, rfl⟩
  · simp [is_site, Key.named] at hsite

section
variable {mip_levels : Key → Nat} {d : Displays} {batch : List CommandList} {key : Key} {i : Nat}
  {l : CommandList}

theorem agrees_at (hv : ValidBatch d batch) (hl : batch[i]? = some l)
    (hc : (l.recording mip_levels).proof.complete (l.recording mip_levels).generation = true) :
    Agrees (statesBefore d batch i) (statesBefore d batch (i + 1))
      (fun k => ∃ c ∈ l.commands, c.Names k) (fun k => ∃ c ∈ l.commands, c.Writes k)
      (l.recording mip_levels).proof.slots := by
  have hlist := runs.guarded_at hv hl
  unfold statesBefore
  rw [runs.run_take_succ hl]
  exact agrees_recording mip_levels hlist hc

/-- A tail or suffix site names the state behind its list. -/
theorem tail_state (hv : ValidBatch d batch) (hl : batch[i]? = some l) {c : Candidate}
    (hc : c = (l.recording mip_levels).proof.candidate key (l.recording mip_levels).generation ∨
      c = (l.recording mip_levels).proof.suffix_candidate key (l.recording mip_levels).generation)
    (hsite : c.is_site = true) : statesBefore d batch (i + 1) key = c.state_after := by
  obtain ⟨hcomplete, test, rfl⟩ := sites_of_candidates _ key hc hsite
  exact (site_state (agrees_at hv hl hcomplete) hsite).symm

/-- A prefix site is in front of a list that finds the display in RENDER_TARGET. -/
theorem prefix_state (hv : ValidBatch d batch) (hl : batch[i]? = some l)
    (hsite : ((l.recording mip_levels).proof.prefix_candidate key
      (l.recording mip_levels).generation).is_site = true) :
    statesBefore d batch i key = RENDER_TARGET := by
  unfold prefix_candidate at hsite
  split at hsite
  · rename_i hcomplete
    have hagrees := agrees_at hv hl hcomplete
    obtain ⟨s, hs, rfl, htest, -⟩ := slot_of_site hsite
    rw [← (hagrees.slot s hs).first]
    exact (hagrees.slot s hs).exit (Bool.and_eq_true_iff.mp htest).2
  · simp [is_site, Key.named] at hsite

/-- A row of the settlements has the state behind its list. -/
theorem settlement_state (hv : ValidBatch d batch) (hl : batch[i]? = some l) {capacity : Nat} {row : Settlement}
    (hrow : row ∈ (l.recording mip_levels).proof.settlements (l.recording mip_levels).generation capacity) :
    statesBefore d batch (i + 1) row.key = row.after := by
  unfold settlements at hrow
  split at hrow
  · cases hrow
  rename_i hcomplete
  have hcomplete : (l.recording mip_levels).proof.complete
      (l.recording mip_levels).generation = true := by simpa using hcomplete
  obtain ⟨s, hs, rfl⟩ := mem_map.mp (mem_of_mem_take hrow)
  exact ((agrees_at hv hl hcomplete).slot s (mem_filter.mp hs).1).after.symm

end

/-! ## The sites of a batch -/

theorem complete_of_allows (h : batch_allows batch = true) : ∀ r ∈ batch, r.proof.complete r.generation = true := by
  unfold batch_allows at h
  split at h
  · cases h
  · exact all_eq_true.mp h

/-- An overlay with a site is a tail, prefix or suffix site of its list. -/
def Placed (batch : List Recording) (key : Key) (o : Overlay) : Prop :=
  o.candidate.is_site = true → ∃ r, batch[o.list]? = some r ∧
    if o.before then o.candidate = r.proof.prefix_candidate key r.generation
    else o.candidate = r.proof.candidate key r.generation ∨
      o.candidate = r.proof.suffix_candidate key r.generation

theorem placed_none (batch : List Recording) (key : Key) : Placed batch key {} := by
  intro h
  simp [is_site, Key.named] at h

theorem placed_scan_list {s : Sites}
    (hr : batch[i]? = some r) (h : Placed batch key s.write ∧ Placed batch key s.safe) :
    Placed batch key (scan_list key i r s).write ∧ Placed batch key (scan_list key i r s).safe := by
  unfold scan_list
  refine ⟨?_, ?_⟩
  · dsimp only
    split
    · exact fun _ => ⟨r, hr, by simp⟩
    · exact h.1
  · dsimp only
    split
    · exact h.2
    split
    · exact fun _ => ⟨r, hr, by simp⟩
    split
    · exact fun _ => ⟨r, hr, by simp⟩
    · exact h.2

theorem placed_scan (key : Key) (before after : List Recording) (s : Sites)
    (h : Placed (before ++ after) key s.write ∧ Placed (before ++ after) key s.safe) :
    Placed (before ++ after) key (scan key before.length after s).write ∧
      Placed (before ++ after) key (scan key before.length after s).safe := by
  induction after generalizing before s with
  | nil => exact h
  | cons r rest ih =>
    have hstep := placed_scan_list (i := before.length) (r := r) (by simp) h
    have := ih (before ++ [r]) (scan_list key before.length r s) (by simpa using hstep)
    simpa [scan] using this

theorem overlay_cases (batch : List Recording) (key : Key) :
    batch_overlay batch key = {} ∨ batch_overlay batch key = (scan key 0 batch {}).write ∨
      batch_overlay batch key = (scan key 0 batch {}).safe := by
  simp only [batch_overlay]
  split_ifs <;> simp

theorem placed_overlay (batch : List Recording) (key : Key) : Placed batch key (batch_overlay batch key) := by
  have hscan := placed_scan key [] batch {} ⟨placed_none _ key, placed_none _ key⟩
  rcases overlay_cases batch key with h | h | h <;> rw [h]
  · exact placed_none batch key
  · exact hscan.1
  · exact hscan.2

/-- The entry is the first list with a slot of the display that was written. -/
theorem first_entry_spec (h : (first_entry key i l).is_site = true) :
    ∃ before r after, l = before ++ r :: after ∧ (first_entry key i l).list = i + before.length ∧
      (∃ s ∈ r.proof.slots, s.key = key ∧ (first_entry key i l).state = s.first_before) ∧
      ∀ x ∈ before, ∀ s ∈ x.proof.slots, s.key = key → s.seen = true → s.wrote = false := by
  induction l generalizing i with
  | nil => simp [first_entry, Entry.is_site] at h
  | cons r rest ih =>
    unfold first_entry at h ⊢
    split at h
    · rename_i s hs
      have htest := List.find?_some hs
      simp only [Bool.and_eq_true, beq_iff_eq] at htest
      exact ⟨[], r, rest, rfl, rfl, ⟨s, mem_of_find?_eq_some hs, htest.1.1, rfl⟩, nofun⟩
    rename_i hnone
    obtain ⟨before, r', after, rfl, hlist, hslot, hbefore⟩ := ih h
    refine ⟨r :: before, r', after, rfl, by rw [hlist, length_cons]; omega, hslot, ?_⟩
    intro x hx s hs hkey hseen
    rcases mem_cons.mp hx with rfl | hx
    · have := List.find?_eq_none.mp hnone s hs
      simpa [hkey, hseen] using this
    · exact hbefore x hx s hs hkey hseen

/-- The last list that names the display, counted from the back. -/
theorem last_after_spec (h : (last_after key l).known = true) :
    ∃ before r after, l = before ++ r :: after ∧
      (∃ s ∈ r.proof.slots, s.key = key ∧ (last_after key l).state = s.after) ∧
      ∀ x ∈ before, ∀ s ∈ x.proof.slots, s.seen = true → s.key ≠ key := by
  induction l with
  | nil => simp [last_after] at h
  | cons r rest ih =>
    unfold last_after at h ⊢
    split at h
    · rename_i s hs
      have htest := List.find?_some hs
      simp only [Bool.and_eq_true, beq_iff_eq] at htest
      exact ⟨[], r, rest, rfl, ⟨s, mem_of_find?_eq_some hs, htest.1, rfl⟩, nofun⟩
    rename_i hnone
    obtain ⟨before, r', after, rfl, hslot, hbefore⟩ := ih h
    refine ⟨r :: before, r', after, rfl, hslot, ?_⟩
    intro x hx s hs hseen hkey
    rcases mem_cons.mp hx with rfl | hx
    · have := List.find?_eq_none.mp hnone s hs
      simp [hkey, hseen] at this
    · exact hbefore x hx s hs hseen hkey

section
variable {mip_levels : Key → Nat} {d : Displays} {batch : List CommandList} {key : Key}

/-- Every list of the batch is complete. -/
def AllComplete (mip_levels : Key → Nat) (batch : List CommandList) : Prop :=
  ∀ l ∈ batch, (l.recording mip_levels).proof.complete (l.recording mip_levels).generation = true

theorem allComplete_of_allows (h : batch_allows (batch.map (CommandList.recording mip_levels)) = true) :
    AllComplete mip_levels batch :=
  fun _ hl => complete_of_allows h _ (mem_map_of_mem hl)

/-- Lists with no slot of the display leave it in its state. -/
theorem unchanged_from (key : Key) (hv : ValidBatch d batch) (hall : AllComplete mip_levels batch) {i : Nat}
    (hquiet : ∀ j l, i ≤ j → batch[j]? = some l → ∀ s ∈ (l.recording mip_levels).proof.slots, s.key ≠ key) (n : Nat) :
    statesBefore d batch (i + n) key = statesBefore d batch i key := by
  induction n with
  | zero => rfl
  | succ n ih =>
    rw [← ih, ← Nat.add_assoc]
    rcases hl : batch[i + n]? with _ | l
    · unfold statesBefore
      rw [take_add_one, hl, Option.toList_none, append_nil]
    have hagrees := agrees_at hv hl (hall l (mem_of_getElem? hl))
    exact hagrees.untouched key (hquiet (i + n) l (Nat.le_add_right i n) hl)

end

/-! ## The law -/

/-- The sites of a batch name the states that its lists really leave the display in. -/
structure SitesTrue (mip_levels : Key → Nat) (d : Displays) (batch : List CommandList) (key : Key) :
    Prop where
  prefixed : ∀ i l, batch[i]? = some l →
    ((l.recording mip_levels).proof.prefix_candidate key l.generation).is_site = true →
    statesBefore d batch i key = RENDER_TARGET
  tail : ∀ i l, batch[i]? = some l →
    ((l.recording mip_levels).proof.candidate key l.generation).is_site = true →
    statesBefore d batch (i + 1) key =
      ((l.recording mip_levels).proof.candidate key l.generation).state_after
  suffix : ∀ i l, batch[i]? = some l →
    ((l.recording mip_levels).proof.suffix_candidate key l.generation).is_site = true →
    statesBefore d batch (i + 1) key =
      ((l.recording mip_levels).proof.suffix_candidate key l.generation).state_after
  settlement : ∀ i l capacity row, batch[i]? = some l →
    row ∈ (l.recording mip_levels).proof.settlements l.generation capacity →
    statesBefore d batch (i + 1) row.key = row.after
  overlay : ∀ o, batch_overlay (batch.map (CommandList.recording mip_levels)) key = o →
    o.is_site = true → o.list < batch.length ∧
      if o.before then statesBefore d batch o.list key = RENDER_TARGET
      else statesBefore d batch (o.list + 1) key = o.candidate.state_after
  /-- The entry is in front of the first list with a draw or a clear of the display. -/
  entry : ∀ e, batch_entry (batch.map (CommandList.recording mip_levels)) key = e →
    e.is_site = true → e.list < batch.length ∧ statesBefore d batch e.list key = e.state ∧
      ∀ l ∈ batch.take e.list, ∀ c ∈ l.commands, ¬ c.Writes key
  after : ∀ a, batch_after (batch.map (CommandList.recording mip_levels)) key = a →
    a.known = true → statesBefore d batch batch.length key = a.state
  /-- No list names the display, so that it keeps the state that earlier work left. -/
  carried : ∀ carried,
    (carried_overlay (batch.map (CommandList.recording mip_levels)) key carried).is_site = true →
    (∀ l ∈ batch, ∀ c ∈ l.commands, ¬ c.Names key) ∧
      statesBefore d batch batch.length key = d key

section
variable {mip_levels : Key → Nat} {d : Displays} {batch : List CommandList} {key : Key}

theorem overlay_state (hv : ValidBatch d batch) {o : Overlay}
    (ho : batch_overlay (batch.map (CommandList.recording mip_levels)) key = o)
    (hsite : o.is_site = true) :
    o.list < batch.length ∧ if o.before then statesBefore d batch o.list key = RENDER_TARGET
      else statesBefore d batch (o.list + 1) key = o.candidate.state_after := by
  have hcandidate : o.candidate.is_site = true := (Bool.and_eq_true_iff.mp hsite).1
  obtain ⟨r, hr, hplace⟩ := ho ▸ placed_overlay _ key <| hcandidate
  rw [List.getElem?_map, Option.map_eq_some_iff] at hr
  obtain ⟨l, hl, rfl⟩ := hr
  refine ⟨(List.getElem?_eq_some_iff.mp hl).1, ?_⟩
  split at hplace
  · rename_i hbefore
    rw [if_pos hbefore]
    exact prefix_state hv hl (hplace ▸ hcandidate)
  rename_i hbehind
  rw [if_neg hbehind]
  exact tail_state hv hl hplace hcandidate

theorem entry_state (hv : ValidBatch d batch) {e : Entry}
    (he : batch_entry (batch.map (CommandList.recording mip_levels)) key = e)
    (hsite : e.is_site = true) :
    e.list < batch.length ∧ statesBefore d batch e.list key = e.state ∧
      ∀ l ∈ batch.take e.list, ∀ c ∈ l.commands, ¬ c.Writes key := by
  subst he
  unfold batch_entry at hsite ⊢
  split at hsite
  · simp [Entry.is_site] at hsite
  rename_i hallow
  rw [if_neg hallow]
  simp only [Bool.or_eq_true, Bool.not_eq_true', not_or, Bool.not_eq_false] at hallow
  have hall := allComplete_of_allows hallow.1
  obtain ⟨before, r, after, hsplit, hlist, ⟨s, hs, hkey, hstate⟩, hquiet⟩ := first_entry_spec hsite
  rw [hstate, hlist, Nat.zero_add]
  obtain ⟨front, tail, rfl, rfl, htail⟩ := map_eq_append_iff.mp hsplit
  obtain ⟨l, rest, rfl, rfl, rfl⟩ := map_eq_cons_iff.mp htail
  rw [length_map]
  have hl : (front ++ l :: rest)[front.length]? = some l := by simp
  have hagrees := agrees_at hv hl (hall l (by simp))
  refine ⟨by simp, ?_, ?_⟩
  · rw [(hagrees.slot s hs).first, hkey]
  · intro x hx c hc hw
    rw [take_left'] at hx
    · obtain ⟨j, hj⟩ := mem_iff_getElem?.mp hx
      have hat : (front ++ l :: rest)[j]? = some x := by
        rw [List.getElem?_append_left (List.getElem?_eq_some_iff.mp hj).1, hj]
      have hx' := agrees_at hv hat (hall x (by simp [hx]))
      obtain ⟨t, ht, htk, htw⟩ := hx'.written key ⟨c, hc, hw⟩ hallow.2
      have := hquiet _ (mem_map_of_mem hx) t ht htk (hx'.slot t ht).seen
      rw [htw] at this
      cases this
    · rfl

theorem after_state (hv : ValidBatch d batch) {a : After}
    (ha : batch_after (batch.map (CommandList.recording mip_levels)) key = a)
    (hknown : a.known = true) : statesBefore d batch batch.length key = a.state := by
  subst ha
  unfold batch_after at hknown ⊢
  split at hknown
  · cases hknown
  rename_i hallow
  rw [if_neg hallow]
  simp only [Bool.or_eq_true, Bool.not_eq_true', not_or, Bool.not_eq_false] at hallow
  have hall := allComplete_of_allows hallow.1
  obtain ⟨before, r, after, hsplit, ⟨s, hs, hkey, hstate⟩, hquiet⟩ := last_after_spec hknown
  rw [reverse_eq_iff, reverse_append, reverse_cons, append_assoc, singleton_append] at hsplit
  obtain ⟨front, tail, rfl, hfront, htail⟩ := map_eq_append_iff.mp hsplit
  obtain ⟨l, rest, rfl, rfl, hrest⟩ := map_eq_cons_iff.mp htail
  have hl : (front ++ l :: rest)[front.length]? = some l := by simp
  have hagrees := agrees_at hv hl (hall l (by simp))
  have hlater := unchanged_from key hv hall (i := front.length + 1)
    (fun j x hj hx t ht hk => by
      have hmem : x ∈ rest := by
        rw [List.getElem?_append_right (by omega)] at hx
        obtain ⟨n, hn⟩ : ∃ n, j - front.length = n + 1 := ⟨j - front.length - 1, by omega⟩
        rw [hn, List.getElem?_cons_succ] at hx
        exact mem_of_getElem? hx
      have hat := agrees_at hv hx (hall x (by simp [hmem]))
      have hback : x.recording mip_levels ∈ before := by
        rw [← mem_reverse, ← hrest]
        exact mem_map_of_mem hmem
      exact hquiet _ hback t ht (hat.slot t ht).seen hk) rest.length
  have hlength : (front ++ l :: rest).length = front.length + 1 + rest.length := by
    rw [length_append, length_cons]; omega
  rw [hlength, hlater, hstate, (hagrees.slot s hs).after, hkey]

theorem carried_state (hv : ValidBatch d batch) {carried : ResourceStates}
    (hsite : (carried_overlay (batch.map (CommandList.recording mip_levels)) key carried).is_site = true) :
    (∀ l ∈ batch, ∀ c ∈ l.commands, ¬ c.Names key) ∧ statesBefore d batch batch.length key = d key := by
  unfold carried_overlay at hsite
  split at hsite
  · simp [Overlay.is_site, is_site, Key.named] at hsite
  rename_i hallow
  simp only [Bool.or_eq_true, Bool.not_eq_true', not_or, Bool.not_eq_false] at hallow
  have hall := allComplete_of_allows hallow.1.1
  split at hsite
  · simp [Overlay.is_site, is_site, Key.named] at hsite
  rename_i hmentions
  have hresource : key.resource ≠ 0 := by
    have := hallow.1.2
    simp only [Key.named, Bool.and_eq_true, bne_iff_ne] at this
    exact this.1
  have hquiet : ∀ (j : Nat) (l : CommandList), batch[j]? = some l →
      ∀ s ∈ (l.recording mip_levels).proof.slots, s.key ≠ key := by
    intro j l hl s hs hk
    have hmem := mem_of_getElem? hl
    have hagrees := agrees_at hv hl (hall l hmem)
    refine hmentions (any_eq_true.mpr ⟨_, mem_map_of_mem hmem, ?_⟩)
    simp only [mentions, hall l hmem, Bool.not_true, Bool.false_or, beq_iff_eq, hresource, if_false, any_eq_true]
    exact ⟨s, hs, by simp [(hagrees.slot s hs).seen, hk]⟩
  refine ⟨?_, ?_⟩
  · intro l hl c hc hn
    obtain ⟨j, hj⟩ := mem_iff_getElem?.mp hl
    have hagrees := agrees_at hv hj (hall l hl)
    obtain ⟨s, hs, hk⟩ := hagrees.named key ⟨c, hc, hn⟩ hallow.1.2
    exact hquiet j l hj s hs hk
  · have := unchanged_from key hv hall (i := 0) (fun j l _ hl => hquiet j l hl) batch.length
    rwa [Nat.zero_add] at this

end

/-- Every site of a valid batch names the state that the base mip of the display is really in
at the place of the site. -/
theorem every_site_names_the_state_of_the_base_mip (mip_levels : Key → Nat) (d : Displays)
    (batch : List CommandList) (key : Key) (h : ValidBatch d batch) :
    SitesTrue mip_levels d batch key :=
  ⟨fun _ _ hl => prefix_state h hl, fun _ _ hl => tail_state h hl (Or.inl rfl),
    fun _ _ hl => tail_state h hl (Or.inr rfl), fun _ _ _ _ hl => settlement_state h hl,
    fun _ => overlay_state h, fun _ => entry_state h, fun _ => after_state h,
    fun _ => carried_state h⟩

/-- The display is drawn in RENDER_TARGET and leaves it in the first list, and a barrier of
the second list returns it. -/
theorem sites_of_an_exit_and_a_return :
    SitesTrue (fun _ => 1) (fun _ => RENDER_TARGET)
      [⟨{}, 1, [.barrier (.transition ⟨1, 1⟩ RENDER_TARGET PIXEL_SHADER_RESOURCE 0 0), .draw []], true, true⟩,
        ⟨{}, 1, [.barrier (.transition ⟨1, 1⟩ PIXEL_SHADER_RESOURCE RENDER_TARGET 0 0),
          .draw [⟨1, 1⟩]], true, true⟩] ⟨1, 1⟩ :=
  every_site_names_the_state_of_the_base_mip _ _ _ _
    ⟨⟨fun _ => rfl, nofun, trivial⟩, ⟨fun _ => rfl, by
      intro key hk
      rw [mem_singleton.mp hk]
      rfl, trivial⟩, trivial⟩

/-- A dispatch names no resource to the ledger: over a display that an earlier list left in
UNORDERED_ACCESS, a batch that only dispatches to it has a carried site. -/
theorem carried_overlay_does_not_see_a_dispatch : let display : Key := ⟨1, 1⟩
    let d : Displays := fun _ => UNORDERED_ACCESS
    let batch : List CommandList := [⟨{}, 1, [.dispatch [display]], true, true⟩]
    ValidBatch d batch ∧
      (carried_overlay (batch.map (CommandList.recording fun _ => 1)) display UNORDERED_ACCESS).is_site = true ∧
      ∃ l ∈ batch, ∃ c ∈ l.commands, c.Uses display := by
  intro display d batch
  refine ⟨⟨⟨fun _ _ => rfl, trivial⟩, trivial⟩, by decide, ?_⟩
  exact ⟨_, mem_singleton_self _, _, mem_singleton_self _, mem_singleton_self _⟩

end taxi_camera.standalone
