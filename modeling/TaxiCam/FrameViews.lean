-- Every call of the frame output keeps its invariant, and what follows for
-- the views that it gives out and for the buffers that it keeps.
import TaxiCam.FramePatches

namespace taxi_camera.SceneFrameOutput

open List

variable {d : Platform} {s s' : SceneFrameOutput} {i j : Fin 8}

/-! ## The invariant of a run -/

/-- Between two calls: until something fails, every slot says the truth, and only a prepared
list has recorded slots. -/
structure Good (d : Platform) (s : SceneFrameOutput) : Prop where
  held : Held s
  shown : s.failed = false → ∀ j, Shown d s j
  rests : s.failed = false → s.prepared = false → ∀ j, (s.patches j).recorded = false

theorem good_empty : Good d {} where
  held := held_empty
  shown _ _ := shown_unmarked rfl rfl (fun _ => rfl) nofun
  rests _ _ _ := rfl

theorem good_of_broken (h : Broken s) : Good d s where
  held := h.held
  shown hf := by
    rw [h.failed] at hf
    cases hf
  rests hf := by
    rw [h.failed] at hf
    cases hf

theorem Good.fail (h : Good d s) (error : String) : Good d (s.fail error) := good_of_broken (broken_fail h.held error)

/-- A call that changes nothing that the slots say. -/
theorem Good.same (h : Good d s) (hheld : Held s') (hp : s'.patches = s.patches)
    (hc : s.created <+: s'.created) (hl : s'.list = s.list) (hlog : s'.log = s.log)
    (hprepared : s'.prepared = s.prepared) (hf : s'.failed = s.failed) : Good d s' where
  held := hheld
  shown hok j := (h.shown (hf ▸ hok) j).frame [] _ (by rw [hp]) hc (fun _ hcm => hl ▸ hcm)
    (fun _ hcm => .inl (hl ▸ hcm)) (hlog.trans (append_nil _).symm) (leaves_nil _)
  rests hok hprep j := by
    rw [hp]
    exact h.rests (hf ▸ hok) (hprepared ▸ hprep) j

/-! ## Preparing -/

/-- A new list starts without copies, while no slot is recorded. -/
theorem Shown.cleared (h : Shown d s j) (hr : (s.patches j).recorded = false) : Shown d { s with list := [] } j where
  empty := h.empty
  layout := h.layout
  marked := h.marked
  listed hrec := by
    rw [hr] at hrec
    cases hrec
  agrees _ _ _ _ hc := by cases hc
  wrote hw b hb := (h.wrote hw b hb).frame [] (prefix_refl _) (append_nil _).symm not_mem_nil not_mem_nil nofun

theorem Good.prepare_list (h : Good d s) (hf : s.failed = false) (hp : s.prepared = false)
    (catalog : profiles.Catalog) (errors : PrepareErrors) (o : PrepareOutcome) :
    Good d (SceneFrameOutput.prepare_list d catalog errors s o).1 := by
  have hheld : Held { s with list := [] } := h.held.same (fun _ => same_refl _) rfl rfl rfl id (fun _ ht => .inl ht)
  have hstart : Preparing d { s with list := [] } (List.finRange 8) := by
    refine ⟨hheld, fun j => (h.shown hf j).cleared (h.rests hf hp j), nofun, fun i _ => ?_⟩
    exact h.rests hf hp i
  obtain ⟨herror, hok⟩ := prepare_patches_preparing catalog o.slots (nodup_finRange 8) hstart
  unfold SceneFrameOutput.prepare_list
  split
  · exact h.fail _
  split
  · exact h.same (h.held.same (fun _ => same_refl _) rfl rfl rfl id (fun _ ht => .inl ht))
      rfl (prefix_refl _) rfl rfl rfl rfl
  split
  · exact h.fail _
  split
  · exact good_of_broken (broken_fail hheld _)
  split
  · rename_i e he
    have hb := herror e he
    split
    · exact good_of_broken (broken_fail hb.held _)
    · exact good_of_broken hb
  rename_i t ht
  have hprep := hok t ht
  split
  · exact good_of_broken (broken_fail hprep.held _)
  refine ⟨hprep.held.same (fun _ => same_refl _) rfl rfl rfl id fun _ hx => .inl hx, fun _ j => ?_, nofun⟩
  exact (hprep.shown j).frame [] _ rfl (prefix_refl _) (fun _ hc => hc)
    (fun _ hc => .inl hc) (append_nil _).symm (leaves_nil _)

variable {grows : Bool} {completed format height width : Nat} {content : Rect}
variable {catalog : profiles.Catalog}

theorem idle_not_failed (h : s.idle completed = true) : s.failed = false := by
  unfold idle at h
  simp only [Bool.and_eq_true, Bool.not_eq_true'] at h
  exact h.1.1.1

/-- A prepare is refused, or records a list while the output rests. -/
def Prepares (d : Platform) (catalog : profiles.Catalog) (s s' : SceneFrameOutput) : Prop :=
  s' = s ∨ s.failed = false ∧ s.prepared = false ∧
    ∃ errors o, s' = (prepare_list d catalog errors s o).1

theorem Prepares.listed {errors : PrepareErrors} {o : PrepareOutcome}
    {a : Bool} (hn : ¬(a || !s.idle completed || s.prepared) = true) :
    Prepares d catalog s (prepare_list d catalog errors s o).1 := by
  simp only [Bool.or_eq_true, Bool.not_eq_true', not_or, Bool.not_eq_true, Bool.not_eq_false] at hn
  exact .inr ⟨idle_not_failed hn.1.2, hn.2, _, _, rfl⟩

theorem prepare_prepares (catalog : profiles.Catalog) (o : PrepareOutcome) :
    Prepares d catalog s (s.prepare d catalog o).1 := by
  unfold prepare
  split
  · exact .inl rfl
  rename_i hn
  exact Prepares.listed hn

theorem prepare_waiting_prepares (catalog : profiles.Catalog) (o : PrepareOutcome) :
    Prepares d catalog s (s.prepare_waiting d catalog o).1 := by
  unfold prepare_waiting
  split
  · exact .inl rfl
  rename_i hn
  exact Prepares.listed hn

theorem prepare_patches_only_prepares (catalog : profiles.Catalog) (o : PrepareOutcome) :
    Prepares d catalog s (s.prepare_patches_only d catalog o).1 := by
  unfold prepare_patches_only
  split
  · exact .inl rfl
  rename_i hn
  exact Prepares.listed hn

theorem prepare_calibration_prepares (catalog : profiles.Catalog) (o : PrepareOutcome) :
    Prepares d catalog s (s.prepare_calibration d catalog o).1 := by
  unfold prepare_calibration
  split
  · exact .inl rfl
  rename_i hn
  exact Prepares.listed hn

theorem Prepares.good (hs : Prepares d catalog s s') (h : Good d s) : Good d s' := by
  rcases hs with rfl | ⟨hf, hp, errors, o, rfl⟩
  · exact h
  · exact h.prepare_list hf hp catalog errors o

/-! ## Submitting and discarding -/

theorem same_of_flags {p q : PatchStorage}
    (h : q = { p with written := q.written, recorded := q.recorded }) : Same p q := by
  rw [h]
  exact ⟨rfl, rfl, fun _ _ => rfl, fun _ ht => ⟨ht, rfl, rfl, rfl⟩⟩

theorem Good.submit (h : Good d s) (signalled : Bool) : Good d (SceneFrameOutput.submit s signalled).1 := by
  unfold SceneFrameOutput.submit
  split
  · exact h
  rename_i hn
  simp only [Bool.or_eq_true, Bool.not_eq_true', not_or, Bool.not_eq_true, Bool.not_eq_false, decide_eq_true_eq] at hn
  have hf := hn.1.2
  have hheld : Held { s with prepared := false, submitted := s.submitted + 1
                             log := s.log ++ [Event.submitted s.list] } :=
    h.held.same (fun _ => same_refl _) rfl rfl rfl id (fun _ ht => .inl ht)
  split
  · exact good_of_broken (broken_fail hheld _)
  refine ⟨hheld.same (fun j => same_of_flags ?_) rfl rfl rfl id (fun _ ht => .inl ht), fun _ j => ?_, fun _ _ j => ?_⟩
  · simp only [written_patches]
    split <;> rfl
  · have hj := h.shown hf j
    have hpatch : ∀ t : SceneFrameOutput, (written_patches t).patches j =
        if (t.patches j).recorded then { t.patches j with written := true, recorded := false }
        else t.patches j := fun _ => rfl
    by_cases hr : (s.patches j).recorded = true
    · constructor <;> rw [hpatch, if_pos hr]
      · exact hj.empty
      · exact hj.layout
      · exact fun _ => hj.marked (.inr hr)
      · nofun
      · exact fun _ => hj.agrees (.inr hr)
      · intro _ b hb
        exact ⟨s.log, s.list, [], rfl, hj.listed hr b hb, not_mem_nil, not_mem_nil, nofun⟩
    constructor <;> rw [hpatch, if_neg hr]
    · exact hj.empty
    · exact hj.layout
    · exact hj.marked
    · exact fun hr' => absurd hr' hr
    · exact hj.agrees
    · intro hw b hb
      refine (hj.wrote hw b hb).frame [Event.submitted s.list] (prefix_refl _) rfl
        (by simp) (by simp) fun later hl c hc ht => ?_
      rw [mem_singleton] at hl
      cases hl
      exact hj.agrees (.inl hw) b hb c hc ht
  · show (if (s.patches j).recorded then { s.patches j with written := true, recorded := false }
      else s.patches j).recorded = false
    split
    · rfl
    rename_i hr
    simpa using hr

theorem Good.discard_prepared (h : Good d s) (completed : Nat) (reset : Bool) :
    Good d (SceneFrameOutput.discard_prepared s completed reset).1 := by
  unfold SceneFrameOutput.discard_prepared
  split
  · exact h
  rename_i hn
  simp only [Bool.or_eq_true, Bool.not_eq_true', not_or, Bool.not_eq_false] at hn
  split
  · exact h.fail _
  refine ⟨h.held.same (fun j => same_of_flags rfl) rfl rfl rfl id (fun _ ht => .inl ht),
    fun _ j => ?_, fun _ _ j => rfl⟩
  have hj := h.shown (idle_not_failed hn.2) j
  constructor
  · exact hj.empty
  · exact hj.layout
  · intro hm
    exact hj.marked (hm.imp_right nofun)
  · nofun
  · intro _ _ _ c hc
    cases hc
  · intro hw b hb
    exact (hj.wrote hw b hb).frame [] (prefix_refl _) (append_nil _).symm not_mem_nil not_mem_nil nofun

/-! ## Requests -/

/-- Nothing failed, the shape is not empty, and no slot holds it. -/
structure Free (s : SceneFrameOutput) (format width height : Nat) (content : Rect) : Prop where
  running : s.failed = false
  nonempty : width ≠ 0
  unheld : ∀ j, (s.patches j).shape ≠ (format, width, height, content)

theorem valid_patch_request_bounds (h : s.valid_patch_request d catalog format width height content = true) :
    s.failed = false ∧ width ≠ 0 := by
  unfold valid_patch_request at h
  cases hp : catalog s.patch_profile with
  | none =>
    rw [hp] at h
    cases h
  | some profile =>
    rw [hp] at h
    constructor
    · cases hf : s.failed with
      | false => rfl
      | true =>
        rw [hf] at h
        dsimp only at h
        rw [Bool.true_or, if_pos rfl] at h
        cases h
    · intro h0
      dsimp only at h
      rw [if_pos (.inl h0 : width = 0 ∨ width > 16384 ∨ height = 0 ∨ height > 16384)] at h
      rw [ite_self] at h
      cases h

theorem consider_grows (bytes now : Nat) (c : Choice)
    (hc : ∀ i, c.grows = some i → (s.patches i).view.buffer ≠ none) (k : Fin 8) :
    ∀ i, (s.consider bytes now c k).grows = some i → (s.patches i).view.buffer ≠ none := by
  unfold consider
  dsimp only
  split
  · exact hc
  split
  · split <;> exact hc
  rename_i hsmall
  split
  · intro i hi
    cases hi
    exact fun hb => hsmall (.inr hb)
  · exact hc

/-- A slot that has to grow has a buffer. -/
theorem choose_grows (bytes now : Nat) :
    ∀ i, (s.choose bytes now).grows = some i → (s.patches i).view.buffer ≠ none := by
  have : ∀ (l : List (Fin 8)) (c : Choice), (∀ i, c.grows = some i → (s.patches i).view.buffer ≠ none) →
      ∀ i, (l.foldl (s.consider bytes now) c).grows = some i → (s.patches i).view.buffer ≠ none := by
    intro l
    induction l with
    | nil => exact fun c hc => hc
    | cons k rest ih => exact fun c hc => ih _ (consider_grows bytes now c hc k)
  exact this _ {} nofun

/-- What a demand says about the slot that it names. -/
def Says (s : SceneFrameOutput) (format width height : Nat) (content : Rect) : Demand → Prop
  | .refused => True
  | .known _ => True
  | .empty i => Free s format width height content ∧ (s.patches i).width = 0
  | .stale i grows => Free s format width height content ∧
      (grows = true → (s.patches i).view.buffer ≠ none ∧
        s.retired_buffers.length < RetiredBuffers)

theorem demand_says (catalog : profiles.Catalog) (format width height : Nat) (content : Rect)
    (now : Nat) : Says s format width height content (s.demand d catalog format width height content now) := by
  unfold demand
  split
  · trivial
  rename_i hvalid
  simp only [Bool.not_eq_false] at hvalid
  obtain ⟨hf, hw⟩ := valid_patch_request_bounds hvalid
  split
  · trivial
  cases hfind : (List.finRange 8).find? fun i =>
      (s.patches i).has_shape format width height content with
  | some i => trivial
  | none =>
    have hfree : Free s format width height content := by
      refine ⟨hf, hw, fun j he => ?_⟩
      refine absurd ?_ (List.find?_eq_none.mp hfind j (mem_finRange j))
      simp only [PatchStorage.shape, Prod.mk.injEq] at he
      obtain ⟨h1, h2, h3, h4⟩ := he
      simp [PatchStorage.has_shape, h1, h2, h3, h4]
    cases hempty : (List.finRange 8).find? fun i => (s.patches i).width == 0 with
    | some i =>
      refine ⟨hfree, ?_⟩
      have := List.find?_some hempty
      simpa using this
    | none =>
      unfold stale_slot
      dsimp only
      split
      · exact ⟨hfree, nofun⟩
      · rename_i m _ hm
        split
        · rename_i hroom
          exact ⟨hfree, fun _ => ⟨choose_grows _ now _ hm, hroom⟩⟩
        · trivial
      · trivial

/-- What taking a slot over does. -/
structure TakenOver (s : SceneFrameOutput) (i : Fin 8) (grows : Bool) (s' : SceneFrameOutput) :
    Prop where
  patch : s'.patches i = { s.patches i with
    view := { (s.patches i).view with
      buffer := if grows then none else (s.patches i).view.buffer }
    buffer_bytes := if grows then 0 else (s.patches i).buffer_bytes
    written := false
    recorded := false }
  others : ∀ j, j ≠ i → s'.patches j = s.patches j
  created : s'.created = s.created
  list : s'.list = s.list
  log : ∃ more, s'.log = s.log ++ (more ++ [Event.reused i]) ∧
    (more = [] ∨ ∃ b, (s.patches i).view.buffer = some b ∧ more = [Event.retired b])
  prepared : s'.prepared = s.prepared
  failed : s'.failed = s.failed
  held : Held s'

theorem Held.take_over (h : Held s) (hg : grows = true → (s.patches i).view.buffer ≠ none ∧
      s.retired_buffers.length < RetiredBuffers) : TakenOver s i grows (s.take_over i grows) := by
  cases grows with
  | false =>
    refine ⟨Function.update_self .., fun j hj => Function.update_of_ne hj .., rfl, rfl,
      ⟨[], rfl, .inl rfl⟩, rfl, rfl, ?_⟩
    refine h.same (same_set_patch ?_) rfl rfl rfl id fun _ ht => .inl ht
    exact ⟨rfl, rfl, fun _ _ => rfl, fun _ ht => ⟨ht, rfl, rfl, rfl⟩⟩
  | true =>
    obtain ⟨hb, hroom⟩ := hg rfl
    obtain ⟨b, hb⟩ := Option.ne_none_iff_exists'.mp hb
    have hretired := h.retire hb hroom
    have hmid : Held ((s.retire i b).set_patch i { (s.retire i b).patches i with buffer_bytes := 0 }) := by
      refine hretired.set_patch ⟨rfl, rfl, fun c hc => ?_, fun _ ht => ⟨ht, rfl, rfl, rfl⟩⟩
      rw [retire_patches] at hc
      cases hc
    have hstate : s.take_over i true =
        { ((s.retire i b).set_patch i { (s.retire i b).patches i with buffer_bytes := 0 }).set_patch i
            { ((s.retire i b).set_patch i
              { (s.retire i b).patches i with buffer_bytes := 0 }).patches i with
                written := false, recorded := false } with
          patch_reuses := (s.patch_reuses + 1) % 0x100000000
          log := s.log ++ [Event.retired b] ++ [Event.reused i] } := by
      unfold take_over
      rw [hb]
      rfl
    rw [hstate]
    refine ⟨?_, fun j hj => ?_, rfl, rfl, ⟨[.retired b], append_assoc .., .inr ⟨b, hb, rfl⟩⟩, rfl, rfl, ?_⟩
    · rw [set_patch_patches, if_pos rfl, set_patch_patches, if_pos rfl, retire_patches]
      rfl
    · rw [set_patch_patches, if_neg hj, set_patch_patches, if_neg hj, retire_others b hj]
    · exact hmid.same (same_set_patch ⟨rfl, rfl, fun _ _ => rfl, fun _ ht => ⟨ht, rfl, rfl, rfl⟩⟩)
        rfl rfl rfl id fun _ ht => .inl ht

theorem assign_patches (format width height : Nat) (content : Rect) (now : Nat) :
    (s.assign i format width height content now).patches i =
      { s.patches i with format, width, height, content
                         drawer := PatchFormats.idxOf format, requested_ms := now } :=
  Function.update_self ..

theorem assign_others (format width height : Nat) (content : Rect) (now : Nat) (hj : j ≠ i) :
    (s.assign i format width height content now).patches j = s.patches j :=
  Function.update_of_ne hj ..

/-- A slot without marks is given to a free shape. -/
theorem Good.assign (h : Good d s) {now : Nat}
    (hfree : Free s format width height content) (hw : (s.patches i).written = false)
    (hr : (s.patches i).recorded = false) :
    Good d (s.assign i format width height content now) := by
  refine ⟨h.held.assign now hfree.unheld, fun hf j => ?_, fun hf hp j => ?_⟩
  · by_cases hj : j = i
    · subst hj
      refine shown_unmarked ?_ ?_ ?_ ?_ <;> rw [assign_patches]
      · exact hw
      · exact hr
      · exact fun h0 => absurd h0 hfree.nonempty
      · exact (h.shown hf j).layout
    exact (h.shown hf j).frame [] _ (assign_others _ _ _ _ _ hj) (prefix_refl _)
      (fun _ hc => hc) (fun _ hc => .inl hc) (append_nil _).symm (leaves_nil _)
  · by_cases hj : j = i
    · subst hj
      rw [assign_patches]
      exact hr
    rw [assign_others _ _ _ _ _ hj]
    exact h.rests hf hp j

theorem TakenOver.good (h : Good d s) (ht : TakenOver s i grows s') : Good d s' := by
  obtain ⟨more, hlog, hmore⟩ := ht.log
  refine ⟨ht.held, fun hf j => ?_, fun hf hp j => ?_⟩
  · by_cases hj : j = i
    · subst hj
      have hs := h.shown (ht.failed ▸ hf) j
      refine shown_unmarked ?_ ?_ ?_ ?_ <;> rw [ht.patch]
      · exact hs.empty
      · exact hs.layout
    have hleaves := leaves_retired h.held hj hmore
    refine (h.shown (ht.failed ▸ hf) j).frame _ _ (ht.others j hj) (ht.created ▸ prefix_refl _)
      (fun _ hc => ht.list ▸ hc) (fun _ hc => .inl (ht.list ▸ hc)) hlog ⟨?_, ?_, ?_⟩
    · rw [mem_append, mem_singleton]
      rintro (hm | hm)
      · exact hleaves.reused hm
      · cases hm
        exact hj rfl
    · intro b hb hm
      rw [mem_append, mem_singleton] at hm
      rcases hm with hm | hm
      · exact hleaves.retired b hb hm
      · cases hm
    · intro copies hm
      rw [mem_append, mem_singleton] at hm
      rcases hm with hm | hm
      · exact hleaves.submitted copies hm
      · cases hm
  · by_cases hj : j = i
    · subst hj
      rw [ht.patch]
    rw [ht.others j hj]
    exact h.rests (ht.failed ▸ hf) (ht.prepared ▸ hp) j

theorem TakenOver.free (ht : TakenOver s i grows s') (h : Free s format width height content) :
    Free s' format width height content := by
  refine ⟨ht.failed.trans h.running, h.nonempty, fun j => ?_⟩
  by_cases hj : j = i
  · subst hj
    rw [ht.patch]
    exact h.unheld j
  rw [ht.others j hj]
  exact h.unheld j

theorem Good.request_patch (h : Good d s) (catalog : profiles.Catalog)
    (format width height : Nat) (content : Rect) (now : Nat) :
    Good d (SceneFrameOutput.request_patch d catalog s format width height content now).1 := by
  have hspec := demand_says (s := s) (d := d) catalog format width height content now
  unfold SceneFrameOutput.request_patch
  cases hd : s.demand d catalog format width height content now with
  | refused => exact h
  | known i =>
    refine ⟨h.held.set_patch ⟨rfl, rfl, fun _ _ => rfl, fun _ ht => ⟨ht, rfl, rfl, rfl⟩⟩,
      fun hf j => ?_, fun hf hp j => ?_⟩
    · refine (h.shown hf j).frame [] (if j = i then now else (s.patches j).requested_ms) ?_ (prefix_refl _)
        (fun _ hc => hc) (fun _ hc => .inl hc) (append_nil _).symm (leaves_nil _)
      rw [set_patch_patches]
      by_cases hj : j = i
      · subst hj
        rw [if_pos rfl, if_pos rfl]
      · rw [if_neg hj, if_neg hj]
    · rw [set_patch_patches]
      split
      · exact h.rests hf hp i
      · exact h.rests hf hp j
  | empty i =>
    rw [hd] at hspec
    obtain ⟨hfree, hw⟩ := hspec
    have hs := h.shown hfree.running i
    obtain ⟨hwritten, hrecorded⟩ := hs.unmarked (hs.empty hw)
    exact h.assign hfree hwritten hrecorded
  | stale i grows =>
    rw [hd] at hspec
    obtain ⟨hfree, hg⟩ := hspec
    have ht := h.held.take_over hg
    refine (ht.good h).assign (ht.free hfree) ?_ ?_ <;> rw [ht.patch]

/-! ## Runs -/

theorem Good.initialize_output (h : Good d s) (device : Nat) (calibration_only : Bool) (o : InitializeOutcome) :
    Good d (SceneFrameOutput.initialize_output s device calibration_only o).1 := by
  unfold SceneFrameOutput.initialize_output
  split
  · exact h
  split
  · exact h
  rename_i hnone
  split
  · exact h.fail _
  rename_i hdevice
  have hown : s.buffer = none := h.held.own (by simpa using hnone)
  have hheld : ∀ fence, Held { s with device, calibration_only, fence } := fun fence =>
    h.held.same (fun _ => same_refl _) rfl rfl rfl (fun _ => hdevice) fun _ ht => .inl ht
  have hbuffer : Held { s with device, calibration_only, fence := true
                               buffer := some s.created.length
                               created := s.created ++ [.buffer BufferBytes] } :=
    Held.own_buffer (hheld true) hown hdevice BufferBytes
  split
  · exact good_of_broken (broken_fail (hheld s.fence) _)
  split
  · exact good_of_broken (broken_fail (hheld true) _)
  split
  · exact h.same (hheld true) rfl (prefix_refl _) rfl rfl rfl rfl
  split
  · exact good_of_broken (broken_fail (hheld true) _)
  split
  · exact good_of_broken (broken_fail hbuffer _)
  split
  · exact good_of_broken (broken_fail hbuffer _)
  · exact h.same hbuffer rfl (prefix_append ..) rfl rfl rfl rfl

theorem Good.set_patch_profile (h : Good d s) (catalog : profiles.Catalog) (profile : Nat) :
    Good d (SceneFrameOutput.set_patch_profile catalog s profile).1 := by
  unfold SceneFrameOutput.set_patch_profile
  split
  · exact h
  exact h.same (h.held.same (fun _ => same_refl _) rfl rfl rfl id fun _ ht => .inl ht)
    rfl (prefix_refl _) rfl rfl rfl rfl

/-- Every call keeps the invariant. -/
theorem Good.step (h : Good d s) (op : Op) : Good d (SceneFrameOutput.step d s op) := by
  cases op with
  | initialize_output device calibration_only o =>
    exact h.initialize_output device calibration_only o
  | set_patch_profile catalog profile => exact h.set_patch_profile catalog profile
  | request_patch catalog format width height content now =>
    exact h.request_patch catalog format width height content now
  | prepare catalog o => exact (prepare_prepares catalog o).good h
  | prepare_waiting catalog o => exact (prepare_waiting_prepares catalog o).good h
  | prepare_patches_only catalog o => exact (prepare_patches_only_prepares catalog o).good h
  | prepare_calibration catalog o => exact (prepare_calibration_prepares catalog o).good h
  | submit signalled => exact h.submit signalled
  | discard_prepared completed reset => exact h.discard_prepared completed reset

theorem good_run (d : Platform) (ops : List Op) : Good d (runs.run (step d) {} ops) :=
  runs.invariant (fun _ op h => h.step op) ops good_empty

/-! ## The truth of views -/

/-- A view with a buffer comes from a slot that wrote it. -/
theorem patch_cases {b : Nat} (h : (s.patch d catalog format width height content).buffer = some b) :
    s.failed = false ∧ ∃ i, (s.patches i).written = true ∧
      (s.patches i).view = s.patch d catalog format width height content ∧
      (s.patches i).view.footprint.Footprint.Format = format ∧
      (s.patches i).view.footprint.Footprint.Width = width ∧
      (s.patches i).view.footprint.Footprint.Height = height := by
  unfold patch at h ⊢
  split at h
  · rename_i hvalid
    rw [if_pos hvalid]
    simp only [Bool.and_eq_true] at hvalid
    split at h
    · rename_i i hi
      refine ⟨(valid_patch_request_bounds hvalid.1).1, i, ?_⟩
      have hfound := List.find?_some hi
      simp only [Bool.and_eq_true, beq_iff_eq] at hfound
      obtain ⟨⟨⟨⟨hw, hfmt⟩, hwidth⟩, hheight⟩, -⟩ := hfound
      exact ⟨hw, rfl, hfmt, hwidth, hheight⟩
    · cases h
  · cases h

/-- In every run, a patch that is given out was written, by a submitted recording, with a
texture of the format and the size that are asked for, and nothing else was written to its
buffer since. -/
theorem views_are_written_and_buffers_kept (d : Platform) (hd : d.names_shape) (ops : List Op) :
    let s := runs.run (step d) {} ops
    (∀ catalog format width height content b, (s.patch d catalog format width height content).buffer = some b →
      ∃ i, (s.patches i).view = s.patch d catalog format width height content ∧
        s.Wrote i b (s.patch d catalog format width height content).footprint format width height) ∧
    (∀ i j, i ≠ j → (s.patches i).width ≠ 0 → (s.patches j).width ≠ 0 → (s.patches i).shape ≠ (s.patches j).shape) ∧
    s.retired_buffers.length ≤ RetiredBuffers ∧
    ∀ b bytes, s.created[b]? = some (.buffer bytes) → s.holds b ∧ b ∉ s.released := by
  intro s
  have h : Good d s := good_run d ops
  refine ⟨?_, fun i j hne hw _ => h.held.distinct i j hne hw, h.held.retired_le,
    fun b bytes hb => ⟨h.held.kept b bytes hb, h.held.not_released hb⟩⟩
  intro catalog format width height content b hb
  obtain ⟨hf, i, hw, hview, hformat, hwidth, hheight⟩ := patch_cases hb
  refine ⟨i, hview, ?_⟩
  have hs := h.shown hf i
  obtain ⟨htex, his⟩ := hs.marked (Or.inl hw)
  obtain ⟨t, ht⟩ := Option.ne_none_iff_exists'.mp htex
  have hlayout := hs.layout t ht
  simp only [PatchStorage.texture_is, Bool.and_eq_true, beq_iff_eq] at his
  obtain ⟨hnf, hnw, hnh⟩ := hd (s.patches i).texture_format (s.patches i).texture_width (s.patches i).texture_height
  rw [← hlayout] at hnf hnw hnh
  have hwrote := hs.wrote hw b (by rw [hview]; exact hb)
  rw [hformat, his.2] at hnf
  rw [hwidth, his.1.1] at hnw
  rw [hheight, his.1.2] at hnh
  rw [← hnf, ← hnw, ← hnh, hview] at hwrote
  exact hwrote

/-- A device that copies rows of four-byte pixels, at its pitch alignment. The cameras have no
aspect to keep. -/
def row_copies : Platform where
  fit_rect r _ := r
  get_copyable_footprints format width height :=
    (⟨0, ⟨format, width, height, 1,
      pitch_alignment * ((width * 4 + pitch_alignment - 1) / pitch_alignment)⟩⟩,
      needed width height)

theorem row_copies_names_shape : row_copies.names_shape := fun _ _ _ => ⟨rfl, rfl, rfl⟩

/-- One set-up aircraft whose side is the whole texture. -/
def set_up : profiles.Catalog := fun id =>
  if id = 1 then
    some { width := 1024, height := 1024, mips := 2, sides := 1, fit_texture := true
           camera_padding := {} }
  else none

/-- A request for a square patch. -/
def request_square (edge : Nat) (now : Nat) : Op :=
  .request_patch set_up 28 edge edge ⟨0, 0, edge, edge⟩ now

def first_patch : List Op :=
  [.initialize_output 1 false {}, request_square 256 1000, .prepare set_up { completed := 0 },
    .submit true]

theorem first_patch_is_written :
    ∃ i footprint, (runs.run (step row_copies) {} first_patch).Wrote i 2 footprint 28 256 256 := by
  have hb : ((runs.run (step row_copies) {} first_patch).patch row_copies set_up 28 256 256
      ⟨0, 0, 256, 256⟩).buffer = some 2 := by decide +kernel
  obtain ⟨i, -, hw⟩ := (views_are_written_and_buffers_kept row_copies row_copies_names_shape
    first_patch).1 set_up 28 256 256 ⟨0, 0, 256, 256⟩ 2 hb
  exact ⟨i, _, hw⟩

end taxi_camera.SceneFrameOutput
