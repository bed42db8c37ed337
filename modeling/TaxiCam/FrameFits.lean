-- Where the copies of the patches land: each one has a buffer that holds its
-- texture, as long as no slot without a buffer is asked for the shape of the
-- texture that it still has.
import TaxiCam.FrameViews

namespace taxi_camera.SceneFrameOutput

open List

variable {d : Platform} {s s' : SceneFrameOutput} {i j : Fin 8}

/-! ## What a copy needs -/

/-- The copy has a buffer, and the buffer holds what the copy writes. -/
def Fits (d : Platform) (s : SceneFrameOutput) (c : Copy) : Prop :=
  ∃ b bytes format width height, c.target = some b ∧ s.created[b]? = some (.buffer bytes) ∧
    s.resource c.source = some (.texture format width height) ∧
    (d.get_copyable_footprints format width height).2 ≤ bytes

def AllFit (d : Platform) (s : SceneFrameOutput) : Prop :=
  ∀ c, Event.recorded c ∈ s.log → Fits d s c

/-- The slot's texture fits its buffer, and a slot that needs no new texture has one. -/
def Filled (d : Platform) (p : PatchStorage) : Prop :=
  ∀ t, p.texture = some t →
    (∀ b, p.view.buffer = some b →
      (d.get_copyable_footprints p.texture_format p.texture_width p.texture_height).2 ≤
        p.buffer_bytes) ∧
    (p.texture_is p.format p.width p.height = true → p.view.buffer ≠ none)

variable {grows : Bool} {rest : List (Fin 8)} {format height now width : Nat} {p : PatchStorage}
variable {content : Rect} {catalog : profiles.Catalog}

theorem filled_without_texture (h : p.texture = none) : Filled d p := by
  intro t ht
  rw [h] at ht
  cases ht

/-- A request that takes over a slot without a buffer, or whose buffer it retires, is for
another format or size than the texture that the slot still holds. -/
def replaces (d : Platform) (s : SceneFrameOutput) : Op → Bool
  | .request_patch catalog format width height content now =>
    match s.demand d catalog format width height content now with
    | .stale i grows =>
      let p := s.patches i
      !(grows || p.view.buffer == none) || p.texture == none ||
        !p.texture_is format width height
    | _ => true
  | _ => true

theorem replaces_stale (h : replaces d s (.request_patch catalog format width height content now) = true)
    (hd : s.demand d catalog format width height content now = .stale i grows)
    (hb : grows = true ∨ (s.patches i).view.buffer = none) (ht : (s.patches i).texture ≠ none) :
    (s.patches i).texture_is format width height = false := by
  simp only [replaces, hd, Bool.or_eq_true, Bool.not_eq_true', beq_iff_eq] at h
  rcases h with (hno | hnone) | his
  · simp only [Bool.or_eq_false_iff, beq_eq_false_iff_ne] at hno
    rcases hb with hb | hb
    · exact absurd (hb.symm.trans hno.1) (by decide)
    · exact absurd hb hno.2
  · exact absurd hnone ht
  · exact his

/-! ## Steps that record nothing -/

structure Unrecorded (s s' : SceneFrameOutput) : Prop where
  created : s.created <+: s'.created
  log : ∀ c, Event.recorded c ∈ s'.log → Event.recorded c ∈ s.log

theorem unrecorded_refl (s : SceneFrameOutput) : Unrecorded s s := ⟨prefix_refl _, fun _ h => h⟩

theorem unrecorded_fail (error : String) : Unrecorded s (s.fail error) := ⟨prefix_refl _, fun _ h => h⟩

theorem Unrecorded.trans {t : SceneFrameOutput} (h : Unrecorded s t) (ht : Unrecorded t s') :
    Unrecorded s s' := ⟨h.created.trans ht.created, fun c hc => h.log c (ht.log c hc)⟩

theorem Fits.mono {c : Copy} (h : Fits d s c) (hc : s.created <+: s'.created) : Fits d s' c := by
  obtain ⟨b, bytes, format, width, height, ht, hb, hsource, hle⟩ := h
  have hbuffer : s'.resource (some b) = _ := resource_mono hc hb
  exact ⟨b, bytes, format, width, height, ht, hbuffer, resource_mono hc hsource, hle⟩

theorem Unrecorded.all_fit (hu : Unrecorded s s') (h : AllFit d s) : AllFit d s' :=
  fun c hc => (h c (hu.log c hc)).mono hu.created

theorem unrecorded_retire (b : Nat) : Unrecorded s (s.retire i b) := by
  refine ⟨prefix_refl _, fun c hc => ?_⟩
  rcases mem_append.mp hc with h | h
  · exact h
  rw [mem_singleton] at h
  cases h

theorem unrecorded_drop_texture : Unrecorded s (s.drop_texture i) := by
  obtain ⟨hc, -, hlog, -⟩ := @drop_texture_same s i
  exact ⟨hc ▸ prefix_refl _, fun c h => hlog ▸ h⟩

theorem unrecorded_retire_small (bytes : Nat) : Unrecorded s (settled (s.retire_small i bytes)) := by
  unfold retire_small
  split
  · split
    · split
      · exact unrecorded_fail _
      · exact unrecorded_retire _
    · exact unrecorded_refl s
  · exact unrecorded_refl s

theorem unrecorded_provide_buffer (o : SlotOutcome) (bytes : Nat) :
    Unrecorded s (settled (s.provide_buffer o i bytes)) := by
  unfold provide_buffer
  split
  · exact unrecorded_refl s
  split
  · exact unrecorded_fail _
  · exact ⟨prefix_append .., fun _ h => h⟩

theorem unrecorded_provide_texture (o : SlotOutcome) : Unrecorded s (settled (s.provide_texture d o i)) := by
  unfold provide_texture
  dsimp only
  split
  · exact unrecorded_refl s
  split
  · exact unrecorded_fail _
  have hnew : Unrecorded s (s.new_texture i) := ⟨prefix_append .., fun _ h => h⟩
  have hsmall := hnew.trans (unrecorded_retire_small (i := i)
    (d.get_copyable_footprints (s.patches i).format (s.patches i).width (s.patches i).height).2)
  split
  · rename_i e he
    rw [he] at hsmall
    exact hsmall
  rename_i t ht
  rw [ht] at hsmall
  have hbuffer := Unrecorded.trans hsmall (unrecorded_provide_buffer (i := i) o
    (d.get_copyable_footprints (s.patches i).format (s.patches i).width (s.patches i).height).2)
  split
  · rename_i e he
    rw [settled, he] at hbuffer
    exact hbuffer
  rename_i u hu
  rw [settled, hu] at hbuffer
  exact hbuffer.trans ⟨prefix_refl _, fun _ h => h⟩

/-! ## Recording one list -/

theorem filled_provided (hp : Provided d s i s') : Filled d (s'.patches i) := by
  obtain ⟨b, bytes, hle, hpatch⟩ := hp.patch
  intro t _
  rw [hpatch]
  exact ⟨fun _ _ => hle, fun _ => nofun⟩

/-- A slot whose texture has its shape is filled enough for a copy. -/
theorem fits_record_copy (hheld : Held s) (hfill : Filled d (s.patches i)) (ht : (s.patches i).texture ≠ none)
    (his : (s.patches i).texture_is (s.patches i).format (s.patches i).width (s.patches i).height)
    (h : AllFit d s) : AllFit d (s.record_copy i) := by
  obtain ⟨t, ht⟩ := Option.ne_none_iff_exists'.mp ht
  obtain ⟨hbytes, hbuffer⟩ := hfill t ht
  obtain ⟨b, hb⟩ := Option.ne_none_iff_exists'.mp (hbuffer his)
  intro c hc
  rcases mem_append.mp hc with hold | hnew
  · exact (h c hold).mono (prefix_refl _)
  rw [mem_singleton] at hnew
  cases hnew
  refine ⟨b, (s.patches i).buffer_bytes, (s.patches i).texture_format,
    (s.patches i).texture_width, (s.patches i).texture_height, hb, hheld.sized i b hb, ?_,
    hbytes b hb⟩
  rw [ht]
  exact hheld.textured i t ht

theorem prepare_patch_fits (catalog : profiles.Catalog) (slots : Fin 8 → SlotOutcome) (h : Preparing d s (i :: rest)) (hfill : ∀ j, Filled d (s.patches j))
    (hfit : AllFit d s) :
    (∀ e, prepare_patch d catalog slots s i = .error e → AllFit d e) ∧
      ∀ t, prepare_patch d catalog slots s i = .ok t → AllFit d t ∧ ∀ j, Filled d (t.patches j) := by
  unfold prepare_patch
  by_cases hw : (s.patches i).width = 0
  · rw [if_pos hw]
    refine ⟨nofun, fun t ht => ?_⟩
    cases ht
    exact ⟨hfit, hfill⟩
  rw [if_neg hw]
  have hdrop := h.drop_texture
  have hdropfit : AllFit d (s.drop_texture i) := unrecorded_drop_texture.all_fit hfit
  have hdropfill : ∀ j, Filled d ((s.drop_texture i).patches j) := by
    intro j
    by_cases hj : j = i
    · subst hj
      rcases drop_texture_patch (h.shown j) with ⟨he, -⟩ | ⟨he, -⟩ <;> rw [he]
      · exact hfill j
      · exact filled_without_texture rfl
    rw [drop_texture_others hj]
    exact hfill j
  have hheld := hdrop.held.provide_texture (d := d) (slots i) i
  have hun := unrecorded_provide_texture (s := s.drop_texture i) (d := d) (i := i) (slots i)
  split
  · rename_i e he
    rw [he] at hun
    refine ⟨fun x hx => ?_, nofun⟩
    cases hx
    exact Unrecorded.all_fit hun hdropfit
  rename_i u hu
  rw [hu] at hheld hun
  have hufit : AllFit d u := Unrecorded.all_fit hun hdropfit
  have hready : (u.patches i).texture ≠ none ∧ (u.patches i).texture_is (u.patches i).format
      (u.patches i).width (u.patches i).height ∧ ∀ j, Filled d (u.patches j) := by
    rcases provide_texture_ok hu with ⟨t, ht, rfl⟩ | ⟨hn, hp⟩
    · refine ⟨by simp [ht], ?_, hdropfill⟩
      rcases drop_texture_patch (h.shown i) with ⟨he, his⟩ | ⟨he, -⟩
      · rw [he] at ht ⊢
        exact his t ht
      rw [he] at ht
      cases ht
    have hfilled := filled_provided hp
    obtain ⟨b, bytes, -, hpatch⟩ := hp.patch
    refine ⟨by simp [hpatch], by rw [hpatch]; simp [PatchStorage.texture_is], ?_⟩
    intro j
    by_cases hj : j = i
    · subst hj
      exact hfilled
    rw [hp.others j hj]
    exact hdropfill j
  obtain ⟨ht, his, hufill⟩ := hready
  rcases draw_cases catalog (slots i) u i with hd | ⟨error, hd⟩
  · rw [hd]
    refine ⟨fun e hx => ?_, fun t hx => ?_⟩ <;> cases hx
    refine ⟨fits_record_copy hheld (hufill i) ht his hufit, fun j => ?_⟩
    show Filled d (Function.update u.patches i { u.patches i with recorded := true } j)
    rw [Function.update_apply]
    split
    · exact hufill i
    · exact hufill j
  rw [hd]
  refine ⟨fun e he => ?_, fun t he => ?_⟩ <;> cases he
  exact (unrecorded_fail error).all_fit hufit

theorem prepare_patches_fits (catalog : profiles.Catalog) (slots : Fin 8 → SlotOutcome) (hn : rest.Nodup) (h : Preparing d s rest)
    (hfill : ∀ j, Filled d (s.patches j)) (hfit : AllFit d s) :
    (∀ e, rest.foldlM (prepare_patch d catalog slots) s = .error e → AllFit d e) ∧
      ∀ t, rest.foldlM (prepare_patch d catalog slots) s = .ok t → AllFit d t ∧ ∀ j, Filled d (t.patches j) := by
  induction rest generalizing s with
  | nil =>
    refine ⟨nofun, fun t ht => ?_⟩
    cases ht
    exact ⟨hfit, hfill⟩
  | cons i rest ih =>
    obtain ⟨hi, hn⟩ := nodup_cons.mp hn
    obtain ⟨-, hprep⟩ := prepare_patch_preparing catalog slots h hi
    obtain ⟨herror, hok⟩ := prepare_patch_fits catalog slots h hfill hfit
    rw [foldlM_cons]
    cases hx : prepare_patch d catalog slots s i with
    | error e =>
      refine ⟨fun e' he => ?_, nofun⟩
      cases he
      exact herror e hx
    | ok t =>
      obtain ⟨htfit, htfill⟩ := hok t hx
      exact ih hn (hprep t hx) htfill htfit

/-! ## Runs -/

/-- Between two calls: every copy so far fits, and until something fails every slot is
filled. -/
structure Fitting (d : Platform) (s : SceneFrameOutput) : Prop where
  good : Good d s
  filled : s.failed = false → ∀ j, Filled d (s.patches j)
  all_fit : AllFit d s

theorem fitting_empty : Fitting d {} where
  good := good_empty
  filled _ _ := filled_without_texture rfl
  all_fit _ h := by cases h

/-- A call that leaves the fills of the slots alone. -/
theorem Fitting.same (h : Fitting d s) (hgood : Good d s') (hu : Unrecorded s s')
    (hf : s'.failed = false → s.failed = false ∧ ∀ j, Filled d (s.patches j) →
      Filled d (s'.patches j)) : Fitting d s' where
  good := hgood
  filled hok j := (hf hok).2 j (h.filled (hf hok).1 j)
  all_fit := hu.all_fit h.all_fit

theorem failed_fail {P : Prop} (error : String) (h : (s.fail error).failed = false) : P := by
  cases h

theorem Fitting.prepare_list (h : Fitting d s) (hf : s.failed = false) (hp : s.prepared = false)
    (catalog : profiles.Catalog) (errors : PrepareErrors) (o : PrepareOutcome) :
    Fitting d (SceneFrameOutput.prepare_list d catalog errors s o).1 := by
  have hstart : Preparing d { s with list := [] } (List.finRange 8) := by
    refine ⟨h.good.held.same (fun _ => same_refl _) rfl rfl rfl id fun _ ht => .inl ht,
      fun j => (h.good.shown hf j).cleared (h.good.rests hf hp j), nofun, fun i _ => ?_⟩
    exact h.good.rests hf hp i
  obtain ⟨herror, hok⟩ := prepare_patches_fits catalog o.slots (nodup_finRange 8) hstart (h.filled hf) h.all_fit
  obtain ⟨hbroken, -⟩ := prepare_patches_preparing catalog o.slots (nodup_finRange 8) hstart
  have hgood := h.good.prepare_list hf hp catalog errors o
  refine ⟨hgood, ?_, ?_⟩ <;> clear hgood <;> unfold SceneFrameOutput.prepare_list
  · split
    · exact failed_fail _
    split
    · exact h.filled
    split
    · exact failed_fail _
    split
    · exact failed_fail _
    split
    · rename_i e he
      split
      · exact failed_fail _
      rw [(hbroken e he).failed]
      nofun
    rename_i t ht
    split
    · exact failed_fail _
    · exact fun _ => (hok t ht).2
  · split
    · exact h.all_fit
    split
    · exact h.all_fit
    split
    · exact h.all_fit
    split
    · exact h.all_fit
    split
    · rename_i e he
      split
      · exact herror e he
      · exact herror e he
    rename_i t ht
    split
    · exact (hok t ht).1
    · exact (hok t ht).1

theorem Prepares.fitting (hs : Prepares d catalog s s') (h : Fitting d s) : Fitting d s' := by
  rcases hs with rfl | ⟨hf, hp, errors, o, rfl⟩
  · exact h
  · exact h.prepare_list hf hp catalog errors o

theorem Fitting.initialize_output (h : Fitting d s) (device : Nat) (calibration_only : Bool) (o : InitializeOutcome) :
    Fitting d (SceneFrameOutput.initialize_output s device calibration_only o).1 := by
  have hgood := h.good.initialize_output device calibration_only o
  refine h.same hgood ?_ ?_ <;> clear hgood <;> unfold SceneFrameOutput.initialize_output
  · repeat' split
    all_goals first
      | exact unrecorded_refl s
      | exact ⟨prefix_refl _, fun _ hc => hc⟩
      | exact ⟨prefix_append .., fun _ hc => hc⟩
  · repeat' split
    all_goals first
      | exact failed_fail _
      | exact fun hf => ⟨hf, fun _ hj => hj⟩

theorem Fitting.submit (h : Fitting d s) (signalled : Bool) : Fitting d (SceneFrameOutput.submit s signalled).1 := by
  have hgood := h.good.submit signalled
  refine h.same hgood ?_ ?_ <;> clear hgood <;> unfold SceneFrameOutput.submit
  · have hlog : ∀ c, Event.recorded c ∈ s.log ++ [Event.submitted s.list] → Event.recorded c ∈ s.log := by
      intro c hc
      rcases mem_append.mp hc with hold | hnew
      · exact hold
      rw [mem_singleton] at hnew
      cases hnew
    split
    · exact unrecorded_refl s
    split
    · exact ⟨prefix_refl _, hlog⟩
    · exact ⟨prefix_refl _, hlog⟩
  · split
    · exact fun hf => ⟨hf, fun _ hj => hj⟩
    split
    · exact failed_fail _
    refine fun hf => ⟨hf, fun j hj => ?_⟩
    simp only [written_patches]
    split
    · exact hj
    · exact hj

theorem Fitting.discard_prepared (h : Fitting d s) (completed : Nat) (reset : Bool) :
    Fitting d (SceneFrameOutput.discard_prepared s completed reset).1 := by
  have hgood := h.good.discard_prepared completed reset
  refine h.same hgood ?_ ?_ <;> clear hgood <;> unfold SceneFrameOutput.discard_prepared
  · split
    · exact unrecorded_refl s
    split
    · exact unrecorded_fail _
    · exact ⟨prefix_refl _, fun _ hc => hc⟩
  · split
    · exact fun hf => ⟨hf, fun _ hj => hj⟩
    split
    · exact failed_fail _
    · exact fun hf => ⟨hf, fun _ hj => hj⟩

theorem unrecorded_taken_over (ht : TakenOver s i grows s') : Unrecorded s s' := by
  obtain ⟨more, hlog, hmore⟩ := ht.log
  refine ⟨ht.created ▸ prefix_refl _, fun c hc => ?_⟩
  rw [hlog] at hc
  rcases hmore with rfl | ⟨b, -, rfl⟩
  · simpa using hc
  · simpa using hc

theorem filled_assign (hbytes : ∀ b, p.texture ≠ none → p.view.buffer = some b →
      (d.get_copyable_footprints p.texture_format p.texture_width p.texture_height).2 ≤ p.buffer_bytes)
    (hnew : p.texture ≠ none → p.view.buffer = none → p.texture_is format width height = false) :
    Filled d { p with format, width, height, content
                      drawer := PatchFormats.idxOf format, requested_ms := now } := by
  intro t ht
  have hsome : p.texture ≠ none := by
    intro hn
    exact nomatch hn.symm.trans ht
  refine ⟨fun b hb => hbytes b hsome hb, fun his hb => ?_⟩
  exact absurd (his.symm.trans (hnew hsome hb)) (by decide)

theorem Fitting.request_patch (h : Fitting d s) (catalog : profiles.Catalog)
    (format width height : Nat) (content : Rect) (now : Nat)
    (hg : replaces d s (.request_patch catalog format width height content now) = true) :
    Fitting d (SceneFrameOutput.request_patch d catalog s format width height content now).1 := by
  have hgood := h.good.request_patch catalog format width height content now
  have hsays := demand_says (s := s) (d := d) catalog format width height content now
  refine ⟨hgood, ?_, ?_⟩ <;> clear hgood <;> unfold SceneFrameOutput.request_patch
  · cases hd : s.demand d catalog format width height content now with
    | refused => exact h.filled
    | known k =>
      intro hf j
      rw [set_patch_patches]
      split
      · exact h.filled hf k
      · exact h.filled hf j
    | empty k =>
      rw [hd] at hsays
      obtain ⟨hfree, hw⟩ := hsays
      intro hf j
      by_cases hj : j = k
      · subst hj
        rw [assign_patches]
        have hnone := (h.good.shown hfree.running j).empty hw
        exact filled_assign (fun _ ht => absurd hnone ht) fun ht => absurd hnone ht
      rw [assign_others _ _ _ _ _ hj]
      exact h.filled hfree.running j
    | stale k grows =>
      rw [hd] at hsays
      obtain ⟨hfree, hgrow⟩ := hsays
      have ht := h.good.held.take_over hgrow
      intro _ j
      by_cases hj : j = k
      · subst hj
        rw [assign_patches, ht.patch]
        refine filled_assign (fun b htex hb => ?_) fun htex hb => ?_
        · -- A retired buffer leaves nothing to fit; a kept one fits as before.
          cases grows with
          | true => cases hb
          | false =>
            obtain ⟨t, htex⟩ := Option.ne_none_iff_exists'.mp htex
            exact (h.filled hfree.running j t htex).1 b hb
        · refine replaces_stale hg hd ?_ htex
          cases grows with
          | true => exact .inl rfl
          | false => exact .inr hb
      rw [assign_others _ _ _ _ _ hj, ht.others j hj]
      exact h.filled hfree.running j
  · cases hd : s.demand d catalog format width height content now with
    | refused => exact h.all_fit
    | known k => exact fun c hc => (h.all_fit c hc).mono (prefix_refl _)
    | empty k => exact fun c hc => (h.all_fit c hc).mono (prefix_refl _)
    | stale k grows =>
      rw [hd] at hsays
      have ht := unrecorded_taken_over (h.good.held.take_over hsays.2)
      exact (ht.trans ⟨prefix_refl _, fun _ hc => hc⟩).all_fit h.all_fit

/-- Every guarded call keeps the fits. -/
theorem Fitting.step (h : Fitting d s) (op : Op) (hg : replaces d s op = true) :
    Fitting d (SceneFrameOutput.step d s op) := by
  cases op with
  | initialize_output device calibration_only o =>
    exact h.initialize_output device calibration_only o
  | set_patch_profile catalog profile =>
    refine h.same (h.good.set_patch_profile catalog profile) ?_ ?_ <;>
      unfold SceneFrameOutput.step set_patch_profile
    · dsimp only
      split
      · exact unrecorded_refl s
      · exact ⟨prefix_refl _, fun _ hc => hc⟩
    · dsimp only
      split <;> exact fun hf => ⟨hf, fun _ hj => hj⟩
  | request_patch catalog format width height content now =>
    exact h.request_patch catalog format width height content now hg
  | prepare catalog o => exact (prepare_prepares catalog o).fitting h
  | prepare_waiting catalog o => exact (prepare_waiting_prepares catalog o).fitting h
  | prepare_patches_only catalog o => exact (prepare_patches_only_prepares catalog o).fitting h
  | prepare_calibration catalog o => exact (prepare_calibration_prepares catalog o).fitting h
  | submit signalled => exact h.submit signalled
  | discard_prepared completed reset => exact h.discard_prepared completed reset

/-- In a run whose requests give no slot without a buffer the shape of the texture that it
still has, every recorded copy has a buffer that holds its texture. -/
theorem recorded_copies_fit (d : Platform) (ops : List Op)
    (hg : runs.Guarded (step d) (fun s op => replaces d s op = true) {} ops) (c : Copy)
    (hc : Event.recorded c ∈ (runs.run (step d) {} ops).log) :
    Fits d (runs.run (step d) {} ops) c :=
  (runs.guarded_invariant (fun _ op h hop => h.step op hop) ops fitting_empty hg).all_fit c hc

/-- All slots are taken and one grows for a larger patch. -/
def grown : List Op :=
  [.initialize_output 1 false {}] ++
    [100, 101, 102, 103, 104, 105, 106, 107].map (request_square · 1000) ++
    [.prepare set_up { completed := 0 }, .submit true, request_square 200 3000]

theorem grown_copy_fits : ∃ c, c.slot = 0 ∧
    Fits row_copies (runs.run (step row_copies) {} (grown ++ [.prepare set_up { completed := 1 }])) c := by
  have hc : ∃ c ∈ (runs.run (step row_copies) {}
      (grown ++ [.prepare set_up { completed := 1 }])).log.filterMap fun
        | .recorded c => some c
        | _ => none, c.slot = 0 := by decide +kernel
  obtain ⟨c, hc, hslot⟩ := hc
  obtain ⟨e, he, hec⟩ := mem_filterMap.mp hc
  cases e with
  | recorded c' =>
    cases hec
    exact ⟨c, hslot, recorded_copies_fit row_copies _ (by decide +kernel) c he⟩
  | _ => cases hec

/-- The larger patch goes stale, and the first shape comes back before the slot was prepared
again. -/
def regrown : List Op :=
  grown ++ [101, 102, 103, 104, 105, 106, 107].map (request_square · 4900) ++
    [request_square 100 5000, .prepare set_up { completed := 1 }]

/-- The texture of the first shape is copied to no buffer. -/
theorem regrown_copy_has_no_buffer :
    ∃ c, Event.recorded c ∈ (runs.run (step row_copies) {} regrown).log ∧
      ¬Fits row_copies (runs.run (step row_copies) {} regrown) c := by
  refine ⟨⟨0, some 1, none, (row_copies.get_copyable_footprints 28 100 100).1⟩, by decide +kernel, ?_⟩
  rintro ⟨b, bytes, format, width, height, hb, -⟩
  cases hb

end taxi_camera.SceneFrameOutput
