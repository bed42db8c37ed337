-- A stamp, over a list that the tracked state mirrors: it leaves every binding
-- as it was, in every run whose calls the tracked state can follow.
import TaxiCam.StampMirror

namespace taxi_camera

open PfdGraphicsState PfdStampD3D12 List
open NativeList (call write)

/-! ## The calls that set arguments -/

def Call.is_argument : Call → Bool
  | .SetGraphicsRoot32BitConstant .. | .SetGraphicsRoot32BitConstants ..
  | .SetGraphicsRootDescriptorTable .. | .SetGraphicsRootView .. => true
  | _ => false

def Call.argument_writes : Call → List (Argument × Nat)
  | .SetGraphicsRoot32BitConstant index word offset => [(.word index offset, word)]
  | .SetGraphicsRoot32BitConstants index words offset => word_writes index offset words
  | .SetGraphicsRootDescriptorTable index address => [(.table index, address)]
  | .SetGraphicsRootView kind index address => [(.view kind index, address)]
  | _ => []

theorem call_argument (n : NativeList) {c : Call} (h : c.is_argument = true) :
    n.call c = n.write c.argument_writes := by
  cases c with
  | SetGraphicsRoot32BitConstant index word offset => rfl
  | SetGraphicsRoot32BitConstants index words offset => rfl
  | SetGraphicsRootDescriptorTable index address => rfl
  | SetGraphicsRootView kind index address => rfl
  | _ => cases h

theorem run_arguments (n : NativeList) (calls : List Call) (h : ∀ c ∈ calls, c.is_argument = true) :
    runs.run call n calls = n.write (calls.flatMap Call.argument_writes) := by
  induction calls generalizing n with
  | nil => rfl
  | cons c rest ih =>
    rw [runs.run_cons, call_argument n (h c mem_cons_self), ih _ fun x hx => h x (mem_cons_of_mem _ hx)]
    simp only [flatMap_cons, write, writes.write_all_append]

/-! ## What `restore` sets -/

section
variable {t : PfdGraphicsState}

/-- The calls for the arguments, in the order of `restore`. -/
def restore_arguments (t : PfdGraphicsState) : List Call :=
  t.restore_words ++ (List.range t.layout.count).flatMap t.restore_parameter

theorem restore_parameter_eq (hobserved : t.observed_arguments = true) (i : Nat) {c : Call}
    (hc : c ∈ t.restore_parameter i) :
    c.is_argument = true ∧ ∃ a v, c.argument_writes = [(a, v)] ∧ tracked t a = some v := by
  unfold restore_parameter at hc
  dsimp only at hc
  split at hc
  · cases hc
  rename_i hset
  simp only [hobserved, true_and, not_or] at hset
  obtain ⟨hcount, hconstants, hknown⟩ := hset
  cases hkind : (t.layout.parameters i).kind with
  | constants => exact absurd hkind hconstants
  | table =>
    rw [hkind] at hc
    rw [if_pos hknown] at hc
    rw [mem_singleton.mp hc]
    exact ⟨rfl, _, _, rfl, if_pos ⟨hcount, hkind, hknown⟩⟩
  | cbv =>
    rw [hkind] at hc
    rw [mem_singleton.mp hc]
    exact ⟨rfl, _, _, rfl, if_pos ⟨by decide, by decide, hcount, hkind, hknown⟩⟩
  | srv =>
    rw [hkind] at hc
    rw [mem_singleton.mp hc]
    exact ⟨rfl, _, _, rfl, if_pos ⟨by decide, by decide, hcount, hkind, hknown⟩⟩
  | uav =>
    rw [hkind] at hc
    rw [mem_singleton.mp hc]
    exact ⟨rfl, _, _, rfl, if_pos ⟨by decide, by decide, hcount, hkind, hknown⟩⟩

theorem restore_words_eq (hg : LayoutGood t) {c : Call} (hc : c ∈ t.restore_words) :
    c.is_argument = true ∧ ∃ a v, c.argument_writes = [(a, v)] ∧ tracked t a = some v := by
  obtain ⟨⟨key, i⟩, hmem, rfl⟩ := mem_map.mp hc
  refine ⟨rfl, _, _, rfl, ?_⟩
  have hget : t.observed_word_keys[i]? = some key := mem_zipIdx_iff_getElem?.mp hmem
  obtain ⟨hlt, hkey⟩ := List.getElem?_eq_some_iff.mp hget
  have hidx : t.observed_word_keys.idxOf key = i := by
    rw [← hkey]
    exact hg.1.idxOf_getElem i hlt
  have hdiv : key / 64 * 64 + key % 64 = key := by omega
  have hin : key ∈ t.observed_word_keys := hkey ▸ getElem_mem hlt
  simp only [tracked, hdiv, hidx]
  rw [if_pos ⟨Nat.mod_lt _ (by decide), hin⟩]

/-- Every tracked argument has a call. -/
theorem restore_reaches (hg : LayoutGood t) (hobserved : t.observed_arguments = true) {a : Argument}
    {v : Nat} (h : tracked t a = some v) :
    ∃ c ∈ restore_arguments t, c.argument_writes = [(a, v)] := by
  cases a with
  | word index offset =>
    simp only [tracked] at h
    split at h
    · rename_i hset
      obtain ⟨ho, hin⟩ := hset
      injection h with h
      have hlt := idxOf_lt_length_of_mem hin
      refine ⟨.SetGraphicsRoot32BitConstant ((index * 64 + offset) / 64) v
        ((index * 64 + offset) % 64), mem_append_left _ ?_, ?_⟩
      · refine mem_map.mpr ⟨(index * 64 + offset,
          t.observed_word_keys.idxOf (index * 64 + offset)), ?_, by simp only [h]⟩
        exact mem_zipIdx_iff_getElem?.mpr (by simp [hlt])
      · have hdiv : (index * 64 + offset) / 64 = index := by omega
        have hmod : (index * 64 + offset) % 64 = offset := by omega
        rw [hdiv, hmod]
        rfl
    · cases h
  | table index =>
    simp only [tracked] at h
    split at h
    · rename_i hset
      injection h with h
      refine ⟨.SetGraphicsRootDescriptorTable index v, mem_append_right _ ?_, rfl⟩
      refine mem_flatMap.mpr ⟨index, mem_range.mpr (hg.2.2.2 index hset.1), ?_⟩
      simp [restore_parameter, hobserved, hset.1, hset.2.1, hset.2.2, h]
    · cases h
  | view kind index =>
    simp only [tracked] at h
    split at h
    · rename_i hset
      obtain ⟨htable, hconstants, hcount, hkind, hknown⟩ := hset
      injection h with h
      refine ⟨.SetGraphicsRootView kind index v, mem_append_right _ ?_, rfl⟩
      refine mem_flatMap.mpr ⟨index, mem_range.mpr (hg.2.2.2 index hcount), ?_⟩
      cases kind with
      | constants => exact absurd rfl hconstants
      | table => exact absurd rfl htable
      | _ => simp [restore_parameter, hobserved, hcount, hkind, hknown, h]
    · cases h

/-- The calls for the arguments, on a list with none, set the tracked ones. -/
theorem run_restore_arguments (hg : LayoutGood t) (hobserved : t.observed_arguments = true)
    (n : NativeList) (hnone : n.arguments = fun _ => none) :
    runs.run call n (restore_arguments t) = { n with arguments := tracked t } := by
  have heach : ∀ c ∈ restore_arguments t, c.is_argument = true ∧
      ∃ a v, c.argument_writes = [(a, v)] ∧ tracked t a = some v := by
    intro c hc
    rcases mem_append.mp hc with hc | hc
    · exact restore_words_eq hg hc
    obtain ⟨i, -, hi⟩ := mem_flatMap.mp hc
    exact restore_parameter_eq hobserved i hi
  have hbuilt : writes.write_all (fun _ => none)
      ((restore_arguments t).flatMap Call.argument_writes) = tracked t := by
    apply writes.write_all_eq
    · intro w hw
      obtain ⟨c, hc, hw⟩ := mem_flatMap.mp hw
      obtain ⟨-, a, v, heq, htracked⟩ := heach c hc
      rw [heq] at hw
      rw [mem_singleton.mp hw]
      exact htracked
    · intro a v hv
      obtain ⟨c, hc, heq⟩ := restore_reaches hg hobserved hv
      exact ⟨(a, v), mem_flatMap.mpr ⟨c, hc, by simp [heq]⟩, rfl⟩
  rw [run_arguments n _ fun c hc => (heach c hc).1, write, hnone, hbuilt]

variable {n : NativeList}

theorem run_restore_pipeline (h : PipelineMirrors t n) (m : NativeList) :
    runs.run call m t.restore_pipeline =
      { m with pipeline := n.pipeline, depth_bias := n.depth_bias, strip_cut := n.strip_cut } := by
  obtain ⟨h1, h2, h3⟩ := h
  rw [h1, h2, h3]
  unfold restore_pipeline
  cases t.depth_bias_known <;> cases t.strip_cut_known <;> rfl

theorem run_restore_root (h : Mirrors t n) (hvalid : t.layout.valid = true) (m : NativeList)
    (hother : m.root = .stamp) :
    runs.run call m t.restore_root = { m with root := n.root, arguments := n.arguments } := by
  obtain ⟨hroot, hargs⟩ := h.root.2 hvalid
  obtain ⟨hobserved, hbound⟩ := h.root.1 hroot
  have hcalls : t.restore_root =
      .SetGraphicsRootSignature (.application t.root t.layout_generation) ::
        restore_arguments t := by
    simp [restore_root, restore_arguments, hobserved]
  have hset : m.call (.SetGraphicsRootSignature (.application t.root t.layout_generation)) =
      { m with root := n.root, arguments := fun _ => none } := by
    simp [call, hother, hbound]
  rw [hcalls, runs.run_cons, hset, run_restore_arguments h.layout hobserved _ rfl, hargs]

/-- The raster state, over a list with the default sample positions if `t` has some. -/
theorem run_restore_raster (list : Nat) (h : RasterMirrors t n)
    (hnative : t.has_sample_positions = true → t.sample_native = list) (m : NativeList)
    (hm : t.has_sample_positions = false → m.sample_positions = n.sample_positions) :
    runs.run call m (t.restore_raster list) =
      { m with sample_positions := n.sample_positions, topology := n.topology
               viewports := n.viewports, scissors := n.scissors } := by
  obtain ⟨h1, h2, h3, h4, h5⟩ := h
  unfold restore_raster restore_sample_positions
  rcases hs : t.has_sample_positions with _ | _
  · rw [h3, h4, h5, ← hm hs]
    rfl
  rw [h1, h3, h4, h5, if_neg (by simp [hnative hs]), hs]
  simp [runs.run, call, h2]

end

/-! ## The calls of the stamp -/

/-- The draws around the marks leave the scissors of the last piece. -/
theorem run_pieces (pieces : List Rect) (m : NativeList) :
    ∃ s, runs.run call m
      (pieces.flatMap fun piece => [.RSSetScissorRects [piece], .DrawInstanced]) = { m with scissors := s } := by
  induction pieces generalizing m with
  | nil => exact ⟨m.scissors, rfl⟩
  | cons piece rest ih =>
    obtain ⟨s, hs⟩ := ih { m with scissors := [piece] }
    exact ⟨s, hs⟩

/-- The draws change the scissors at most, and without a draw there are none. -/
theorem run_draws (q : StampRequest) (keep_marks : Bool) (m : NativeList) :
    ∃ s, runs.run call m (draws q keep_marks) = { m with scissors := s } ∧ (q.draw = false → s = m.scissors) := by
  unfold draws
  generalize (if keep_marks = true then q.pieces (target q) else []) = pieces
  cases q.draw with
  | false => exact ⟨m.scissors, rfl, fun _ => rfl⟩
  | true =>
    rw [Bool.not_true, if_neg Bool.false_ne_true]
    split
    · exact ⟨m.scissors, rfl, fun _ => rfl⟩
    obtain ⟨s, hs⟩ := run_pieces pieces m
    exact ⟨s, hs, nofun⟩

theorem includes_eq (group member : PfdStateGroup) :
    includes_pfd_state_group group member = decide (group = .all ∨ group = member) := by
  cases group <;> cases member <;> rfl

/-- The bindings of the groups that a stamp leaves alone. -/
structure KeepsOutside (group : PfdStateGroup) (m m' : NativeList) : Prop where
  heaps : m'.heaps = m.heaps
  pipeline : includes_pfd_state_group group .pipeline = false →
    m'.pipeline = m.pipeline ∧ m'.depth_bias = m.depth_bias ∧ m'.strip_cut = m.strip_cut
  root : includes_pfd_state_group group .root_bindings = false →
    m'.root = m.root ∧ m'.arguments = m.arguments
  raster : includes_pfd_state_group group .raster = false →
    m'.topology = m.topology ∧ m'.viewports = m.viewports ∧ m'.scissors = m.scissors

theorem call_stamp_root (m : NativeList) (address : Nat) (words : List Nat) :
    ∃ arguments, runs.run call m [.SetGraphicsRootSignature .stamp,
      .SetGraphicsRootView .srv 0 address, .SetGraphicsRoot32BitConstants 1 words 0] =
        { m with root := .stamp, arguments := arguments } := by
  simp only [runs.run_cons, runs.run_nil]
  by_cases h : m.root = .stamp
  · have hset : m.call (.SetGraphicsRootSignature .stamp) = m := if_pos h
    rw [hset, ← h]
    exact ⟨_, rfl⟩
  have hset : m.call (.SetGraphicsRootSignature .stamp) =
      { m with root := .stamp, arguments := fun _ => none } := if_neg h
  rw [hset]
  exact ⟨_, rfl⟩

/-- The patch binds the stamp's root signature, and leaves the other groups and the sample
positions. -/
theorem run_record_patch {p : PfdStampD3D12} {list : Nat} {q : StampRequest} {keep_marks : Bool}
    {calls : List Call} (h : p.record_patch list q keep_marks = some calls) (m : NativeList) :
    KeepsOutside q.group m (runs.run call m calls) ∧ (runs.run call m calls).sample_positions = m.sample_positions ∧
      (includes_pfd_state_group q.group .root_bindings = true → (runs.run call m calls).root = .stamp) := by
  unfold record_patch at h
  split at h
  · cases h
  rename_i hallowed
  have hdraw : q.group ≠ .all → q.draw = false := by
    intro hg
    by_contra hd
    exact hallowed (by simp [hg, hd])
  injection h with h
  subst h
  simp only [runs.run_append]
  cases hg : q.group with
  | all =>
    simp only [includes_eq, true_or, decide_true, if_true]
    obtain ⟨arguments, hroot⟩ := call_stamp_root (m.call (.SetPipelineState p.pipeline))
      q.address (shader_constants (target q) (q.content.getD (target q)))
    have hpipeline : runs.run call m [.SetPipelineState p.pipeline] = m.call (.SetPipelineState p.pipeline) := rfl
    rw [hpipeline, hroot]
    simp only [runs.run_cons, runs.run_nil]
    obtain ⟨s, hs, -⟩ := run_draws q keep_marks
      (((({ m.call (.SetPipelineState p.pipeline) with root := .stamp, arguments := arguments } :
        NativeList).call (.IASetPrimitiveTopology TOPOLOGY_TRIANGLELIST)).call
          (.RSSetViewports [stamp_viewport (target q)])).call (.RSSetScissorRects [target q]))
    rw [hs]
    exact ⟨⟨rfl, nofun, nofun, nofun⟩, rfl, fun _ => rfl⟩
  | pipeline =>
    obtain ⟨s, hs, hsame⟩ := run_draws q keep_marks (m.call (.SetPipelineState p.pipeline))
    have hsame := hsame (hdraw (by rw [hg]; decide))
    simp only [includes_eq, reduceCtorEq, or_true, or_self, decide_true, decide_false, if_true,
      Bool.false_eq_true, if_false, runs.run_cons, runs.run_nil]
    rw [hs, hsame]
    exact ⟨⟨rfl, nofun, fun _ => ⟨rfl, rfl⟩, fun _ => ⟨rfl, rfl, rfl⟩⟩, rfl, nofun⟩
  | root_bindings =>
    obtain ⟨arguments, hroot⟩ := call_stamp_root m q.address (shader_constants (target q) (q.content.getD (target q)))
    obtain ⟨s, hs, hsame⟩ := run_draws q keep_marks { m with root := .stamp, arguments := arguments }
    have hsame := hsame (hdraw (by rw [hg]; decide))
    simp only [includes_eq, reduceCtorEq, or_true, or_self, decide_true, decide_false, if_true,
      Bool.false_eq_true, if_false, runs.run_nil]
    rw [hroot, hs, hsame]
    exact ⟨⟨rfl, fun _ => ⟨rfl, rfl, rfl⟩, nofun, fun _ => ⟨rfl, rfl, rfl⟩⟩, rfl, fun _ => rfl⟩
  | raster =>
    obtain ⟨s, hs, -⟩ := run_draws q keep_marks
      (((m.call (.IASetPrimitiveTopology TOPOLOGY_TRIANGLELIST)).call
        (.RSSetViewports [stamp_viewport (target q)])).call (.RSSetScissorRects [target q]))
    simp only [includes_eq, reduceCtorEq, or_true, or_self, decide_true, decide_false, if_true,
      Bool.false_eq_true, if_false, runs.run_cons, runs.run_nil]
    rw [hs]
    exact ⟨⟨rfl, fun _ => ⟨rfl, rfl, rfl⟩, fun _ => ⟨rfl, rfl⟩, nofun⟩, rfl, nofun⟩

/-! ## One stamp -/

theorem complete_spec {t : PfdGraphicsState} (h : t.complete = true) :
    t.invalid_reason = none ∧ t.layout.valid = true := by
  simp only [complete, Option.isNone_iff_eq_none, incomplete_reason] at h
  split at h
  · rename_i hs
    rw [h] at hs
    cases hs
  rename_i hs
  refine ⟨by simpa using hs, ?_⟩
  split_ifs at h
  all_goals simp_all

section
variable {t : PfdGraphicsState} {n : NativeList}

/-- The calls of `restore` put back what a stamp of the same group changed. -/
theorem run_restore {list : Nat} {group : PfdStateGroup} (h : Mirrors t n)
    (hrestore : t.can_restore list = true) {m : NativeList} (houtside : KeepsOutside group n m)
    (hsame : (includes_pfd_state_group group .raster && t.has_sample_positions) = false →
      m.sample_positions = n.sample_positions)
    (hroot : includes_pfd_state_group group .root_bindings = true → m.root = .stamp) :
    runs.run call m (t.restore list group) = n := by
  simp only [can_restore, Bool.and_eq_true, Bool.or_eq_true, Bool.not_eq_true', beq_iff_eq] at hrestore
  obtain ⟨⟨hcomplete, hdynamic⟩, hsamples⟩ := hrestore
  have hvalid := (complete_spec hcomplete).2
  have hnative : t.has_sample_positions = true → t.sample_native = list := by
    intro hs
    rcases hsamples with hs' | hs'
    · rw [hs] at hs'; cases hs'
    · exact hs'
  have hproceeds : ((includes_pfd_state_group group .pipeline &&
      (t.depth_bias_known || t.strip_cut_known) && t.dynamic_native != list) ||
      (includes_pfd_state_group group .raster && t.has_sample_positions && t.sample_native != list)) = false := by
    have h1 : ((t.depth_bias_known || t.strip_cut_known) && t.dynamic_native != list) = false := by
      rcases hdynamic with hd | hd <;> simp [hd]
    have h2 : (t.has_sample_positions && t.sample_native != list) = false := by
      rcases hsamples with hs | hs <;> simp [hs]
    rw [Bool.and_assoc, Bool.and_assoc, h1, h2, Bool.and_false, Bool.and_false, Bool.or_false]
  unfold restore
  simp only [hproceeds, Bool.false_eq_true, if_false, runs.run_append]
  obtain ⟨hheaps, hpipeline, hbindings, hraster⟩ := houtside
  cases group with
  | all =>
    simp only [includes_eq, true_or, decide_true, if_true, Bool.true_and] at hsame ⊢
    rw [run_restore_pipeline h.pipeline, run_restore_root h hvalid _ (by exact hroot rfl),
      run_restore_raster list h.raster hnative _ (by exact hsame), hheaps]
  | pipeline =>
    obtain ⟨h1, h2⟩ := hbindings rfl
    obtain ⟨h3, h4, h5⟩ := hraster rfl
    have hsame := hsame rfl
    simp only [includes_eq, reduceCtorEq, or_true, or_self, decide_true, decide_false, if_true,
      Bool.false_eq_true, if_false, runs.run_nil]
    rw [run_restore_pipeline h.pipeline, h1, h2, h3, h4, h5, hsame, hheaps]
  | root_bindings =>
    obtain ⟨h1, h2, h3⟩ := hpipeline rfl
    obtain ⟨h4, h5, h6⟩ := hraster rfl
    have hsame := hsame rfl
    simp only [includes_eq, reduceCtorEq, or_true, or_self, decide_true, decide_false, if_true,
      Bool.false_eq_true, if_false, runs.run_nil]
    rw [run_restore_root h hvalid _ (hroot rfl), h1, h2, h3, h4, h5, h6, hsame, hheaps]
  | raster =>
    obtain ⟨h1, h2, h3⟩ := hpipeline rfl
    obtain ⟨h4, h5⟩ := hbindings rfl
    simp only [includes_eq, reduceCtorEq, or_true, or_self, decide_true, decide_false, if_true,
      Bool.false_eq_true, if_false, Bool.true_and, runs.run_nil] at hsame ⊢
    rw [run_restore_raster list h.raster hnative _ hsame, h1, h2, h3, h4, h5, hheaps]

/-- A stamp over a mirrored list leaves every binding as it was. -/
theorem run_record_buffer (p : PfdStampD3D12) (list : Nat) (q : StampRequest) (h : Tracks t n) :
    runs.run call n (p.record_buffer list t q).2 = n := by
  unfold record_buffer
  dsimp only
  split
  · rfl
  rename_i hallowed
  simp only [Bool.or_eq_true, Bool.not_eq_true', not_or, Bool.not_eq_false] at hallowed
  have hrestore := hallowed.2
  have hcomplete : t.complete = true := by
    simp only [can_restore, Bool.and_eq_true] at hrestore
    exact hrestore.1.1
  have m := h (complete_spec hcomplete).1
  split
  · rfl
  split
  · rfl
  have hnormal : runs.run call n
      (if (includes_pfd_state_group q.group .raster && t.has_sample_positions) = true then
        [.SetSamplePositions 0 0 none] else []) =
      if includes_pfd_state_group q.group .raster && t.has_sample_positions then
        { n with sample_positions := none } else n := by
    split <;> rfl
  cases hpatch : p.record_patch list q true with
  | some calls =>
    rw [runs.run_append, runs.run_append, hnormal]
    split
    · rename_i hs
      obtain ⟨houtside, -, hroot⟩ := run_record_patch hpatch { n with sample_positions := none }
      exact run_restore m hrestore ⟨houtside.heaps, houtside.pipeline, houtside.root, houtside.raster⟩
        (fun hf => by rw [hs] at hf; cases hf) hroot
    obtain ⟨houtside, hsame, hroot⟩ := run_record_patch hpatch n
    exact run_restore m hrestore houtside (fun _ => hsame) hroot
  | none =>
    rw [runs.run_append, hnormal]
    split
    · rename_i hs
      have hsamples := (Bool.and_eq_true_iff.mp hs).2
      have hnative : t.sample_native = list := by
        simp only [can_restore, Bool.and_eq_true, Bool.or_eq_true, Bool.not_eq_true',
          beq_iff_eq, hsamples, reduceCtorEq, false_or] at hrestore
        exact hrestore.2
      have hmine := m.raster.1
      rw [hsamples, if_pos rfl] at hmine
      have hcalls : t.restore_sample_positions list =
          [.SetSamplePositions t.sample_count t.sample_pixels (some t.sample_positions)] := by
        simp [restore_sample_positions, hsamples, hnative]
      rw [hcalls, runs.run_cons, runs.run_nil]
      simp only [call, m.raster.2.1, ← hmine]
    · rfl

end

/-! ## Runs of a list -/

/-- A step of a list between two Resets: a call of the application, with the lookup of its
root signature, or a stamp. -/
inductive ListStep
  | application (c : Call) (found : Bool)
  | stamp (p : PfdStampD3D12) (q : StampRequest)

/-- The bindings of the list and what the bridge tracks of them. -/
structure TrackedList where
  native : NativeList
  tracked : PfdGraphicsState

/-- Reset or ClearState with a pipeline. -/
def TrackedList.opened (pipeline generation : Nat) (observed : Bool) : TrackedList :=
  ⟨{ pipeline := pipeline }, (({} : PfdGraphicsState).reset generation observed).bind_pipeline pipeline⟩

def TrackedList.step (list : Nat) (s : TrackedList) : ListStep → TrackedList
  | .application c found => ⟨s.native.call c, report list s.tracked c found⟩
  | .stamp p q => ⟨runs.run call s.native (p.record_buffer list s.tracked q).2, s.tracked⟩

/-- The calls that the tracked state can follow. -/
def Followed (s : TrackedList) : ListStep → Prop
  | .application c found => ¬ Loses s.tracked s.native found c
  | .stamp _ _ => True

theorem tracks_opened (pipeline generation : Nat) (observed : Bool) :
    Tracks (TrackedList.opened pipeline generation observed).tracked
      (TrackedList.opened pipeline generation observed).native :=
  fun _ => ⟨⟨rfl, rfl, rfl⟩, ⟨rfl, rfl, rfl, rfl, rfl⟩, ⟨nofun, fun _ => rfl⟩,
    ⟨nodup_nil, nofun, Nat.zero_le _, fun _ hi => absurd rfl hi⟩,
    ⟨fun hr => absurd rfl hr, nofun⟩⟩

theorem tracks_step (list : Nat) (s : TrackedList) (a : ListStep)
    (h : Tracks s.tracked s.native) (hg : Followed s a) :
    Tracks (s.step list a).tracked (s.step list a).native := by
  cases a with
  | application c found => exact tracks_report list c found h hg
  | stamp p q =>
    dsimp only [TrackedList.step]
    rw [run_record_buffer p list q h]
    exact h

/-- In every run whose calls can be followed, a stamp leaves every graphics binding of the list
as it was, whether it is recorded or refused. -/
theorem stamp_leaves_the_graphics_state_as_it_was (list pipeline generation : Nat)
    (observed : Bool) (steps : List ListStep)
    (h : runs.Guarded (TrackedList.step list) Followed (TrackedList.opened pipeline generation observed) steps)
    (p : PfdStampD3D12) (q : StampRequest) :
    let s := runs.run (TrackedList.step list) (TrackedList.opened pipeline generation observed) steps
    runs.run call s.native (p.record_buffer list s.tracked q).2 = s.native := by
  have hinv : Tracks (runs.run (TrackedList.step list)
      (TrackedList.opened pipeline generation observed) steps).tracked (runs.run
        (TrackedList.step list) (TrackedList.opened pipeline generation observed) steps).native :=
    runs.guarded_invariant (fun s a hs hg => tracks_step list s a hs hg) steps
      (tracks_opened pipeline generation observed) h
  exact run_record_buffer p list q hinv

/-- The calls that complete a state with a pipeline and a root signature. -/
def raster_calls : List ListStep :=
  [.application (.IASetPrimitiveTopology 4) true,
    .application (.RSSetViewports [stamp_viewport ⟨0, 0, 8, 8⟩]) true,
    .application (.RSSetScissorRects [⟨0, 0, 8, 8⟩]) true]

/-- A stamp behind a root signature with one word set. -/
theorem stamp_behind_one_word :
    let steps := .application (.SetGraphicsRootSignature (.application 5 5)) true ::
      .application (.SetGraphicsRoot32BitConstant 0 7 0) true :: raster_calls
    let s := runs.run (TrackedList.step 1) (TrackedList.opened 1 1 true) steps
    runs.run call s.native
      (record_buffer ⟨2, 3⟩ 1 s.tracked ⟨2, 4, 8, 8, none, none, true, .all, true, true, true,
        fun r => [r]⟩).2 = s.native := by
  intro steps
  exact stamp_leaves_the_graphics_state_as_it_was 1 1 1 true steps
    ⟨fun h => (nomatch h.2.2.2.2.1), id, id, id, id, trivial⟩ _ _

/-- A bound root signature with one word set, bound again with a refused lookup and then with
a successful one: the stamp is recorded, and the word is gone. -/
theorem word_is_lost_behind_a_refused_lookup :
    let root := Call.SetGraphicsRootSignature (.application 5 5)
    let steps := .application root true :: .application (.SetGraphicsRoot32BitConstant 0 7 0) true ::
      .application root false :: .application root true :: raster_calls
    let s := runs.run (TrackedList.step 1) (TrackedList.opened 1 1 true) steps
    let stamp := record_buffer ⟨2, 3⟩ 1 s.tracked ⟨2, 4, 8, 8, none, none, true, .all, true, true, true, fun r => [r]⟩
    stamp.1 = true ∧ s.native.arguments (.word 0 0) = some 7 ∧
      (runs.run call s.native stamp.2).arguments (.word 0 0) = none := by
  decide

/-- A table set with no heaps, behind an empty set of heaps, is lost too. -/
example :
    let steps := .application (.SetGraphicsRootSignature (.application 5 5)) true ::
      .application (.SetGraphicsRootDescriptorTable 0 9) true ::
      .application (.SetDescriptorHeaps []) true :: raster_calls
    let s := runs.run (TrackedList.step 1) (TrackedList.opened 1 1 true) steps
    let stamp := record_buffer ⟨2, 3⟩ 1 s.tracked ⟨2, 4, 8, 8, none, none, true, .all, true, true,
      true, fun r => [r]⟩
    stamp.1 = true ∧ s.native.arguments (.table 0) = some 9 ∧
      (runs.run call s.native stamp.2).arguments (.table 0) = none := by
  decide

end taxi_camera
