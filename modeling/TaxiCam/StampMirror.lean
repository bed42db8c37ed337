-- The tracked state mirrors the bindings of its list. Each reported call keeps
-- the mirror, except two: a bound root signature that comes back after it was
-- reported as null, and an empty set of heaps that is the first one.
import Mathlib.Data.List.Nodup
import TaxiCam.StampState

namespace taxi_camera

open PfdGraphicsState List
open Function (update_of_ne update_self)
open Function (update)
open NativeList (call write)

/-! ## The invariant -/

/-- The arguments that `restore` would set. -/
def tracked (t : PfdGraphicsState) : Argument → Option Nat
  | .word index offset =>
    if offset < 64 ∧ index * 64 + offset ∈ t.observed_word_keys then
      some (t.constants (t.observed_word_keys.idxOf (index * 64 + offset)))
    else none
  | .table index =>
    if (t.layout.parameters index).count ≠ 0 ∧ (t.layout.parameters index).kind = .table ∧
        (t.values index).known ≠ 0#64 then some (t.values index).address
    else none
  | .view kind index =>
    if kind ≠ .table ∧ kind ≠ .constants ∧ (t.layout.parameters index).count ≠ 0 ∧
        (t.layout.parameters index).kind = kind ∧ (t.values index).known ≠ 0#64 then
      some (t.values index).address
    else none

def PipelineMirrors (t : PfdGraphicsState) (n : NativeList) : Prop :=
  n.pipeline = t.pipeline ∧
  n.depth_bias = (if t.depth_bias_known then some t.depth_bias else none) ∧
  n.strip_cut = if t.strip_cut_known then some t.strip_cut else none

def RasterMirrors (t : PfdGraphicsState) (n : NativeList) : Prop :=
  n.sample_positions = (if t.has_sample_positions then
    some (t.sample_count, t.sample_pixels, t.sample_positions) else none) ∧
  t.sample_positions.take (t.sample_count * t.sample_pixels) = t.sample_positions ∧
  n.topology = t.topology ∧ n.viewports = t.viewports ∧ n.scissors = t.scissors

/-- Before the first report the list has no heaps. -/
def HeapsMirror (t : PfdGraphicsState) (n : NativeList) : Prop :=
  (t.heaps_known = true → n.heaps = t.heaps ∧ valid_heaps t.heaps = true) ∧
  (t.heaps_known = false → n.heaps = [])

/-- The observed words and parameters are those of a root signature. -/
def LayoutGood (t : PfdGraphicsState) : Prop :=
  t.observed_word_keys.Nodup ∧ (∀ key ∈ t.observed_word_keys, key < 4096) ∧
  t.layout.count ≤ 64 ∧ ∀ i, (t.layout.parameters i).count ≠ 0 → i < t.layout.count

/-- A root signature that was found is the one that is bound, with the tracked arguments. -/
def RootMirrors (t : PfdGraphicsState) (n : NativeList) : Prop :=
  (t.root ≠ 0 → t.observed_arguments = true ∧
    n.root = .application t.root t.layout_generation) ∧
  (t.layout.valid = true → t.root ≠ 0 ∧ n.arguments = tracked t)

structure Mirrors (t : PfdGraphicsState) (n : NativeList) : Prop where
  pipeline : PipelineMirrors t n
  raster : RasterMirrors t n
  heaps : HeapsMirror t n
  layout : LayoutGood t
  root : RootMirrors t n

/-- A state that is not invalid mirrors the list. -/
def Tracks (t : PfdGraphicsState) (n : NativeList) : Prop :=
  t.invalid_reason = none → Mirrors t n

@[simp] theorem invalidate_reason (t : PfdGraphicsState) (reason : String) :
    (t.invalidate reason).invalid_reason ≠ none := by
  unfold invalidate
  cases t.invalid_reason <;> simp

/-- An invalid state tracks nothing. -/
theorem tracks_invalidate (t : PfdGraphicsState) (reason : String) (n : NativeList) :
    Tracks (t.invalidate reason) n := fun h => absurd h (invalidate_reason t reason)

/-! ## Pipelines and the raster state -/

section
variable {t : PfdGraphicsState} {n : NativeList}

theorem tracks_bind_pipeline (pipeline : Nat) (h : Tracks t n) :
    Tracks (t.bind_pipeline pipeline) (n.call (.SetPipelineState pipeline)) := by
  intro hok
  obtain ⟨-, hraster, hheaps, hlayout, hroot⟩ := h hok
  exact ⟨⟨rfl, rfl, rfl⟩, hraster, hheaps, hlayout, hroot⟩

theorem tracks_set_depth_bias (list : Nat) (bias clamp slope : Float32) (h : Tracks t n) :
    Tracks (t.set_depth_bias list bias clamp slope) (n.call (.RSSetDepthBias bias clamp slope)) := by
  unfold set_depth_bias
  split
  · exact tracks_invalidate _ _ _
  intro hok
  obtain ⟨hpipeline, hraster, hheaps, hlayout, hroot⟩ := h hok
  exact ⟨⟨hpipeline.1, rfl, hpipeline.2.2⟩, hraster, hheaps, hlayout, hroot⟩

theorem tracks_set_strip_cut (list value : Nat) (h : Tracks t n) :
    Tracks (t.set_strip_cut list value) (n.call (.IASetIndexBufferStripCutValue value)) := by
  unfold set_strip_cut
  split
  · exact tracks_invalidate _ _ _
  intro hok
  obtain ⟨hpipeline, hraster, hheaps, hlayout, hroot⟩ := h hok
  exact ⟨⟨hpipeline.1, hpipeline.2.1, rfl⟩, hraster, hheaps, hlayout, hroot⟩

theorem tracks_set_sample_positions (list samples pixels : Nat)
    (positions : Option (List SamplePosition)) (h : Tracks t n) :
    Tracks (t.set_sample_positions list samples pixels positions)
      (n.call (.SetSamplePositions samples pixels positions)) := by
  unfold set_sample_positions
  split
  · exact tracks_invalidate _ _ _
  rcases positions with _ | positions
  · dsimp only
    split
    · intro hok
      obtain ⟨hpipeline, hraster, hheaps, hlayout, hroot⟩ := h hok
      exact ⟨hpipeline, ⟨rfl, rfl, hraster.2.2⟩, hheaps, hlayout, hroot⟩
    · exact tracks_invalidate _ _ _
  dsimp only
  split
  · exact tracks_invalidate _ _ _
  rename_i hvalid
  split
  · exact tracks_invalidate _ _ _
  intro hok
  obtain ⟨hpipeline, hraster, hheaps, hlayout, hroot⟩ := h hok
  have hcount : samples ≠ 0 := by
    rintro rfl
    simp [valid_samples] at hvalid
  refine ⟨hpipeline, ⟨?_, ?_, hraster.2.2⟩, hheaps, hlayout, hroot⟩
  · simp [call, has_sample_positions, hcount]
  · exact (take_take ..).trans (by rw [Nat.min_self])

theorem tracks_set_topology (value : Nat) (h : Tracks t n) :
    Tracks (t.set_topology value) (n.call (.IASetPrimitiveTopology value)) := by
  intro hok
  obtain ⟨hpipeline, hraster, hheaps, hlayout, hroot⟩ := h hok
  exact ⟨hpipeline, ⟨hraster.1, hraster.2.1, rfl, hraster.2.2.2⟩, hheaps, hlayout, hroot⟩

theorem tracks_set_viewports (data : List Viewport) (h : Tracks t n) :
    Tracks (t.set_viewports data) (n.call (.RSSetViewports data)) := by
  unfold set_viewports
  split
  · exact tracks_invalidate _ _ _
  split
  · exact tracks_invalidate _ _ _
  intro hok
  obtain ⟨hpipeline, hraster, hheaps, hlayout, hroot⟩ := h hok
  exact ⟨hpipeline, ⟨hraster.1, hraster.2.1, hraster.2.2.1, rfl, hraster.2.2.2.2⟩, hheaps, hlayout, hroot⟩

theorem tracks_set_scissors (data : List Rect) (h : Tracks t n) :
    Tracks (t.set_scissors data) (n.call (.RSSetScissorRects data)) := by
  unfold set_scissors
  split
  · exact tracks_invalidate _ _ _
  intro hok
  obtain ⟨hpipeline, hraster, hheaps, hlayout, hroot⟩ := h hok
  exact ⟨hpipeline, ⟨hraster.1, hraster.2.1, hraster.2.2.1, hraster.2.2.2.1, rfl⟩, hheaps, hlayout, hroot⟩

end

/-! ## Descriptor heaps -/

/-- Sets of at most two heaps compare as the sources compare them. -/
theorem same_heaps_eq {a b : List Nat} (ha : valid_heaps a = true) (hb : valid_heaps b = true) :
    same_heaps a b = equal_heaps a b := by
  rcases a with _ | ⟨a1, _ | ⟨a2, _ | ⟨a3, a⟩⟩⟩
  · rcases b with _ | ⟨b1, b⟩
    · rfl
    · simp [same_heaps, equal_heaps]
  · rcases b with _ | ⟨b1, _ | ⟨b2, _ | ⟨b3, b⟩⟩⟩
    · simp [same_heaps, equal_heaps]
    · rw [Bool.eq_iff_iff]
      simp only [same_heaps, equal_heaps, all_cons, all_nil, contains_cons,
        contains_nil, Bool.or_false, Bool.and_true, Bool.and_eq_true, beq_iff_eq]
      exact ⟨fun h => h.1, fun h => ⟨h, h.symm⟩⟩
    · simp only [valid_heaps, Bool.and_eq_true, bne_iff_ne] at hb
      rw [Bool.eq_iff_iff]
      simp only [same_heaps, equal_heaps, all_cons, all_nil, contains_cons,
        contains_nil, Bool.or_false, Bool.and_true, Bool.and_eq_true, Bool.or_eq_true,
        beq_iff_eq, Bool.false_eq_true, iff_false]
      rintro ⟨-, h1, h2⟩
      exact hb.2 (h1.trans h2.symm)
    · simp [valid_heaps] at hb
  · rcases b with _ | ⟨b1, _ | ⟨b2, _ | ⟨b3, b⟩⟩⟩
    · simp [same_heaps, equal_heaps]
    · simp only [valid_heaps, Bool.and_eq_true, bne_iff_ne] at ha
      rw [Bool.eq_iff_iff]
      simp only [same_heaps, equal_heaps, all_cons, all_nil, contains_cons,
        contains_nil, Bool.or_false, Bool.and_true, Bool.and_eq_true, Bool.or_eq_true,
        beq_iff_eq, Bool.false_eq_true, iff_false]
      rintro ⟨⟨h1, h2⟩, -⟩
      exact ha.2 (h1.trans h2.symm)
    · rw [Bool.eq_iff_iff]
      simp only [same_heaps, equal_heaps, all_cons, all_nil, contains_cons,
        contains_nil, Bool.or_false, Bool.and_true, Bool.and_eq_true, Bool.or_eq_true,
        beq_iff_eq]
      omega
    · simp [valid_heaps] at hb
  · simp [valid_heaps] at ha

section
variable {t : PfdGraphicsState} {n : NativeList}

/-- A change of heaps takes the tables, and nothing else, from the tracked arguments. -/
theorem tracked_heaps_changed (h : LayoutGood t) :
    tracked t.descriptor_heaps_changed = without_tables (tracked t) := by
  funext a
  cases a with
  | word index offset => rfl
  | table index =>
    simp only [tracked, descriptor_heaps_changed, without_tables, Argument.is_table, if_true,
      ite_eq_right_iff, reduceCtorEq, imp_false]
    rintro ⟨hcount, hkind, hknown⟩
    have hat : t.table_at index = true := by
      simp [table_at, hkind, h.2.2.2 index hcount]
    simp [hat] at hknown
  | view kind index =>
    simp only [tracked, descriptor_heaps_changed, without_tables, Argument.is_table, Bool.false_eq_true, if_false]
    by_cases hat : t.table_at index = true
    · have hkind : (t.layout.parameters index).kind = .table := by
        simp only [table_at, Bool.and_eq_true, beq_iff_eq] at hat
        exact hat.2
      rw [if_neg (by rintro ⟨h1, -, -, h2, -⟩; exact h1 (h2.symm.trans hkind)),
        if_neg (by rintro ⟨h1, -, -, h2, -⟩; exact h1 (h2.symm.trans hkind))]
    · simp [hat]

/-- A first set of heaps that is empty, while a table of a tracked root signature is defined. -/
def LosesTables (t : PfdGraphicsState) (n : NativeList) (heaps : List Nat) : Prop :=
  t.invalid_reason = none ∧ t.layout.valid = true ∧ t.heaps_known = false ∧ heaps = [] ∧
    ∃ index, n.arguments (.table index) ≠ none

theorem without_tables_eq {arguments : Argument → Option Nat}
    (h : ∀ index, arguments (.table index) = none) : without_tables arguments = arguments := by
  funext a
  cases a with
  | table index => simp [without_tables, Argument.is_table, h index]
  | _ => rfl

/-- The tracked arguments after the new heaps: the tables go unless the set is the same. -/
theorem tracked_heaps (heaps : List Nat) (hv : valid_heaps heaps = true) (h : LayoutGood t) :
    tracked (t.descriptor_heaps heaps) = if t.heaps_known && equal_heaps t.heaps heaps then tracked t
      else without_tables (tracked t) := by
  have hchanged := tracked_heaps_changed h
  unfold descriptor_heaps
  simp only [hv, Bool.not_true, Bool.false_eq_true, if_false]
  split
  · rfl
  split
  · exact hchanged
  · exact hchanged

theorem tracks_descriptor_heaps (heaps : List Nat) (h : Tracks t n) (hg : ¬ LosesTables t n heaps) :
    Tracks (t.descriptor_heaps heaps) (n.call (.SetDescriptorHeaps heaps)) := by
  by_cases hv : valid_heaps heaps = true
  · have hfields : (t.descriptor_heaps heaps).invalid_reason = t.invalid_reason ∧
        (t.descriptor_heaps heaps).heaps_known = true ∧ (t.descriptor_heaps heaps).heaps = heaps ∧
        (t.descriptor_heaps heaps).root = t.root ∧
        (t.descriptor_heaps heaps).layout = t.layout ∧
        (t.descriptor_heaps heaps).layout_generation = t.layout_generation ∧
        (t.descriptor_heaps heaps).observed_arguments = t.observed_arguments ∧
        (t.descriptor_heaps heaps).observed_word_keys = t.observed_word_keys := by
      unfold descriptor_heaps
      simp only [hv, Bool.not_true, Bool.false_eq_true, if_false]
      split_ifs <;> simp [descriptor_heaps_changed]
    have hparts : (PipelineMirrors t n → PipelineMirrors (t.descriptor_heaps heaps) n) ∧
        (RasterMirrors t n → RasterMirrors (t.descriptor_heaps heaps) n) := by
      unfold descriptor_heaps
      simp only [hv, Bool.not_true, Bool.false_eq_true, if_false]
      split_ifs <;> exact ⟨id, id⟩
    obtain ⟨hreason, hknown, hheaps, hroot, hlayout, hgeneration, hobserved, hkeys⟩ := hfields
    intro hok
    rw [hreason] at hok
    obtain ⟨mpipeline, mraster, mheaps, mlayout, mroot⟩ := h hok
    have htracked := tracked_heaps heaps hv mlayout
    have hgood : LayoutGood (t.descriptor_heaps heaps) := by
      unfold LayoutGood
      rw [hkeys, hlayout]
      exact mlayout
    have hsame : same_heaps n.heaps heaps = (t.heaps_known && equal_heaps t.heaps heaps) ∨
        (t.heaps_known = false ∧ heaps = []) := by
      rcases hk : t.heaps_known with _ | _
      · rcases heaps with _ | ⟨a, rest⟩
        · exact .inr ⟨rfl, rfl⟩
        left
        rw [mheaps.2 hk]
        simp [same_heaps]
      left
      rw [(mheaps.1 hk).1, same_heaps_eq (mheaps.1 hk).2 hv, Bool.true_and]
    have harguments : t.layout.valid = true →
        (n.call (.SetDescriptorHeaps heaps)).arguments = tracked (t.descriptor_heaps heaps) := by
      intro hvalid
      have hargs := (mroot.2 hvalid).2
      rw [htracked]
      simp only [call]
      rcases hsame with hsame | ⟨hk, hempty⟩
      · rw [hsame]
        split
        · exact hargs
        · rw [hargs]
      -- the guard: no table is defined, so that there is none to lose
      have hnone : ∀ index, n.arguments (.table index) = none := by
        intro index
        by_contra hd
        exact hg ⟨hok, hvalid, hk, hempty, index, hd⟩
      have hkeep := without_tables_eq hnone
      rw [hargs] at hkeep
      simp only [hk, Bool.false_and, Bool.false_eq_true, if_false, hkeep]
      split
      · exact hargs
      · rw [hargs, hkeep]
    refine ⟨?_, ?_, ?_, hgood, ?_⟩
    · have := hparts.1 mpipeline
      simp only [call]
      split <;> exact this
    · have := hparts.2 mraster
      simp only [call]
      split <;> exact this
    · have hset : (n.call (.SetDescriptorHeaps heaps)).heaps = heaps := by
        simp only [call]
        split <;> rfl
      exact ⟨fun _ => ⟨by rw [hset, hheaps], by rw [hheaps, hv]⟩, fun hf => by
        rw [hknown] at hf; cases hf⟩
    · have hbound : (n.call (.SetDescriptorHeaps heaps)).root = n.root := by
        simp only [call]
        split <;> rfl
      unfold RootMirrors
      rw [hbound, hroot, hlayout, hgeneration, hobserved]
      exact ⟨mroot.1, fun hvalid => ⟨(mroot.2 hvalid).1, harguments hvalid⟩⟩
  · have hinvalid : t.descriptor_heaps heaps =
        ({ t with heaps_known := false }.descriptor_heaps_changed).invalidate
          "descriptor_heap_arguments_invalid" := by
      unfold descriptor_heaps
      rw [if_pos (by simpa using hv)]
    rw [hinvalid]
    exact tracks_invalidate _ _ _

end

/-! ## Root signatures -/

section
variable {t : PfdGraphicsState} {n : NativeList}

/-- A root signature that comes back, found, after it was reported as null while it was bound
and an argument of it is defined. -/
def LosesArguments (t : PfdGraphicsState) (n : NativeList) (root : RootSignature) : Prop :=
  t.invalid_reason = none ∧ t.observed = true ∧ t.root = 0 ∧ n.root = root ∧
    ∃ a, n.arguments a ≠ none

/-- What `bind_observed_root` writes for another root signature. -/
def bound_root (t : PfdGraphicsState) (root generation : Nat) : PfdGraphicsState :=
  { t with
    root := root
    layout_generation := generation
    layout := { valid := t.observed && root != 0 && generation != 0 }
    values := fun _ => {}
    native_root_observed := t.observed
    undefined_tables := fun _ => false
    constants := fun _ => 0
    constant_offsets := fun _ => 0
    observed_arguments := true
    observed_word_keys := [] }

theorem bind_observed_root_eq (root generation : Nat) :
    t.bind_observed_root root generation =
      if t.observed_arguments && t.root == root && t.layout_generation == generation then t
      else bound_root t root generation := by
  simp [bind_observed_root, bind_root, bound_root]

theorem tracked_bound_root (root generation : Nat) : tracked (bound_root t root generation) = fun _ => none := by
  funext a
  cases a <;> simp [tracked, bound_root]

/-- A new root signature, over a list that has it bound with no argument. -/
theorem mirrors_bound_root {n' : NativeList} (root generation : Nat) (h : Mirrors t n)
    (hpipeline : PipelineMirrors t n → PipelineMirrors t n')
    (hraster : RasterMirrors t n → RasterMirrors t n') (hheaps : n'.heaps = n.heaps)
    (hroot : root ≠ 0 → n'.root = .application root generation)
    (hnone : t.observed = true → root ≠ 0 → n'.arguments = fun _ => none) :
    Mirrors (bound_root t root generation) n' := by
  refine ⟨hpipeline h.pipeline, hraster h.raster, ?_, ?_, ?_⟩
  · unfold HeapsMirror
    rw [hheaps]
    exact h.heaps
  · exact ⟨nodup_nil, nofun, Nat.zero_le _, fun i hi => absurd rfl hi⟩
  · refine ⟨fun hr => ⟨rfl, hroot hr⟩, fun hvalid => ?_⟩
    simp only [bound_root, Bool.and_eq_true, bne_iff_ne] at hvalid
    rw [tracked_bound_root]
    exact ⟨hvalid.1.2, hnone hvalid.1.1 hvalid.1.2⟩

/-- The call leaves everything but the root signature and its arguments. -/
theorem call_root (root : RootSignature) :
    (PipelineMirrors t n → PipelineMirrors t (n.call (.SetGraphicsRootSignature root))) ∧
    (RasterMirrors t n → RasterMirrors t (n.call (.SetGraphicsRootSignature root))) ∧
    (n.call (.SetGraphicsRootSignature root)).heaps = n.heaps ∧
    (n.call (.SetGraphicsRootSignature root)).root = root := by
  simp only [call]
  split
  · rename_i he
    exact ⟨id, id, rfl, he⟩
  · exact ⟨id, id, rfl, rfl⟩

/-- A root signature that is reported as null. -/
theorem tracks_bind_null (root : RootSignature) (h : Tracks t n) :
    Tracks (t.bind_observed_root 0 0) (n.call (.SetGraphicsRootSignature root)) := by
  obtain ⟨hpipeline, hraster, hheaps, -⟩ := call_root (t := t) (n := n) root
  rw [bind_observed_root_eq]
  split
  · rename_i hsame
    simp only [Bool.and_eq_true, beq_iff_eq] at hsame
    intro hok
    have m := h hok
    refine ⟨hpipeline m.pipeline, hraster m.raster, ?_, m.layout, ?_⟩
    · unfold HeapsMirror
      rw [hheaps]
      exact m.heaps
    · exact ⟨fun hr => absurd hsame.1.2 hr, fun hv => absurd hsame.1.2 (m.root.2 hv).1⟩
  exact fun hok => mirrors_bound_root 0 0 (h hok) hpipeline hraster hheaps
    (fun hr => absurd rfl hr) fun _ hr => absurd rfl hr

/-- A root signature that is found, and loses no argument. -/
theorem tracks_bind_found (native id : Nat) (h : Tracks t n) (hg : ¬ LosesArguments t n (.application native id)) :
    Tracks (t.bind_observed_root native id) (n.call (.SetGraphicsRootSignature (.application native id))) := by
  obtain ⟨hpipeline, hraster, hheaps, hroot⟩ := call_root (t := t) (n := n) (.application native id)
  rw [bind_observed_root_eq]
  split
  · rename_i hsame
    simp only [Bool.and_eq_true, beq_iff_eq] at hsame
    obtain ⟨⟨-, rfl⟩, rfl⟩ := hsame
    intro hok
    have m := h hok
    refine ⟨hpipeline m.pipeline, hraster m.raster, ?_, m.layout, ?_⟩
    · unfold HeapsMirror
      rw [hheaps]
      exact m.heaps
    · refine ⟨fun hr => ⟨(m.root.1 hr).1, hroot⟩, fun hv => ⟨(m.root.2 hv).1, ?_⟩⟩
      simp only [call, (m.root.1 (m.root.2 hv).1).2, if_true]
      exact (m.root.2 hv).2
  rename_i hother
  intro hok
  have hok : t.invalid_reason = none := hok
  have m := h hok
  refine mirrors_bound_root native id m hpipeline hraster hheaps (fun _ => hroot) fun hobserving _ => ?_
  simp only [call]
  split
  · rename_i hbound
    -- bound already, but not tracked: it was reported as null, and the guard leaves it empty
    have hzero : t.root = 0 := by
      by_contra hr
      obtain ⟨hobserved, htracked⟩ := m.root.1 hr
      rw [hbound] at htracked
      injection htracked with h1 h2
      exact hother (by simp [hobserved, h1, h2])
    funext a
    by_contra ha
    exact hg ⟨hok, hobserving, hzero, hbound, a, ha⟩
  · rfl

end

/-! ## Root arguments -/

section
variable {t : PfdGraphicsState} {n : NativeList}

/-- What a successful `parameter` leaves: a layout whose parameter has the kind. -/
structure Admits (t : PfdGraphicsState) (index : Nat) (kind : PfdRootKind) (l : PfdRootLayout) :
    Prop where
  result : t.parameter index kind = ({ t with layout := l }, true)
  was_valid : t.layout.valid = true
  valid : l.valid = true
  small : index < 64
  fits : l.count ≤ 64
  below : ∀ i, (l.parameters i).count ≠ 0 → i < l.count
  has_kind : (l.parameters index).kind = kind
  used : (l.parameters index).count ≠ 0
  other : ∀ i, i ≠ index → l.parameters i = t.layout.parameters i
  same : (t.layout.parameters index).count ≠ 0 → (t.layout.parameters index).kind = kind

theorem parameter_cases (index : Nat) (kind : PfdRootKind) (hg : LayoutGood t)
    (hobserved : t.layout.valid = true → t.observed_arguments = true) :
    ((t.parameter index kind).2 = false ∧ (t.parameter index kind).1.invalid_reason ≠ none) ∨
      ∃ l, Admits t index kind l := by
  by_cases hbad : (!(t.parameter_layout index kind).valid || decide (index ≥ (t.parameter_layout index kind).count) ||
      ((t.parameter_layout index kind).parameters index).kind != kind) = true
  · left
    have heq : t.parameter index kind = ({ t with layout := t.parameter_layout index kind }.invalidate
        "root_parameter_kind_or_index", false) := by
      simp only [parameter, hbad, if_true]
    rw [heq]
    exact ⟨rfl, invalidate_reason _ _⟩
  right
  have hresult : t.parameter index kind = ({ t with layout := t.parameter_layout index kind }, true) := by
    simp only [parameter, hbad, Bool.false_eq_true, if_false]
  simp only [Bool.or_eq_true, Bool.not_eq_true', decide_eq_true_eq, bne_iff_ne, not_or,
    Bool.not_eq_false, ge_iff_le, Nat.not_le, not_not] at hbad
  obtain ⟨⟨hvalid, hlt⟩, hkind⟩ := hbad
  by_cases hfresh : (t.observed_arguments && t.layout.valid && decide (index < 64) &&
      (t.layout.parameters index).count == 0) = true
  · have hlayout : t.parameter_layout index kind =
        ⟨t.layout.valid, max t.layout.count (index + 1), update t.layout.parameters index ⟨kind, 1⟩⟩ := if_pos hfresh
    rw [hlayout] at hvalid hlt hkind hresult
    simp only [Bool.and_eq_true, decide_eq_true_eq, beq_iff_eq] at hfresh
    refine ⟨_, hresult, hvalid, hvalid, hfresh.1.2, ?_, ?_, hkind, ?_, ?_, ?_⟩
    · have := hg.2.2.1
      dsimp only
      omega
    · intro i hi
      dsimp only at hi ⊢
      by_cases he : i = index
      · omega
      rw [update_of_ne he] at hi
      have := hg.2.2.2 i hi
      omega
    · simp
    · intro i hi
      exact update_of_ne hi _ _
    · intro hc
      exact absurd hfresh.2 hc
  have hlayout : t.parameter_layout index kind = t.layout := if_neg hfresh
  rw [hlayout] at hvalid hlt hkind hresult
  have hsmall : index < 64 := Nat.lt_of_lt_of_le hlt hg.2.2.1
  refine ⟨_, hresult, hvalid, hvalid, hsmall, hg.2.2.1, hg.2.2.2, hkind, ?_, fun i _ => rfl, fun _ => hkind⟩
  intro hzero
  exact hfresh (by simp [hobserved hvalid, hvalid, hsmall, hzero])

variable {address index offset word : Nat} {kind : PfdRootKind} {l : PfdRootLayout}

theorem Admits.good (ha : Admits t index kind l) (hg : LayoutGood t) : LayoutGood { t with layout := l } :=
  ⟨hg.1, hg.2.1, ha.fits, ha.below⟩

/-- The argument that a table or a view sets. -/
def argument_of : PfdRootKind → Nat → Argument
  | .table, index => .table index
  | kind, index => .view kind index

theorem tracked_set_value (ha : Admits t index kind l) (hk : kind ≠ .constants) :
    tracked { t with layout := l, values := update t.values index ⟨1#64, address⟩ } =
      writes.write (tracked t) (argument_of kind index, address) := by
  have hone : (1#64 : BitVec 64) ≠ 0#64 := by decide
  funext a
  rw [writes.write]
  by_cases hself : a = argument_of kind index
  · subst hself
    rw [update_self]
    cases kind with
    | constants => exact absurd rfl hk
    | _ => simp [argument_of, tracked, ha.used, ha.has_kind]
  rw [update_of_ne hself]
  cases a with
  | word i offset => rfl
  | table i =>
    simp only [tracked]
    by_cases hi : i = index
    · subst hi
      have hkind : kind ≠ .table := fun he => hself (by rw [he]; rfl)
      rw [if_neg (fun h => hkind (ha.has_kind.symm.trans h.2.1)),
        if_neg (fun h => hkind ((ha.same h.1).symm.trans h.2.1))]
    · rw [ha.other i hi, update_of_ne hi]
  | view k i =>
    simp only [tracked]
    by_cases hi : i = index
    · subst hi
      have hkind : k ≠ .table → k ≠ kind := by
        rintro ht rfl
        cases k with
        | table => exact ht rfl
        | _ => exact hself rfl
      rw [if_neg (fun h => hkind h.1 (h.2.2.2.1.symm.trans ha.has_kind)),
        if_neg (fun h => hkind h.1 (h.2.2.2.1.symm.trans (ha.same h.2.2.1)))]
    · rw [ha.other i hi, update_of_ne hi]

/-- A parameter of constants has no table and no view. -/
theorem tracked_constants (ha : Admits t index .constants l) : tracked { t with layout := l } = tracked t := by
  funext a
  cases a with
  | word i offset => rfl
  | table i =>
    simp only [tracked]
    by_cases hi : i = index
    · subst hi
      rw [if_neg (fun h => by rw [ha.has_kind] at h; exact absurd h.2.1 (by decide)),
        if_neg (fun h => by rw [ha.same h.1] at h; exact absurd h.2.1 (by decide))]
    · rw [ha.other i hi]
  | view k i =>
    simp only [tracked]
    by_cases hi : i = index
    · subst hi
      rw [if_neg (fun h => h.2.1 (h.2.2.2.1.symm.trans ha.has_kind)),
        if_neg (fun h => h.2.1 (h.2.2.2.1.symm.trans (ha.same h.2.2.1)))]
    · rw [ha.other i hi]

/-- A table or a view. -/
theorem mirrors_set_value {tables : Nat → Bool} (hk : kind ≠ .constants) (ha : Admits t index kind l) (h : Mirrors t n) :
    Mirrors { t with layout := l, values := update t.values index ⟨1#64, address⟩
                     undefined_tables := tables }
      (n.write [(argument_of kind index, address)]) := by
  refine ⟨h.pipeline, h.raster, h.heaps, ha.good h.layout, h.root.1, fun _ => ?_⟩
  obtain ⟨hr, hargs⟩ := h.root.2 ha.was_valid
  refine ⟨hr, ?_⟩
  have := @tracked_set_value t address index kind l ha hk
  simp only [write, writes.write_all, foldl_cons, foldl_nil, hargs]
  exact this.symm

/-- A report that starts with `parameter` is about a state that is not invalid, and its
parameter is admitted. -/
theorem admitted (h : Tracks t n)
    (hok : t.invalid_reason = none) (hresult : (t.parameter index kind).1.invalid_reason = none) :
    Mirrors t n ∧ ∃ l, Admits t index kind l := by
  have m := h hok
  refine ⟨m, ?_⟩
  have hobserved : t.layout.valid = true → t.observed_arguments = true := fun hv => (m.root.1 (m.root.2 hv).1).1
  rcases parameter_cases index kind m.layout hobserved with ⟨-, hr⟩ | hl
  · exact absurd hresult hr
  · exact hl

theorem parameter_reason (index : Nat) (kind : PfdRootKind)
    (h : (t.parameter index kind).1.invalid_reason = none) : t.invalid_reason = none := by
  unfold parameter at h
  dsimp only at h
  split at h
  · exact absurd h (invalidate_reason _ _)
  · exact h

theorem tracks_set_table (index address : Nat) (h : Tracks t n) :
    Tracks (t.set_table index address) (n.call (.SetGraphicsRootDescriptorTable index address)) := by
  intro hok
  have hresult : (t.parameter index .table).1.invalid_reason = none := by
    unfold set_table at hok
    dsimp only at hok
    split at hok <;> exact hok
  obtain ⟨m, l, ha⟩ := admitted h (parameter_reason index .table hresult) hresult
  have heq : t.set_table index address =
      { t with layout := l, values := update t.values index ⟨1#64, address⟩
               undefined_tables := update t.undefined_tables index false } := by
    simp [set_table, ha.result]
  rw [heq]
  exact mirrors_set_value (by decide) ha m

theorem tracks_set_descriptor (index : Nat) (kind : PfdRootKind) (address : Nat) (h : Tracks t n) :
    Tracks (t.set_descriptor index kind address) (n.call (.SetGraphicsRootView kind index address)) := by
  unfold set_descriptor
  split
  · exact tracks_invalidate _ _ _
  rename_i hkind
  have htable : kind ≠ .table := fun he => hkind (.inl he)
  have hconstants : kind ≠ .constants := fun he => hkind (.inr he)
  intro hok
  have hresult : (t.parameter index kind).1.invalid_reason = none := by
    dsimp only at hok
    split at hok <;> exact hok
  obtain ⟨m, l, ha⟩ := admitted h (parameter_reason index kind hresult) hresult
  have hview : argument_of kind index = .view kind index := by
    cases kind with
    | table => exact absurd rfl htable
    | _ => rfl
  have := @mirrors_set_value t n address index kind l t.undefined_tables hconstants ha m
  rw [hview] at this
  simpa [ha.result, call] using this

/-! ## Words of constants -/

/-- One observed word. -/
theorem tracked_observe_word (ho : offset < 64) (constants : Nat → Nat) (keys : List Nat)
    (hkeys : keys = if t.observed_word_keys.idxOf (index * 64 + offset) =
      t.observed_word_keys.length then t.observed_word_keys ++ [index * 64 + offset]
      else t.observed_word_keys)
    (hconstants : constants = update t.constants (t.observed_word_keys.idxOf (index * 64 + offset)) word) :
    tracked { t with observed_word_keys := keys, constants := constants } =
      writes.write (tracked t) (.word index offset, word) := by
  subst hkeys hconstants
  funext a
  rw [writes.write]
  cases a with
  | table i => rfl
  | view k i => rfl
  | word i v =>
    have hsame : (i * 64 + v = index * 64 + offset ∧ v < 64) ↔ (i = index ∧ v = offset) := by
      omega
    by_cases hself : i = index ∧ v = offset
    · obtain ⟨rfl, rfl⟩ := hself
      rw [update_self]
      by_cases hmem : i * 64 + v ∈ t.observed_word_keys
      · have hlt := idxOf_lt_length_of_mem hmem
        simp [tracked, ho, hmem, Nat.ne_of_lt hlt]
      have hlen := idxOf_of_notMem hmem
      simp [tracked, ho, hlen, idxOf_append_of_notMem hmem]
    rw [update_of_ne (fun he => hself (by injection he with h1 h2; exact ⟨h1, h2⟩))]
    by_cases hv : v < 64
    · have hne : i * 64 + v ≠ index * 64 + offset := fun he => hself (hsame.mp ⟨he, hv⟩)
      by_cases hmem : i * 64 + v ∈ t.observed_word_keys
      · have hlt := idxOf_lt_length_of_mem hmem
        have hother : t.observed_word_keys.idxOf (i * 64 + v) ≠ t.observed_word_keys.idxOf (index * 64 + offset) :=
          fun he => hne ((idxOf_inj hmem).mp he)
        simp only [tracked]
        split
        · rw [if_pos ⟨hv, mem_append_left _ hmem⟩, if_pos ⟨hv, hmem⟩, idxOf_append_of_mem hmem, update_of_ne hother]
        · rw [if_pos ⟨hv, hmem⟩, if_pos ⟨hv, hmem⟩, update_of_ne hother]
      simp only [tracked]
      split
      · rw [if_neg (by simp [hmem, hne]), if_neg (by simp [hmem])]
      · rw [if_neg (by simp [hmem]), if_neg (by simp [hmem])]
    simp only [tracked]
    rw [if_neg (fun hc => hv hc.1), if_neg (fun hc => hv hc.1)]

/-- A word that fits keeps the mirror of a list that writes it too. -/
theorem mirrors_observe_word (hi : index < 64) (ho : offset < 64)
    (hvalid : t.layout.valid = true) (h : Mirrors t n) (keys : List Nat)
    (hkeys : keys = if t.observed_word_keys.idxOf (index * 64 + offset) =
      t.observed_word_keys.length then t.observed_word_keys ++ [index * 64 + offset]
      else t.observed_word_keys) :
    Mirrors
      { t with
        observed_word_keys := keys
        constants := update t.constants (t.observed_word_keys.idxOf (index * 64 + offset)) word }
      (n.write [(.word index offset, word)]) := by
  obtain ⟨hnodup, hsmall, hcount, hbelow⟩ := h.layout
  refine ⟨h.pipeline, h.raster, h.heaps, ⟨?_, ?_, hcount, hbelow⟩, h.root.1, fun _ => ?_⟩
  · rw [hkeys]
    split
    · rename_i hlen
      have hmem : index * 64 + offset ∉ t.observed_word_keys :=
        fun hm => absurd hlen (Nat.ne_of_lt (idxOf_lt_length_of_mem hm))
      rw [nodup_append]
      refine ⟨hnodup, nodup_singleton _, ?_⟩
      rintro a ha b hb rfl
      exact hmem (mem_singleton.mp hb ▸ ha)
    · exact hnodup
  · intro key hkey
    rw [hkeys] at hkey
    split at hkey
    · rcases mem_append.mp hkey with hk | hk
      · exact hsmall key hk
      rw [mem_singleton.mp hk]
      omega
    · exact hsmall key hkey
  · obtain ⟨hr, hargs⟩ := h.root.2 hvalid
    refine ⟨hr, ?_⟩
    rw [tracked_observe_word ho _ keys hkeys rfl]
    simp only [write, writes.write_all, foldl_cons, foldl_nil, hargs]

/-- The loop over the words. -/
theorem tracks_observe_words (hi : index < 64) (words : List Nat) (offset : Nat)
    (ho : offset + words.length ≤ 64) (hvalid : t.layout.valid = true) (h : Tracks t n) :
    Tracks (t.observe_words (index * 64 + offset) words) (n.write (word_writes index offset words)) := by
  induction words generalizing t n offset with
  | nil => exact h
  | cons word rest ih =>
    rw [length_cons] at ho
    unfold observe_words
    dsimp only
    split
    · exact tracks_invalidate _ _ _
    have hfirst : Tracks
        { t with
          observed_word_keys := if t.observed_word_keys.idxOf (index * 64 + offset) = t.observed_word_keys.length
            then t.observed_word_keys ++ [index * 64 + offset] else t.observed_word_keys
          constants := update t.constants (t.observed_word_keys.idxOf (index * 64 + offset)) word }
        (n.write [(.word index offset, word)]) :=
      fun hok => mirrors_observe_word hi (by omega) hvalid (h hok) _ rfl
    have hrest := ih (offset + 1) (by omega) (by exact hvalid) hfirst
    simpa only [word_writes, write, writes.write_all, foldl_cons, foldl_nil, Nat.add_assoc] using hrest

theorem observe_words_reason (words : List Nat) (key : Nat)
    (h : (t.observe_words key words).invalid_reason = none) : t.invalid_reason = none := by
  induction words generalizing t key with
  | nil => exact h
  | cons word rest ih =>
    unfold observe_words at h
    dsimp only at h
    split at h
    · exact absurd h (invalidate_reason _ _)
    have := ih _ h
    exact this

theorem tracks_set_constants (index offset : Nat) (words : List Nat) (h : Tracks t n) :
    Tracks (t.set_constants index offset words) (n.write (word_writes index offset words)) := by
  intro hok
  have hresult : (t.parameter index .constants).1.invalid_reason = none := by
    unfold set_constants at hok
    dsimp only at hok
    split at hok
    · exact hok
    split at hok
    · split at hok
      · exact absurd hok (invalidate_reason _ _)
      · exact observe_words_reason _ _ hok
    split at hok
    · exact absurd hok (invalidate_reason _ _)
    · exact hok
  obtain ⟨m, l, ha⟩ := admitted h (parameter_reason index .constants hresult) hresult
  have hobserved : t.observed_arguments = true := (m.root.1 (m.root.2 ha.was_valid).1).1
  have heq : t.set_constants index offset words =
      if words.length = 0 ∨ offset ≥ 64 ∨ words.length > 64 - offset then
        ({ t with layout := l }).invalidate "observed_root_constant_bounds"
      else ({ t with layout := l }).observe_words (index * 64 + offset) words := by
    simp [set_constants, ha.result, hobserved]
  rw [heq] at hok ⊢
  have hlayout : Mirrors { t with layout := l } n :=
    ⟨m.pipeline, m.raster, m.heaps, ha.good m.layout, m.root.1, fun _ =>
      ⟨(m.root.2 ha.was_valid).1, (m.root.2 ha.was_valid).2.trans (tracked_constants ha).symm⟩⟩
  split at hok
  · exact absurd hok (invalidate_reason _ _)
  rename_i hfits
  rw [if_neg hfits]
  exact tracks_observe_words ha.small words offset (by omega) ha.valid (fun _ => hlayout) hok

end

/-! ## Every call -/

/-- A call that the tracked state cannot follow. -/
def Loses (t : PfdGraphicsState) (n : NativeList) (found : Bool) : Call → Prop
  | .SetGraphicsRootSignature (.application native id) =>
    found = true ∧ LosesArguments t n (.application native id)
  | .SetDescriptorHeaps heaps => LosesTables t n heaps
  | _ => False

theorem tracks_report {t : PfdGraphicsState} {n : NativeList} (list : Nat) (c : Call)
    (found : Bool) (h : Tracks t n) (hg : ¬ Loses t n found c) :
    Tracks (report list t c found) (n.call c) := by
  cases c with
  | SetPipelineState pipeline => exact tracks_bind_pipeline pipeline h
  | RSSetDepthBias bias clamp slope => exact tracks_set_depth_bias list bias clamp slope h
  | IASetIndexBufferStripCutValue value => exact tracks_set_strip_cut list value h
  | SetSamplePositions samples pixels positions =>
    exact tracks_set_sample_positions list samples pixels positions h
  | SetGraphicsRootSignature root =>
    cases root with
    | application native id =>
      cases found with
      | true => exact tracks_bind_found native id h fun hl => hg ⟨rfl, hl⟩
      | false => exact tracks_bind_null _ h
    | none => exact tracks_bind_null _ h
    | stamp => exact tracks_bind_null _ h
  | SetGraphicsRoot32BitConstant index word offset => exact tracks_set_constants index offset [word] h
  | SetGraphicsRoot32BitConstants index words offset => exact tracks_set_constants index offset words h
  | SetGraphicsRootDescriptorTable index address => exact tracks_set_table index address h
  | SetGraphicsRootView kind index address => exact tracks_set_descriptor index kind address h
  | SetDescriptorHeaps heaps => exact tracks_descriptor_heaps heaps h hg
  | IASetPrimitiveTopology topology => exact tracks_set_topology topology h
  | RSSetViewports viewports => exact tracks_set_viewports viewports h
  | RSSetScissorRects scissors => exact tracks_set_scissors scissors h
  | DrawInstanced => exact h

end taxi_camera
