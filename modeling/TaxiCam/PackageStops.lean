-- The Community package wherever a call stops: what its marker says of its files
-- stays right, or the marker says nothing.
import TaxiCam.MarksPackage

namespace taxi_camera.standalone.marks_package

open file_tree List

/-! ## What a package is -/

/-- Every file that a package can have. -/
def known_files : List (List Name) :=
  [PackageName ++ PageRelative, PackageName ++ HelperRelative, PackageName ++ ScriptRelative, Marker,
    Manifest, Layout]

namespace Made

def entries (m : Made) (dates : List Name → Nat) : List LayoutEntry :=
  m.files.map fun file =>
    { path := relative_text file.1, size := file.2.length, date := dates (PackageName ++ file.1) }

/-- The texts of the package: its files, its manifest, the layout for their dates, and last the
marker. -/
def texts (hash : Hash) (m : Made) (dates : List Name → Nat) : List (List Name × Text) :=
  m.files.map (fun file => (PackageName ++ file.1, file.2)) ++
    [(Manifest, m.manifest), (Layout, layout_json (m.entries dates)), (Marker, m.marker hash)]

/-- The paths of the package's texts. -/
def paths (m : Made) : List (List Name) :=
  m.files.map (fun file => PackageName ++ file.1) ++ [Manifest, Layout, Marker]

theorem map_fst_texts (hash : Hash) (m : Made) (dates : List Name → Nat) :
    (m.texts hash dates).map Prod.fst = m.paths := by
  unfold texts paths
  rw [map_append, map_map]
  rfl

/-- The paths are those of the mode. -/
theorem paths_eq (m : Made) : m.paths = paths ⟨m.mode, [], [], []⟩ ∧ m.unused = unused ⟨m.mode, [], [], []⟩ := by
  obtain ⟨mode, source, helper, version⟩ := m
  cases mode with
  | page => exact ⟨rfl, rfl⟩
  | script => exact ⟨rfl, rfl⟩

theorem paths_nodup (m : Made) : m.paths.Nodup := by
  rw [m.paths_eq.1]
  cases m.mode with
  | page => decide
  | script => decide

/-- A file that a package can have is one of its own, or one it does not use. -/
theorem known_cases (m : Made) : ∀ q ∈ known_files, q ∈ m.paths ∨ q ∈ m.unused.map (PackageName ++ ·) := by
  rw [m.paths_eq.1, m.paths_eq.2]
  cases m.mode with
  | page => decide
  | script => decide

theorem paths_known (m : Made) : ∀ q ∈ m.paths, q ∈ known_files ∧ PackageName <+: q ∧
    q ∉ m.unused.map (PackageName ++ ·) := by
  rw [m.paths_eq.1, m.paths_eq.2]
  cases m.mode with
  | page => decide
  | script => decide

theorem unused_known (m : Made) : ∀ q ∈ m.unused.map (PackageName ++ ·), q ∈ known_files ∧ q ≠ Marker := by
  rw [m.paths_eq.2]
  cases m.mode with
  | page => decide
  | script => decide

end Made

/-! ## The invariant -/

/-- The files that are there are the ones of the package; some may be gone. -/
def Partly (hash : Hash) (m : Made) (t : Disk Name) : Prop :=
  ∃ dates, ∀ f ∈ m.texts hash dates,
    file_at t f.1 = none ∨ file_at t f.1 = some (f.2, dates f.1)

/-- The marker does not say that the package is complete. -/
def Unfinished (t : Disk Name) : Prop :=
  ∀ text, read_file t Marker = some text → text = [] ∨ text = Incomplete

/-- What holds wherever a call is stopped. `texts` are those that packages are made from. -/
structure Orderly (hash : Hash) (texts : List Text) (t : Disk Name) : Prop where
  known : ∀ q, PackageName <+: q → file_at t q ≠ none → q ∈ known_files
  marked : ∀ text, read_file t Marker = some text → text = [] ∨ text = Incomplete ∨
    ∃ m : Made, text = m.marker hash ∧ m.source ∈ texts ∧ m.helper ∈ texts ∧ Partly hash m t
  rooted : Rooted t PackageName
  late : Rooted t LatePackageName

theorem not_both {q : List Name} (h : PackageName <+: q) : ¬LatePackageName <+: q := by
  rintro ⟨rest, rfl⟩
  obtain ⟨rest', h⟩ := h
  cases h

section
variable {hash : Hash} {texts : List Text} {t t' : Disk Name}

/-- Files that go leave what the marker says right. -/
theorem Orderly.of_gone (h : Orderly hash texts t)
    (hgone : ∀ q, PackageName <+: q → file_at t' q = none ∨ file_at t' q = file_at t q)
    (hrooted : Rooted t' PackageName) (hlate : Rooted t' LatePackageName) :
    Orderly hash texts t' := by
  refine ⟨fun q hq hfile => ?_, fun text htext => ?_, hrooted, hlate⟩
  · rcases hgone q hq with hnone | hsame
    · exact absurd hnone hfile
    · exact h.known q hq (hsame ▸ hfile)
  · have hmarker : file_at t' Marker = file_at t Marker := by
      rcases hgone Marker (by decide) with hnone | hsame
      · rw [read_file, hnone] at htext
        cases htext
      · exact hsame
    rw [read_file, hmarker] at htext
    rcases h.marked text htext with hempty | hincomplete | ⟨m, hm, hsource, hhelper, dates, hpart⟩
    · exact .inl hempty
    · exact .inr (.inl hincomplete)
    refine .inr (.inr ⟨m, hm, hsource, hhelper, dates, fun f hf => ?_⟩)
    have hpath : f.1 ∈ m.paths := m.map_fst_texts hash dates ▸ mem_map_of_mem hf
    rcases hgone f.1 (m.paths_known f.1 hpath).2.1 with hnone | hsame
    · exact .inl hnone
    rw [hsame]
    exact hpart f hf

/-! ## Removing -/

theorem remove_named_orderly (order : Order Name) {name : List Name}
    (hname : name = PackageName ∨ name = LatePackageName) (h : Orderly hash texts t) :
    Throughout (Orderly hash texts) t (remove_named order name t).ops := by
  unfold remove_named
  split
  · intro k
    have hlook := lookup_remove_all_stopped order t name k
    apply h.of_gone
    · intro q _
      rcases hlook q with hsame | ⟨_, hnone⟩
      · exact .inr (file_at_congr hsame)
      · exact .inl (file_at_of_not_has (by rw [has, hnone]; rfl))
    · rcases hname with rfl | rfl
      · exact rooted_remove_all_stopped order h.rooted k
      apply rooted_congr h.rooted
      intro q hq
      rcases hlook q with hsame | ⟨hin, _⟩
      · exact hsame
      · exact absurd hin (not_both hq)
    · rcases hname with rfl | rfl
      · apply rooted_congr h.late
        intro q hq
        rcases hlook q with hsame | ⟨hin, _⟩
        · exact hsame
        · exact absurd hq (not_both hin)
      · exact rooted_remove_all_stopped order h.late k
  · exact throughout_nil h

theorem remove_orderly (order : Order Name) (h : Orderly hash texts t) :
    Throughout (Orderly hash texts) t (remove order t).ops := by
  have hfirst := remove_named_orderly order (.inl rfl) h
  exact hfirst.append (remove_named_orderly order (.inr rfl) hfirst.last)

/-! ## Writing -/

/-- While the package is written: the folder is there and the marker says nothing. -/
structure Writing (t : Disk Name) : Prop where
  folder : has t PackageName = true
  known : ∀ q, PackageName <+: q → file_at t q ≠ none → q ∈ known_files
  unfinished : Unfinished t
  late : Rooted t LatePackageName

theorem Writing.orderly (h : Writing t) : Orderly hash texts t where
  known := h.known
  marked text htext := (h.unfinished text htext).imp_right .inl
  rooted := rooted_of_has h.folder
  late := h.late

/-- An operation on a file that a package can have, that does not complete the marker. -/
def Quiet (op : Op Name) : Prop :=
  op.path ∈ known_files ∧
    (op.path = Marker → ∀ t, ∀ text, read_file (apply t op) Marker = some text →
      text = [] ∨ text = Incomplete)

theorem known_inside : ∀ q ∈ known_files, PackageName <+: q ∧ q ≠ PackageName := by decide

/-- A quiet operation keeps a package in writing, and begins one when it is on the marker. -/
theorem Writing.of_quiet {op : Op Name} (hop : Quiet op) (hfolder : has t PackageName = true)
    (hknown : ∀ q, PackageName <+: q → file_at t q ≠ none → q ∈ known_files)
    (hunfinished : op.path ≠ Marker → Unfinished t) (hlate : Rooted t LatePackageName) :
    Writing (apply t op) := by
  obtain ⟨hpath, hmarker⟩ := hop
  obtain ⟨hin, hne⟩ := known_inside op.path hpath
  refine ⟨?_, fun q hq hfile => ?_, fun text htext => ?_, ?_⟩
  · rw [has_congr (lookup_apply_of_ne hne)]
    exact hfolder
  · by_cases heq : op.path = q
    · exact heq ▸ hpath
    · exact hknown q hq (file_at_congr (lookup_apply_of_ne heq) ▸ hfile)
  · by_cases heq : op.path = Marker
    · exact hmarker heq t text htext
    rw [read_file, file_at_congr (lookup_apply_of_ne heq)] at htext
    exact hunfinished heq text htext
  · apply rooted_congr hlate
    intro q hq
    exact lookup_apply_of_ne fun heq => not_both hin (heq ▸ hq)

variable {ops : List (Op Name)}

theorem writing_throughout (h : Writing t) (hops : ∀ op ∈ ops, Quiet op) : Throughout Writing t ops :=
  throughout_of_steps h fun _ op hop h =>
    Writing.of_quiet (hops op hop) h.folder h.known (fun _ => h.unfinished) h.late

theorem Throughout.orderly (h : Throughout Writing t ops) :
    Throughout (Orderly hash texts) t ops := fun k => (h k).orderly

/-- Where the folders on the way are made, the files stay as they are. -/
theorem make_dirs_orderly (h : Orderly hash texts t) :
    Throughout (Orderly hash texts) t (make_dirs t core_folders) ∧
      has (run t (make_dirs t core_folders)) PackageName = true := by
  have hin : ∀ q ∈ core_folders, PackageName <+: q := by decide
  have hlook (k : Nat) (q : List Name) : (run t ((make_dirs t core_folders).take k)).lookup q =
      if q ∈ (core_folders.filter fun p => !has t p).take k then some .dir else t.lookup q := by
    unfold make_dirs
    rw [← map_take, lookup_make_dirs]
  have hnew {k : Nat} {q : List Name} (hq : q ∈ (core_folders.filter fun p => !has t p).take k) :
      q ∈ core_folders ∧ has t q = false := by
    have hmem := mem_filter.mp (mem_of_mem_take hq)
    exact ⟨hmem.1, by simpa using hmem.2⟩
  -- the package's folder is there, or is the first that is made
  have hfolder (k : Nat) (hk : has t PackageName = true ∨ 0 < k) :
      has (run t ((make_dirs t core_folders).take k)) PackageName = true := by
    unfold has
    rw [hlook]
    split
    · rfl
    rename_i hnot
    rcases hk with hhas | hk
    · exact hhas
    by_contra hno
    apply hnot
    obtain ⟨k, rfl⟩ : ∃ j, k = j + 1 := ⟨k - 1, by omega⟩
    have hno' : has t PackageName = false := by simpa [has] using hno
    unfold core_folders
    rw [filter_cons_of_pos (by simp [hno']), take_succ_cons]
    exact mem_cons_self
  constructor
  · intro k
    by_cases hk : has t PackageName = true ∨ 0 < k
    · apply h.of_gone
      · intro q _
        by_cases hq : q ∈ (core_folders.filter fun p => !has t p).take k
        · left
          unfold file_at
          rw [hlook, if_pos hq]
        right
        apply file_at_congr
        rw [hlook, if_neg hq]
      · exact rooted_of_has (hfolder k hk)
      · apply rooted_congr h.late
        intro q hq
        rw [hlook, if_neg fun hmem => not_both (hin q (hnew hmem).1) hq]
    obtain rfl : k = 0 := by omega
    exact h
  · have hall := hfolder (make_dirs t core_folders).length
    rw [take_length] at hall
    apply hall
    by_cases hhas : has t PackageName = true
    · exact .inl hhas
    right
    unfold make_dirs core_folders
    rw [filter_cons_of_pos (by simpa using hhas)]
    exact Nat.succ_pos _

end

/-! ## The package written anew -/

namespace Made

/-- The texts that are written before the marker. -/
def front (m : Made) (dates : List Name → Nat) : List (List Name × Text) :=
  m.files.map (fun file => (PackageName ++ file.1, file.2)) ++
    [(Manifest, m.manifest), (Layout, layout_json (m.entries dates))]

theorem texts_eq (hash : Hash) (m : Made) (dates : List Name → Nat) :
    m.texts hash dates = m.front dates ++ [(Marker, m.marker hash)] := by
  unfold texts front
  rw [append_assoc]
  rfl

theorem front_paths (m : Made) (dates : List Name → Nat) {f : List Name × Text}
    (hf : f ∈ m.front dates) : f.1 ∈ m.paths ∧ f.1 ≠ Marker := by
  have hnodup := m.paths_nodup
  have hsplit : m.paths = (m.front dates).map Prod.fst ++ [Marker] := by
    unfold paths front
    rw [map_append, map_map, append_assoc]
    rfl
  rw [hsplit, nodup_append] at hnodup
  have hin : f.1 ∈ (m.front dates).map Prod.fst := mem_map_of_mem hf
  refine ⟨hsplit ▸ mem_append_left _ hin, ?_⟩
  exact hnodup.2.2 f.1 hin Marker (mem_singleton.mpr rfl)

end Made

/-- Texts written one after another. -/
def write_texts (clock : List Name → Nat) (texts : List (List Name × Text)) : List (Op Name) :=
  texts.flatMap fun f => write_file f.1 f.2 (clock f.1)

theorem write_contents_eq (clock : List Name → Nat) (m : Made) :
    write_contents clock m = write_texts clock
      (m.files.map (fun file => (PackageName ++ file.1, file.2)) ++ [(Manifest, m.manifest)]) := by
  unfold write_contents write_texts
  rw [flatMap_append, flatMap_map, flatMap_singleton]

/-- The layout lists the sizes and the dates that were just written. -/
theorem layout_entries_eq (clock : List Name → Nat) (m : Made) (t : Disk Name) :
    layout_entries m (run t (write_contents clock m)) = m.entries clock := by
  apply map_congr_left
  intro file hfile
  have hnodup : ((m.files.map (fun file => (PackageName ++ file.1, file.2)) ++
      [(Manifest, m.manifest)]).map Prod.fst).Nodup := by
    have hpaths := m.paths_nodup
    unfold Made.paths at hpaths
    rw [append_cons] at hpaths
    rw [map_append, map_map]
    exact hpaths.sublist (sublist_append_left _ _)
  have hlook := (lookup_write_files t clock hnodup (PackageName ++ file.1)).2
    (PackageName ++ file.1, file.2) (mem_append_left _ (mem_map_of_mem hfile)) rfl
  have hat : file_at (run t (write_contents clock m)) (PackageName ++ file.1) =
      some (file.2, clock (PackageName ++ file.1)) := by
    rw [write_contents_eq]
    unfold file_at write_texts
    rw [hlook]
  rw [read_file, file_time, hat]
  rfl

/-- What is done before the first file is written. -/
def rewrite_begun (clock : List Name → Nat) (t : Disk Name) : List (Op Name) :=
  make_dirs t core_folders ++ write_file Marker Incomplete (clock Marker)

def rewrite_cleared (clock : List Name → Nat) (call : Call) (m : Made) (t : Disk Name) :
    List (Op Name) :=
  if call.started = 0 then clear_unused m (run t (rewrite_begun clock t)) else []

theorem rewrite_eq (hash : Hash) (clock : List Name → Nat) (call : Call) (m : Made)
    (t : Disk Name) : rewrite hash clock call m t =
      rewrite_begun clock t ++ rewrite_cleared clock call m t ++ write_texts clock (m.texts hash clock) := by
  have hlayout := layout_entries_eq clock m (run t (rewrite_begun clock t ++ rewrite_cleared clock call m t))
  rw [← run_append] at hlayout
  change rewrite_begun clock t ++ rewrite_cleared clock call m t ++ write_contents clock m ++
    write_file Layout (layout_json (layout_entries m (run t (rewrite_begun clock t ++
      rewrite_cleared clock call m t ++ write_contents clock m)))) (clock Layout) ++
    write_file Marker (m.marker hash) (clock Marker) = _
  rw [hlayout, write_contents_eq]
  unfold Made.texts write_texts
  simp only [flatMap_append, flatMap_cons, flatMap_nil, append_nil, append_assoc]

section
variable {hash : Hash} {texts : List Text} {t : Disk Name}

/-- The texts of the package are there, with their dates. -/
theorem rewrite_texts (clock : List Name → Nat) (call : Call) (m : Made) (t : Disk Name) :
    ∀ f ∈ m.texts hash clock, file_at (run t (rewrite hash clock call m t)) f.1 = some (f.2, clock f.1) := by
  intro f hf
  have hnodup := m.paths_nodup
  rw [← m.map_fst_texts hash clock] at hnodup
  rw [rewrite_eq, run_append]
  unfold file_at write_texts
  rw [(lookup_write_files _ clock hnodup f.1).2 f hf rfl]

/-- Every other path is as it was before they were written. -/
theorem rewrite_other (clock : List Name → Nat) (call : Call) (m : Made) (t : Disk Name)
    {q : List Name} (hq : q ∉ m.paths) :
    file_at (run t (rewrite hash clock call m t)) q =
      file_at (run t (rewrite_begun clock t ++ rewrite_cleared clock call m t)) q := by
  have hnodup := m.paths_nodup
  rw [← m.map_fst_texts hash clock] at hnodup hq
  rw [rewrite_eq, run_append]
  exact file_at_congr ((lookup_write_files _ clock hnodup q).1 hq)

theorem quiet_of_ne {op : Op Name} (hknown : op.path ∈ known_files) (hne : op.path ≠ Marker) :
    Quiet op := ⟨hknown, fun h => absurd h hne⟩

theorem marker_known : Marker ∈ known_files := by decide

theorem quiet_truncate (date : Nat) : Quiet (.truncate Marker date) := by
  refine ⟨marker_known, fun _ t text htext => ?_⟩
  have hat : file_at (apply t (.truncate Marker date)) Marker = some ([], date) := by
    unfold file_at apply
    rw [AList.lookup_insert]
  rw [read_file, hat] at htext
  exact .inl (Option.some.inj htext).symm

theorem quiet_incomplete (date : Nat) : Quiet (.write Marker Incomplete date) := by
  refine ⟨marker_known, fun _ t text htext => ?_⟩
  have hat : file_at (apply t (.write Marker Incomplete date)) Marker = some (Incomplete, date) := by
    unfold file_at apply
    rw [AList.lookup_insert]
  rw [read_file, hat] at htext
  exact .inr (Option.some.inj htext).symm

theorem quiet_clear_unused (m : Made) (t : Disk Name) : ∀ op ∈ clear_unused m t, Quiet op := by
  intro op hop
  obtain ⟨q, hq, rfl⟩ := mem_map.mp hop
  obtain ⟨hknown, hne⟩ := m.unused_known q (mem_of_mem_filter hq)
  exact quiet_of_ne hknown hne

theorem quiet_write_front (clock : List Name → Nat) (m : Made) :
    ∀ op ∈ write_texts clock (m.front clock), Quiet op := by
  intro op hop
  obtain ⟨f, hf, hop⟩ := mem_flatMap.mp hop
  obtain ⟨hpath, hne⟩ := m.front_paths clock hf
  have hknown := (m.paths_known f.1 hpath).1
  simp only [write_file, mem_cons, not_mem_nil, or_false] at hop
  rcases hop with rfl | rfl
  · exact quiet_of_ne hknown hne
  · exact quiet_of_ne hknown hne

/-- Wherever the writing stops, the marker is right or says nothing; the marker of the package is
the last thing that is written. -/
theorem rewrite_orderly (clock : List Name → Nat) (call : Call) {m : Made}
    (hsource : m.source ∈ texts) (hhelper : m.helper ∈ texts) (h : Orderly hash texts t) :
    Throughout (Orderly hash texts) t (rewrite hash clock call m t) := by
  obtain ⟨hdirs, hfolder⟩ := make_dirs_orderly h
  have hafter := hdirs.last
  -- the operations between the folders and the last write
  have hsplit : rewrite hash clock call m t =
      make_dirs t core_folders ++ (.truncate Marker (clock Marker) ::
        (.write Marker Incomplete (clock Marker) :: rewrite_cleared clock call m t ++
          write_texts clock (m.front clock) ++ [.truncate Marker (clock Marker)])) ++
        [.write Marker (m.marker hash) (clock Marker)] := by
    rw [rewrite_eq, m.texts_eq]
    simp [rewrite_begun, write_texts, write_file, flatMap_append]
  have hquiet : ∀ op ∈ Op.write Marker Incomplete (clock Marker) ::
      rewrite_cleared clock call m t ++ write_texts clock (m.front clock) ++
        [Op.truncate Marker (clock Marker)], Quiet op := by
    intro op hop
    simp only [mem_append, mem_cons, not_mem_nil, or_false] at hop
    rcases hop with ((rfl | hop) | hop) | rfl
    · exact quiet_incomplete _
    · unfold rewrite_cleared at hop
      split at hop
      · exact quiet_clear_unused m _ op hop
      · cases hop
    · exact quiet_write_front clock m op hop
    · exact quiet_truncate _
  have hstart : Writing (apply (run t (make_dirs t core_folders)) (.truncate Marker (clock Marker))) :=
    Writing.of_quiet (quiet_truncate _) hfolder hafter.known (fun hne => absurd rfl hne) hafter.late
  have hwriting := writing_throughout hstart hquiet
  have hmiddle := hdirs.append (throughout_cons hafter (Throughout.orderly hwriting))
  rw [hsplit]
  refine hmiddle.append (throughout_cons hmiddle.last (throughout_nil ?_))
  have hbefore : Writing (run t (make_dirs t core_folders ++ (.truncate Marker (clock Marker) ::
      (.write Marker Incomplete (clock Marker) :: rewrite_cleared clock call m t ++
        write_texts clock (m.front clock) ++ [.truncate Marker (clock Marker)])))) := by
    rw [run_append]
    exact hwriting.last
  have hfinal : ∀ f ∈ m.texts hash clock, file_at (run t (rewrite hash clock call m t)) f.1 = some (f.2, clock f.1) :=
    rewrite_texts clock call m t
  rw [hsplit, run_append] at hfinal
  generalize run t (make_dirs t core_folders ++ (.truncate Marker (clock Marker) ::
    (.write Marker Incomplete (clock Marker) :: rewrite_cleared clock call m t ++
      write_texts clock (m.front clock) ++ [.truncate Marker (clock Marker)]))) = last
    at hbefore hfinal ⊢
  change ∀ f ∈ m.texts hash clock,
    file_at (apply last (.write Marker (m.marker hash) (clock Marker))) f.1 = some (f.2, clock f.1)
    at hfinal
  have hother {q : List Name} (hq : q ≠ Marker) :
      (apply last (.write Marker (m.marker hash) (clock Marker))).lookup q = last.lookup q :=
    lookup_apply_of_ne fun he => hq he.symm
  refine ⟨fun q hq hfile => ?_, fun text htext => .inr (.inr ?_), ?_, ?_⟩
  · by_cases heq : q = Marker
    · exact heq ▸ marker_known
    rw [file_at_congr (hother heq)] at hfile
    exact hbefore.known q hq hfile
  · have hmarker := hfinal (Marker, m.marker hash)
      (m.texts_eq hash clock ▸ mem_append_right _ (mem_singleton.mpr rfl))
    rw [read_file, hmarker] at htext
    exact ⟨m, (Option.some.inj htext).symm, hsource, hhelper, clock, fun f hf => .inr (hfinal f hf)⟩
  · apply rooted_of_has
    rw [has_congr (hother (by decide))]
    exact hbefore.folder
  · apply rooted_congr hbefore.late
    intro q hq
    apply hother
    rintro rfl
    exact not_both (known_inside Marker marker_known).1 hq

end

end taxi_camera.standalone.marks_package
