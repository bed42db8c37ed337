-- The Community package after a call that stopped part way: from which states the
-- next call brings the package to the end it would have had, and which it does
-- not recognise.
import TaxiCam.PackageStops
import Mathlib.Data.List.Sort

namespace taxi_camera.standalone.marks_package

open file_tree List

/-! ## The calls -/

section
variable {hash : Hash} {texts : List Text} {t : Disk Name}

/-- The texts that a call can make a package from. -/
def Call.sources (call : Call) : List Text :=
  call.helper :: match call.simulator with
    | some stock => stock.page.toList ++ stock.script.toList
    | none => []

theorem prepare_cases (call : Call) (stock : Stock) (page : Text) (taken : Takers) :
    prepare call stock page taken = .error .page_changed ∨ prepare call stock page taken = .error .conflict ∨
      ∃ patch, prepare call stock page taken = .ok patch ∧
        (patch.source = page ∨ stock.script = some patch.source) := by
  unfold prepare
  dsimp only
  split
  · split
    · exact .inl rfl
    · exact .inr (.inr ⟨_, rfl, .inl rfl⟩)
  split
  · exact .inr (.inl rfl)
  split
  · exact .inl rfl
  rename_i source hsource
  split
  · exact .inl rfl
  · exact .inr (.inr ⟨_, rfl, .inr hsource⟩)

variable {call : Call} {q : List Name} {clock : List Name → Nat} {m : Made} {order : Order Name}
variable {why : Outcome} {patch : Patch} {stock : Stock} {taken : Takers} {page : Text}

theorem prepare_source (h : prepare call stock page taken = .ok patch) :
    patch.source = page ∨ stock.script = some patch.source := by
  rcases prepare_cases call stock page taken with he | he | ⟨made, he, hsource⟩
  · rw [he] at h
    cases h
  · rw [he] at h
    cases h
  rw [he] at h
  cases h
  exact hsource

theorem prepare_error (h : prepare call stock page taken = .error why) : why = .page_changed ∨ why = .conflict := by
  rcases prepare_cases call stock page taken with he | he | ⟨made, he, _⟩
  · rw [he] at h
    cases h
    exact .inl rfl
  · rw [he] at h
    cases h
    exact .inr rfl
  rw [he] at h
  cases h

theorem made_sources (hstock : call.simulator = some stock) (hpage : stock.page = some page)
    (h : prepare call stock page taken = .ok patch) :
    (made_of call stock patch).source ∈ call.sources ∧ (made_of call stock patch).helper ∈ call.sources := by
  unfold Call.sources
  rw [hstock]
  refine ⟨mem_cons_of_mem _ ?_, mem_cons_self⟩
  rw [mem_append, Option.mem_toList, Option.mem_toList]
  rcases prepare_source h with hs | hs
  · exact .inl (hpage.trans (congrArg some hs.symm))
  · exact .inr hs

/-! ## Wherever a call stops -/

theorem clear_unused_orderly (m : Made) (h : Orderly hash texts t) :
    Throughout (Orderly hash texts) t (clear_unused m t) := by
  intro k
  have hlook (q : List Name) : (run t ((clear_unused m t).take k)).lookup q =
      if q ∈ ((m.unused.map (PackageName ++ ·)).filter (has t)).take k then none
      else t.lookup q := by
    unfold clear_unused
    rw [← map_take, lookup_deletes]
  have hfile {q : List Name} (hq : q ∈ ((m.unused.map (PackageName ++ ·)).filter (has t)).take k) : q ∈ known_files :=
    (m.unused_known q (mem_of_mem_filter (mem_of_mem_take hq))).1
  apply h.of_gone
  · intro q _
    by_cases hq : q ∈ ((m.unused.map (PackageName ++ ·)).filter (has t)).take k
    · exact .inl (file_at_of_not_has (by rw [has, hlook, if_pos hq]; rfl))
    · exact .inr (file_at_congr ((hlook q).trans (if_neg hq)))
  · intro q hq hhas
    have hroot : (run t ((clear_unused m t).take k)).lookup PackageName = t.lookup PackageName := by
      rw [hlook, if_neg fun hin => (known_inside _ (hfile hin)).2 rfl]
    rw [has_congr hroot]
    apply h.rooted q hq
    by_contra hno
    rw [has, hlook] at hhas
    split at hhas
    · cases hhas
    · exact hno hhas
  · apply rooted_congr h.late
    intro q hq
    rw [hlook, if_neg fun hin => not_both (known_inside _ (hfile hin)).1 hq]

theorem bring_up_orderly (order : Order Name) (clock : List Name → Nat) (call : Call)
    (hsource : m.source ∈ texts) (hhelper : m.helper ∈ texts) (h : Orderly hash texts t) :
    Throughout (Orderly hash texts) t (bring_up hash order clock call m t).ops := by
  have hlate := remove_named_orderly order (.inr rfl) h
  unfold bring_up
  dsimp only
  split
  · exact hlate
  split
  · apply hlate.append
    split
    · exact clear_unused_orderly m hlate.last
    · exact throughout_nil hlate.last
  · exact hlate.append (rewrite_orderly clock call hsource hhelper hlate.last)

theorem ensure_orderly (order : Order Name) (clock : List Name → Nat)
    (htexts : ∀ text ∈ call.sources, text ∈ texts) (h : Orderly hash texts t) :
    Throughout (Orderly hash texts) t (ensure hash order clock call t).ops := by
  unfold ensure
  split
  · exact throughout_nil h
  split
  · exact throughout_nil h
  split
  · exact throughout_nil h
  rename_i stock hstock
  split
  · exact throughout_nil h
  rename_i page hpage
  split
  · exact throughout_nil h
  split
  · exact remove_orderly order h
  rename_i patch hpatch
  obtain ⟨hsource, hhelper⟩ := made_sources hstock hpage hpatch
  exact bring_up_orderly order clock call (htexts _ hsource) (htexts _ hhelper) h

/-! ## The end of a call -/

/-- The files of the package are those made from `m`, with these dates. -/
structure Exact (hash : Hash) (m : Made) (dates : List Name → Nat) (t : Disk Name) : Prop where
  texts : ∀ f ∈ m.texts hash dates, file_at t f.1 = some (f.2, dates f.1)
  others : ∀ q, PackageName <+: q → q ∉ m.paths → file_at t q = none

theorem Exact.agree {dates : List Name → Nat} {t t' : Disk Name}
    (h : Exact hash m dates t) (h' : Exact hash m dates t')
    (hq : PackageName <+: q) : file_at t q = file_at t' q := by
  by_cases hpath : q ∈ m.paths
  · rw [← m.map_fst_texts hash dates] at hpath
    obtain ⟨f, hf, rfl⟩ := mem_map.mp hpath
    rw [h.texts f hf, h'.texts f hf]
  · rw [h.others q hq hpath, h'.others q hq hpath]

theorem lookup_clear_unused (m : Made) (t : Disk Name) (q : List Name) :
    (run t (clear_unused m t)).lookup q = if q ∈ m.unused.map (PackageName ++ ·) then none else t.lookup q := by
  unfold clear_unused
  rw [lookup_deletes]
  by_cases hq : q ∈ m.unused.map (PackageName ++ ·)
  · split
    · rfl
    rename_i hnot
    rw [mem_filter, not_and] at hnot
    have hhas := hnot hq
    unfold has at hhas
    simpa using hhas
  · rw [if_neg hq, if_neg fun hin => hq (mem_of_mem_filter hin)]

/-- What is in a package is its own file, or one that is cleared. -/
theorem clear_unused_others (m : Made) {t : Disk Name}
    (hknown : ∀ q, PackageName <+: q → q ∉ m.paths → file_at t q ≠ none → q ∈ known_files) (hq : PackageName <+: q) (hpath : q ∉ m.paths) :
    file_at (run t (clear_unused m t)) q = none := by
  have hlook := lookup_clear_unused m t q
  by_cases hunused : q ∈ m.unused.map (PackageName ++ ·)
  · rw [if_pos hunused] at hlook
    exact file_at_of_not_has (by rw [has, hlook]; rfl)
  rw [if_neg hunused] at hlook
  rw [file_at_congr hlook]
  by_contra hfile
  exact (m.known_cases q (hknown q hq hpath hfile)).elim hpath hunused

theorem rewrite_exact (clock : List Name → Nat) (m : Made) (hstarted : call.started = 0)
    (hknown : ∀ q, PackageName <+: q → file_at t q ≠ none → q ∈ known_files) :
    Exact hash m clock (run t (rewrite hash clock call m t)) := by
  refine ⟨rewrite_texts clock call m t, fun q hq hpath => ?_⟩
  rw [rewrite_other clock call m t hpath, run_append]
  unfold rewrite_cleared
  rw [if_pos hstarted]
  apply clear_unused_others m _ hq hpath
  intro p hp hpaths hfile
  have hne : p ≠ Marker := by
    rintro rfl
    exact hpaths (mem_append_right _ (by simp))
  apply hknown p hp
  intro hnone
  apply hfile
  unfold rewrite_begun file_at
  rw [run_append, lookup_write_file, if_neg hne]
  unfold make_dirs
  rw [lookup_make_dirs]
  split
  · rename_i heq
    split at heq
    · cases heq
    unfold file_at at hnone
    rw [heq] at hnone
    cases hnone
  · rfl

/-! ## Packages that are recognised -/

/-- The next call knows the folders as its own, and a marker that it would write itself is that of
files which are all there, with the manifest it would write. -/
structure Recognised (hash : Hash) (m : Made) (t : Disk Name) : Prop where
  package : has t PackageName = true → has t Marker = true
  late : has t LatePackageName = true → has t (LatePackageName ++ [.marker]) = true
  files : read_file t Marker = some (m.marker hash) →
    (∀ q ∈ m.paths, read_file t q ≠ none) ∧ read_file t Manifest = some m.manifest

/-- Texts with one hash are one text. -/
def Distinguishes (hash : Hash) (texts : List Text) : Prop :=
  ∀ a ∈ texts, ∀ b ∈ texts, hash.sha256 a = hash.sha256 b → a = b

/-- Behind the marker that the call would write stand its own files. -/
theorem Orderly.texts_of_marker (h : Orderly hash texts t) (hhash : Distinguishes hash texts) (hsource : m.source ∈ texts) (hhelper : m.helper ∈ texts)
    (hmarker : read_file t Marker = some (m.marker hash))
    (hthere : ∀ q ∈ m.paths, read_file t q ≠ none)
    (hmanifest : read_file t Manifest = some m.manifest) :
    ∃ dates, ∀ f ∈ m.texts hash dates, file_at t f.1 = some (f.2, dates f.1) := by
  obtain ⟨hempty, hincomplete⟩ := marker_text_ne (hash.sha256 m.source) (hash.sha256 m.helper) m.mode
  rcases h.marked _ hmarker with he | he | ⟨m', heq, hsource', hhelper', dates, hpart⟩
  · exact absurd he hempty
  · exact absurd he hincomplete
  obtain ⟨hmode, hhashes, hhashes'⟩ := marker_text_inj (hash.length_sha256 _) (hash.length_sha256 _) heq
  have hs := hhash _ hsource _ hsource' hhashes
  have hh := hhash _ hhelper _ hhelper' hhashes'
  obtain ⟨mode', source', helper', version'⟩ := m'
  subst hmode hs hh
  have hsome (f : List Name × Text) (hf : f.1 ∈ m.paths)
      (hp : file_at t f.1 = none ∨ file_at t f.1 = some (f.2, dates f.1)) :
      file_at t f.1 = some (f.2, dates f.1) := by
    rcases hp with hnone | hsome
    · exact absurd (by rw [read_file, hnone]; rfl) (hthere f.1 hf)
    · exact hsome
  refine ⟨dates, fun f hf => ?_⟩
  have hpath : f.1 ∈ m.paths := m.map_fst_texts hash dates ▸ mem_map_of_mem hf
  -- the two packages differ in the manifest only
  rcases mem_append.mp hf with hfile | hrest
  · exact hsome f hpath (hpart f (mem_append_left _ hfile))
  simp only [mem_cons, not_mem_nil, or_false] at hrest
  rcases hrest with rfl | hrest
  · have hold := hpart (Manifest, _) (mem_append_right _ mem_cons_self)
    have hdate : ∃ text, file_at t Manifest = some (text, dates Manifest) := by
      rcases hold with hnone | hsome
      · exact absurd (by rw [read_file, hnone]; rfl) (hthere Manifest hpath)
      · exact ⟨_, hsome⟩
    obtain ⟨text, htext⟩ := hdate
    rw [read_file, htext] at hmanifest
    have hsame : text = m.manifest := Option.some.inj hmanifest
    rw [htext, hsame]
  apply hsome f hpath (hpart f (mem_append_right _ (mem_cons_of_mem _ ?_)))
  rcases hrest with rfl | rfl
  · exact mem_cons_self
  · exact mem_cons_of_mem _ mem_cons_self

/-! ## The next call -/

/-- The call has all it needs, and the stock files can be patched: it makes the package from `m`. -/
def Usable (call : Call) (m : Made) : Prop :=
  call.helper ≠ [] ∧ call.community = true ∧ ∃ stock page patch, call.simulator = some stock ∧
    stock.page = some page ∧ prepare call stock page (takers call.others) = .ok patch ∧
    m = made_of call stock patch

theorem Usable.sources (h : Usable call m) : m.source ∈ call.sources ∧ m.helper ∈ call.sources := by
  obtain ⟨_, _, stock, page, patch, hstock, hpage, hpatch, rfl⟩ := h
  exact made_sources hstock hpage hpatch

theorem takers_append {others own : List Folder} (h : ∀ folder ∈ own, folder.marker = true) :
    takers (others ++ own) = takers others := by
  have hown (p : Folder → Bool) : (own.filter fun f => !f.marker && p f) = [] := by
    apply filter_eq_nil_iff.mpr
    intro f hf
    simp [h f hf]
  have hpage := hown fun f => f.page.isSome
  have hscript := hown fun f => f.script
  unfold takers
  simp only [filter_append, hpage, hscript, append_nil]

/-- Folders with their markers are no takers: the call goes on to bring the package up. -/
theorem ensure_usable (order : Order Name) (clock : List Name → Nat)
    (husable : Usable call m) (hpackage : has t PackageName = true → has t Marker = true)
    (hlate : has t LatePackageName = true → has t (LatePackageName ++ [.marker]) = true) :
    ensure hash order clock call t = bring_up hash order clock call m t := by
  obtain ⟨hhelper, hcommunity, stock, page, patch, hstock, hpage, hpatch, rfl⟩ := husable
  have hown : takers (community_folders call t) = takers call.others := by
    apply takers_append
    intro folder hfolder
    obtain ⟨name, hname, rfl⟩ := mem_map.mp hfolder
    obtain ⟨hin, hhas⟩ := mem_filter.mp hname
    simp only [mem_cons, not_mem_nil, or_false] at hin
    rcases hin with rfl | rfl
    · exact hpackage hhas
    · exact hlate hhas
  have hfolder : ¬(has t PackageName = true ∧ has t Marker = false) := by
    rintro ⟨hhas, hno⟩
    rw [hpackage hhas] at hno
    cases hno
  unfold ensure
  rw [if_neg hhelper, if_neg (by simp [hcommunity]), hstock]
  dsimp only
  rw [hpage]
  dsimp only
  rw [if_neg hfolder, hown, hpatch]

/-- Removing the later-named folder leaves our package. -/
theorem lookup_remove_late (order : Order Name) (t : Disk Name) (hq : PackageName <+: q) :
    (run t (remove_named order LatePackageName t).ops).lookup q = t.lookup q := by
  unfold remove_named
  split
  · rw [lookup_remove_all, if_neg (not_both hq)]
  · rfl

theorem remove_named_result (order : Order Name) {name : List Name}
    (h : has t name = true → has t (name ++ [.marker]) = true) :
    (remove_named order name t).result = true := by
  unfold remove_named
  split
  · rfl
  rename_i hmarker
  have hno : has t name = false := by
    by_contra hhas
    exact hmarker (h (by simpa using hhas))
  simp [hno]

/-- From a state that it recognises, the call ends with the package made from `m`. -/
theorem bring_up_exact (order : Order Name) (clock : List Name → Nat)
    (hstarted : call.started = 0) (h : Orderly hash texts t) (hhash : Distinguishes hash texts)
    (hsource : m.source ∈ texts) (hhelper : m.helper ∈ texts) (hrec : Recognised hash m t) :
    ((bring_up hash order clock call m t).result = .current ∨
      (bring_up hash order clock call m t).result = .written) ∧
    ∃ dates, Exact hash m dates (run t (bring_up hash order clock call m t).ops) := by
  have hlook {q : List Name} (hq : PackageName <+: q) := lookup_remove_late order t hq
  have hknown : ∀ q, PackageName <+: q →
      file_at (run t (remove_named order LatePackageName t).ops) q ≠ none → q ∈ known_files := by
    intro q hq hfile
    rw [file_at_congr (hlook hq)] at hfile
    exact h.known q hq hfile
  unfold bring_up
  rw [if_neg (by simp [remove_named_result order hrec.late])]
  split
  · rename_i hcurrent
    have hmarker := hcurrent.2
    rw [read_file, file_at_congr (hlook (known_inside Marker marker_known).1)] at hmarker
    obtain ⟨hthere, hmanifest⟩ := hrec.files hmarker
    obtain ⟨dates, htexts⟩ := h.texts_of_marker hhash hsource hhelper hmarker hthere hmanifest
    refine ⟨.inl rfl, dates, ?_⟩
    rw [hstarted, run_append]
    refine ⟨fun f hf => ?_, fun q hq hpath => ?_⟩
    · have hpath : f.1 ∈ m.paths := m.map_fst_texts hash dates ▸ mem_map_of_mem hf
      obtain ⟨_, hin, hnot⟩ := m.paths_known f.1 hpath
      have hclear := lookup_clear_unused m (run t (remove_named order LatePackageName t).ops) f.1
      rw [if_neg hnot, hlook hin] at hclear
      exact (file_at_congr hclear).trans (htexts f hf)
    · exact clear_unused_others m (fun p hp _ => hknown p hp) hq hpath
  refine ⟨.inr rfl, clock, ?_⟩
  rw [run_append]
  exact rewrite_exact clock m hstarted hknown

/-- In a clean folder. -/
theorem ensure_clean (order : Order Name) (clock : List Name → Nat)
    (husable : Usable call m) (hstarted : call.started = 0) :
    Exact hash m clock (run ∅ (ensure hash order clock call ∅).ops) := by
  have hnone (q : List Name) : has (∅ : Disk Name) q = false := rfl
  have hfile (q : List Name) : file_at (∅ : Disk Name) q = none := rfl
  rw [ensure_usable order clock husable (by simp [hnone]) (by simp [hnone])]
  exact rewrite_exact clock m hstarted fun q _ hq => absurd (hfile q) hq

/-! ## The law -/

/-- Our package, complete, as a call wrote it; files of the other mode may be left in it. -/
structure Whole (hash : Hash) (m : Made) (t : Disk Name) : Prop where
  files : ∃ dates, ∀ f ∈ m.texts hash dates, file_at t f.1 = some (f.2, dates f.1)
  known : ∀ q, PackageName <+: q → file_at t q ≠ none → q ∈ known_files

/-- The Community folder before the call that stops: without our package, or with the one made from
`before`. -/
structure Begins (hash : Hash) (before : Option Made) (t : Disk Name) : Prop where
  rooted : Rooted t PackageName
  late_rooted : Rooted t LatePackageName
  late : has t LatePackageName = true → has t (LatePackageName ++ [.marker]) = true
  package : match before with
    | none => ∀ q, PackageName <+: q → has t q = false
    | some m => Whole hash m t

/-- The texts that packages are made from, before and in the two calls. -/
def texts_at_hand (before : Option Made) (stopped : Option Call) (next : Call) : List Text :=
  (match before with
    | some m => [m.source, m.helper]
    | none => []) ++
  (match stopped with
    | some call => call.sources
    | none => []) ++ next.sources

theorem Begins.orderly {before : Option Made} (h : Begins hash before t)
    (htexts : ∀ m ∈ before, m.source ∈ texts ∧ m.helper ∈ texts) : Orderly hash texts t := by
  obtain ⟨hrooted, hlate, _, hpackage⟩ := h
  cases before with
  | none =>
    have hfile (q : List Name) (hq : PackageName <+: q) : file_at t q = none := file_at_of_not_has (hpackage q hq)
    refine ⟨fun q hq hne => absurd (hfile q hq) hne, fun text htext => ?_, hrooted, hlate⟩
    rw [read_file, hfile Marker (known_inside Marker marker_known).1] at htext
    cases htext
  | some m =>
    obtain ⟨⟨dates, hfiles⟩, hknown⟩ := hpackage
    refine ⟨hknown, fun text htext => .inr (.inr ⟨m, ?_, (htexts m rfl).1, (htexts m rfl).2,
      dates, fun f hf => .inr (hfiles f hf)⟩), hrooted, hlate⟩
    have hmarker := hfiles (Marker, m.marker hash)
      (m.texts_eq hash dates ▸ mem_append_right _ (mem_singleton.mpr rfl))
    rw [read_file, hmarker] at htext
    exact (Option.some.inj htext).symm

/-- `ensure` for a call, or `remove`, stopped after `k` of its operations. -/
def stopped_tree (hash : Hash) (order : Order Name) (clock : List Name → Nat)
    (stopped : Option Call) (k : Nat) (t : Disk Name) : Disk Name :=
  run t ((match stopped with
    | some call => (ensure hash order clock call t).ops
    | none => (remove order t).ops).take k)

/-- What is asked of the state a call stopped in: the next call returns current or written and
leaves the files that it writes into a clean folder, with their dates; and removing leaves none. -/
structure Recovers (hash : Hash) (order : Order Name) (clock : List Name → Nat) (call : Call)
    (t : Disk Name) : Prop where
  outcome : (ensure hash order clock call t).result = .current ∨
    (ensure hash order clock call t).result = .written
  files : ∃ dates, ∀ q, PackageName <+: q →
    file_at (run t (ensure hash order clock call t).ops) q =
      file_at (run ∅ (ensure hash order dates call ∅).ops) q
  removed : ∀ q, PackageName <+: q ∨ LatePackageName <+: q →
    has (run t (remove order t).ops) q = false

theorem remove_leaves_nothing (order : Order Name) (h : Orderly hash texts t)
    (hpackage : has t PackageName = true → has t Marker = true)
    (hlate : has t LatePackageName = true → has t (LatePackageName ++ [.marker]) = true) :
    ∀ q, PackageName <+: q ∨ LatePackageName <+: q → has (run t (remove order t).ops) q = false := by
  have hgone (name : List Name) (t : Disk Name) (hroot : Rooted t name)
      (hmarker : has t name = true → has t (name ++ [.marker]) = true) (q : List Name)
      (hq : name <+: q) : has (run t (remove_named order name t).ops) q = false := by
    unfold remove_named
    split
    · rw [has, lookup_remove_all, if_pos hq]
      rfl
    rename_i hno
    cases hhas : has t q with
    | false => exact hhas
    | true => exact absurd (hmarker (hroot q hq hhas)) hno
  have hother (q : List Name) (hq : LatePackageName <+: q) :
      (run t (remove_named order PackageName t).ops).lookup q = t.lookup q := by
    unfold remove_named
    split
    · rw [lookup_remove_all, if_neg fun hin => not_both hin hq]
    · rfl
  unfold remove
  rw [run_append]
  rintro q (hq | hq)
  · rw [has_congr (lookup_remove_late order _ hq)]
    exact hgone PackageName t h.rooted hpackage q hq
  · apply hgone LatePackageName _ _ _ q hq
    · exact rooted_congr h.late hother
    · rw [has_congr (hother _ prefix_rfl), has_congr (hother _ (prefix_append _ _))]
      exact hlate

/-- Where the later-named folder has lost its marker, the package is not brought up. -/
theorem bring_up_late_lost (order : Order Name) (clock : List Name → Nat) (call : Call) (m : Made)
    (hlate : has t LatePackageName = true)
    (hno : has t (LatePackageName ++ [.marker]) = false) :
    (bring_up hash order clock call m t).result = .failed := by
  have hresult : (remove_named order LatePackageName t).result = false := by
    unfold remove_named
    rw [if_neg (by simp [hno])]
    simp [hlate]
  unfold bring_up
  rw [if_pos hresult]

theorem leave_out_result (order : Order Name) (had : Bool)
    (hwhy : why = .page_changed ∨ why = .conflict) (t : Disk Name) :
    (leave_out order had why t).result ≠ .current ∧ (leave_out order had why t).result ≠ .written := by
  unfold leave_out
  dsimp only
  split
  · exact ⟨by decide, by decide⟩
  split
  · exact ⟨by decide, by decide⟩
  rcases hwhy with rfl | rfl
  · exact ⟨by decide, by decide⟩
  · exact ⟨by decide, by decide⟩

/-- A call that ends well found its folders with their markers. -/
theorem ensure_outcome (husable : Usable call m)
    (h : (ensure hash order clock call t).result = .current ∨ (ensure hash order clock call t).result = .written) :
    (has t PackageName = true → has t Marker = true) ∧
      (has t LatePackageName = true → has t (LatePackageName ++ [.marker]) = true) := by
  obtain ⟨hhelper, hcommunity, stock, page, patch, hstock, hpage, _, _⟩ := husable
  unfold ensure at h
  rw [if_neg hhelper, if_neg (by simp [hcommunity]), hstock] at h
  dsimp only at h
  rw [hpage] at h
  dsimp only at h
  split at h
  · rcases h with h | h
    · cases h
    · cases h
  rename_i hfolder
  refine ⟨fun hhas => ?_, fun hhas => ?_⟩
  · by_contra hno
    exact hfolder ⟨hhas, by simpa using hno⟩
  · by_contra hno
    have hlost : has t (LatePackageName ++ [.marker]) = false := by simpa using hno
    split at h
    · rename_i why hwhy
      obtain ⟨hcurrent, hwritten⟩ := leave_out_result order
        (has t Marker || has t (LatePackageName ++ [.marker])) (prepare_error hwhy) t
      rcases h with h | h
      · exact hcurrent h
      · exact hwritten h
    rw [bring_up_late_lost order clock call _ hhas hlost] at h
    rcases h with h | h
    · cases h
    · cases h

/-- A call that finds its marker does no more than clear what it does not use. -/
theorem bring_up_current (order : Order Name) (clock : List Name → Nat) (call : Call)
    (hlate : has t LatePackageName = true → has t (LatePackageName ++ [.marker]) = true)
    (hmarker : read_file t Marker = some (m.marker hash)) (hq : PackageName <+: q)
    (hfile : file_at (run t (bring_up hash order clock call m t).ops) q ≠ none) :
    file_at (run t (bring_up hash order clock call m t).ops) q = file_at t q := by
  have hread : read_file (run t (remove_named order LatePackageName t).ops) Marker = some (m.marker hash) := by
    rw [read_file, file_at_congr (lookup_remove_late order t (known_inside Marker marker_known).1)]
    exact hmarker
  have hhas : has t Marker = true := by
    obtain ⟨f, hf, _⟩ := Option.map_eq_some_iff.mp hmarker
    exact has_of_file_at hf
  unfold bring_up at hfile ⊢
  rw [if_neg (by simp [remove_named_result order hlate]), if_pos ⟨hhas, hread⟩] at hfile ⊢
  rw [run_append] at hfile ⊢
  rw [← file_at_congr (lookup_remove_late order t hq)]
  split at hfile
  · rename_i hsettled
    rw [if_pos hsettled]
    have hclear := lookup_clear_unused m (run t (remove_named order LatePackageName t).ops) q
    split at hclear
    · exact absurd (file_at_of_not_has (by rw [has, hclear]; rfl)) hfile
    · exact file_at_congr hclear
  rename_i hsettled
  rw [if_neg hsettled]
  rfl

/-- A state from which the next call ends as it should is one it recognises. -/
theorem Recovers.recognised (husable : Usable call m) (hstarted : call.started = 0)
    (h : Recovers hash order clock call t) : Recognised hash m t := by
  obtain ⟨houtcome, ⟨dates, hfiles⟩, _⟩ := h
  have hclean : Exact hash m dates (run ∅ (ensure hash order dates call ∅).ops) :=
    ensure_clean order dates husable hstarted
  obtain ⟨hpackage, hlate⟩ := ensure_outcome husable houtcome
  refine ⟨hpackage, hlate, fun hmarker => ?_⟩
  rw [ensure_usable order clock husable hpackage hlate] at hfiles
  have hthere (f : List Name × Text) (hf : f ∈ m.texts hash dates) : file_at t f.1 = some (f.2, dates f.1) := by
    have hpath : f.1 ∈ m.paths := m.map_fst_texts hash dates ▸ mem_map_of_mem hf
    have hin := (m.paths_known f.1 hpath).2.1
    have hend := (hfiles f.1 hin).trans (hclean.texts f hf)
    rw [← bring_up_current order clock call hlate hmarker hin (by rw [hend]; exact Option.some_ne_none _)]
    exact hend
  constructor
  · intro q hq
    rw [← m.map_fst_texts hash dates] at hq
    obtain ⟨f, hf, rfl⟩ := mem_map.mp hq
    rw [read_file, hthere f hf]
    exact Option.some_ne_none _
  · rw [read_file, hthere (Manifest, m.manifest) (mem_append_right _ mem_cons_self)]
    rfl

/-- The state a call stopped in comes to the end that a clean folder comes to if and only if the next
call recognises it: for every folder to begin with, every call, every order of deleting and every
stop. -/
theorem package_recovers {hash : Hash} {before : Option Made} {t : Disk Name}
    (hbegins : Begins hash before t) (stopped : Option Call) {next : Call} {m : Made}
    (husable : Usable next m) (hstarted : next.started = 0)
    (hhash : Distinguishes hash (texts_at_hand before stopped next)) (order order' : Order Name)
    (clock clock' : List Name → Nat) (k : Nat) :
    Recovers hash order' clock' next (stopped_tree hash order clock stopped k t) ↔
      Recognised hash m (stopped_tree hash order clock stopped k t) := by
  have hnext : ∀ text ∈ next.sources, text ∈ texts_at_hand before stopped next :=
    fun text htext => mem_append_right _ htext
  have horderly : Orderly hash (texts_at_hand before stopped next) t := by
    apply hbegins.orderly
    rintro m' hm'
    rw [Option.mem_def] at hm'
    subst hm'
    constructor
    · exact mem_append_left _ (mem_append_left _ mem_cons_self)
    · exact mem_append_left _ (mem_append_left _ (mem_cons_of_mem _ mem_cons_self))
  have hstop : Orderly hash (texts_at_hand before stopped next) (stopped_tree hash order clock stopped k t) := by
    cases stopped with
    | none => exact remove_orderly order horderly k
    | some call =>
      apply ensure_orderly order clock _ horderly k
      exact fun text htext => mem_append_left _ (mem_append_right _ htext)
  constructor
  · exact fun h => h.recognised husable hstarted
  · intro hrec
    obtain ⟨hsource, hhelper⟩ := husable.sources
    have hensure : ensure hash order' clock' next (stopped_tree hash order clock stopped k t) =
        bring_up hash order' clock' next m (stopped_tree hash order clock stopped k t) :=
      ensure_usable order' clock' husable hrec.package hrec.late
    obtain ⟨houtcome, dates, hexact⟩ := bring_up_exact order' clock' hstarted hstop hhash
      (hnext _ hsource) (hnext _ hhelper) hrec
    rw [← hensure] at houtcome hexact
    refine ⟨houtcome, ⟨dates, fun q hq => ?_⟩, ?_⟩
    · exact hexact.agree (ensure_clean order' dates husable hstarted) hq
    · exact remove_leaves_nothing order' hstop hrec.package hrec.late

end

/-! ## Stops that are not recovered from -/

/-- The longest paths first. -/
def longest_first : Order Name where
  arrange := List.insertionSort fun a b => b.length ≤ a.length
  perm := perm_insertionSort _
  bottom_up l hl := by
    have htrans : IsTrans (List Name) fun a b => b.length ≤ a.length :=
      ⟨fun _ _ _ hab hbc => Nat.le_trans hbc hab⟩
    have htotal : Std.Total fun (a b : List Name) => b.length ≤ a.length :=
      ⟨fun a b => Nat.le_total b.length a.length⟩
    have hperm := perm_insertionSort (fun (a b : List Name) => b.length ≤ a.length) l
    have hnodup := hperm.nodup_iff.mpr hl
    have hsorted := pairwise_insertionSort (fun (a b : List Name) => b.length ≤ a.length) l
    refine hsorted.imp₂ (fun a b hle hne hpre => hne ?_) hnodup
    exact hpre.eq_of_length_le hle

def sample_helper : Text := text_of "h"

/-- The hash of the two texts of the sample. -/
def sample_hash : Hash where
  sha256 text :=
    if text = Script then
      text_of "E6A2BFB0641CDBACC90AB6905709408D613C12204AC4EF2AC53EA77577BEF678"
    else if text = sample_helper then
      text_of "AAA9402664F1A41F40EBBC52C9993EB66AEB366602958FDFAA283B71E64DB123"
    else List.replicate 64 48
  length_sha256 text := by
    split
    · decide +kernel
    split
    · decide +kernel
    · exact length_replicate

/-- A simulator whose stock page is the script line alone. -/
def sample_call : Call where
  simulator := some ⟨some Script, none, none⟩
  community := true
  helper := sample_helper
  others := []
  started := 0

def sample_made : Made := ⟨.page, Script, sample_helper, []⟩

theorem sample_usable : Usable sample_call sample_made := by
  refine ⟨by decide, rfl, _, Script, ⟨.page, Script, patched_of .page Script sample_helper⟩, rfl, rfl, ?_, rfl⟩
  unfold prepare
  exact if_neg (by decide +kernel)

/-- The package made in an empty folder. -/
def sample_package : Disk Name :=
  run ∅ (ensure sample_hash longest_first (fun _ => 0) sample_call ∅).ops

/-- `ensure` into an empty folder, stopped before the first file is there: the marker is behind the
folder. -/
theorem stopped_writing_recovers : Recovers sample_hash longest_first (fun _ => 0) sample_call
    (stopped_tree sample_hash longest_first (fun _ => 0) (some sample_call) 6 ∅) := by
  have hbegins : Begins sample_hash none (∅ : Disk Name) :=
    ⟨fun q _ h => absurd h Bool.false_ne_true, fun q _ h => absurd h Bool.false_ne_true,
      fun h => absurd h Bool.false_ne_true, fun q _ => rfl⟩
  refine (package_recovers hbegins (some sample_call) sample_usable rfl ?_ longest_first
    longest_first (fun _ => 0) (fun _ => 0) 6).mpr ⟨?_, ?_, ?_⟩
  · unfold Distinguishes
    decide +kernel
  · decide +kernel
  · decide +kernel
  · decide +kernel

/-- Stopped after the folder is made and before the marker is, and stopped after the page is
deleted and before the marker is. -/
theorem stops_not_recovered :
    ¬Recovers sample_hash longest_first (fun _ => 0) sample_call
      (stopped_tree sample_hash longest_first (fun _ => 0) (some sample_call) 1 ∅) ∧
    ¬Recovers sample_hash longest_first (fun _ => 0) sample_call
      (stopped_tree sample_hash longest_first (fun _ => 0) none 1 sample_package) := by
  constructor
  · intro h
    have hpackage := (h.recognised sample_usable rfl).package
    revert hpackage
    decide +kernel
  · intro h
    have hfiles := (h.recognised sample_usable rfl).files
    revert hfiles
    decide +kernel

end taxi_camera.standalone.marks_package
