-- The two readers of a gauge's URL give one name for exactly the URLs in which
-- they look at the same text: the pairs of the query, and a plain file name.
import TaxiCam.LegacyNames

namespace taxi_camera.standalone.legacy_names

open List

variable {url before : List Char}

/-! ## The first mark -/

variable {c c' : Char} {l : List (List Char)} {a a' b b' e file name path : List Char}

/-- The text that a mark stands behind fixes the mark. -/
theorem MarkedAt.unique (h : MarkedAt url b c a)
    (h' : MarkedAt url b' c' a') (hlength : b.length = b'.length) : b = b' ∧ c = c' ∧ a = a' := by
  have heq := h.url_eq.symm.trans h'.url_eq
  obtain ⟨hb, hrest⟩ := append_inj heq hlength
  obtain ⟨hc, hrest⟩ := List.cons.inj hrest
  exact ⟨hb, hc, append_cancel_left hrest⟩

theorem FirstMark.unique {accepts : List Char → Char → Prop}
    (h : FirstMark accepts url b c a) (h' : FirstMark accepts url b' c' a') :
    b = b' ∧ c = c' ∧ a = a' :=
  h.marked.unique h'.marked (Nat.le_antisymm (h.first _ _ _ h'.marked h'.accepted)
    (h'.first _ _ _ h.marked h.accepted))

section
variable {accepts : List Char → Char → Prop} {sign : List Char → Char → Bool} {name : List Char}
  (hsign : ∀ before c, sign before c = true ↔ (c = '?' ∨ c = '&') ∧ accepts before c)
include hsign

theorem unmarked_of_scan (h : scan sign [] url = none) {b a : List Char} {c : Char}
    (hmarked : MarkedAt url b c a) : ¬ accepts b c := by
  intro haccepts
  have hno := scan_eq_none h hmarked.url_eq
  rw [nil_append, (hsign b c).mpr ⟨hmarked.sign_eq, haccepts⟩] at hno
  cases hno

theorem first_of_scan (h : scan sign [] url = some name) : ∃ b c a, FirstMark accepts url b c a ∧ value a = name := by
  obtain ⟨b, c, a, heq, haccepts, hvalue, hfirst⟩ := scan_eq_some h
  obtain ⟨hc, haccepts⟩ := (hsign _ _).mp haccepts
  exact ⟨b, c, a, ⟨⟨hc, heq⟩, haccepts, fun b' c' a' hmarked hacc =>
    hfirst b' c' a' hmarked.url_eq ((hsign _ _).mpr ⟨hmarked.sign_eq, hacc⟩)⟩, hvalue⟩

end

theorem any_sign_iff (before : List Char) (c : Char) : any_sign before c = true ↔ (c = '?' ∨ c = '&') ∧ True := by
  simp [any_sign]

theorem pair_sign_starts (before : List Char) (c : Char) :
    pair_sign before c = true ↔ (c = '?' ∨ c = '&') ∧ StartsPair before c := by
  rw [pair_sign_iff]
  constructor
  · intro h
    refine ⟨?_, h⟩
    unfold StartsPair at h
    split at h
    · exact .inr h
    · exact .inl h
  · exact fun h => h.2

/-! ## Extensions -/

/-- `.html` or `.htm`, in capitals or not. -/
def AnyCase (extension : List Char) : Prop :=
  extension.map Char.toLower = ".html".toList ∨ extension.map Char.toLower = ".htm".toList

instance decidable_any_case (extension : List Char) : Decidable (AnyCase extension) :=
  inferInstanceAs (Decidable (_ ∨ _))

theorem any_case_of_mem : ∀ extension ∈ extensions, AnyCase extension := by decide

/-- The longer extensions do not end in the shorter ones. -/
theorem extension_unique {s s' e' : List Char} (he : e ∈ extensions) (he' : e' ∈ extensions)
    (h : s ++ e = s' ++ e') : e = e' := by
  have hapart : ∀ e ∈ extensions, ∀ e' ∈ extensions, e <:+ e' → e = e' := by decide
  have hsuffix : e <:+ s' ++ e' := ⟨s, h⟩
  rcases suffix_or_suffix_of_suffix hsuffix (suffix_append s' e') with hs | hs
  · exact hapart e he e' he' hs
  · exact (hapart e' he' e he hs).symm

theorem remove_extension_found (hl : l ⊆ extensions)
    (hname : name ≠ []) (he : e ∈ l) : remove_extension l (name ++ e) = name := by
  induction l with
  | nil => cases he
  | cons d rest ih =>
    have hlong : (name ++ e).length > e.length := by
      rw [length_append]
      have := length_pos_iff.mpr hname
      omega
    rw [remove_extension]
    split
    · rename_i hends
      obtain ⟨s, hs⟩ := isSuffixOf_iff_suffix.mp hends.2
      obtain rfl := extension_unique (hl mem_cons_self) (hl he) hs
      rw [length_append, Nat.add_sub_cancel, take_left]
    rename_i hends
    rcases mem_cons.mp he with rfl | he
    · exact absurd ⟨hlong, isSuffixOf_iff_suffix.mpr (suffix_append ..)⟩ hends
    · exact ih (fun x hx => hl (mem_cons_of_mem _ hx)) he

theorem remove_extension_none (h : ∀ stem, ∀ e ∈ l, file = stem ++ e → stem = []) : remove_extension l file = file := by
  induction l with
  | nil => rfl
  | cons d rest ih =>
    rw [remove_extension, if_neg, ih fun stem e he => h stem e (mem_cons_of_mem _ he)]
    rintro ⟨hlong, hends⟩
    obtain ⟨stem, rfl⟩ := isSuffixOf_iff_suffix.mp hends
    rw [h stem d mem_cons_self rfl] at hlong
    exact Nat.lt_irrefl _ hlong

/-- The name of the file behind the last separator of a path, without its extension. A file that is
nothing but an extension keeps it. -/
def FileNamed (path name : List Char) : Prop :=
  (name ≠ [] ∧ ∃ e ∈ extensions, path.rtakeWhile (!is_separator ·) = name ++ e) ∨
    (path.rtakeWhile (!is_separator ·) = name ∧ ∀ stem, ∀ e ∈ extensions, name = stem ++ e → stem = [])

theorem file_name_eq_iff : file_name path = name ↔ FileNamed path name := by
  unfold file_name FileNamed
  generalize path.rtakeWhile (!is_separator ·) = file
  by_cases hext : ∃ stem, stem ≠ [] ∧ ∃ e ∈ extensions, file = stem ++ e
  · obtain ⟨stem, hstem, e, he, rfl⟩ := hext
    rw [remove_extension_found (List.Subset.refl _) hstem he]
    constructor
    · rintro rfl
      exact .inl ⟨hstem, e, he, rfl⟩
    · rintro (⟨_, e', he', heq⟩ | ⟨rfl, hbare⟩)
      · obtain rfl := extension_unique he he' heq
        exact append_cancel_right heq
      · exact absurd (hbare stem e he rfl) hstem
  have hbare : ∀ stem, ∀ e ∈ extensions, file = stem ++ e → stem = [] := fun stem e he heq =>
    Classical.not_not.mp fun hstem => hext ⟨stem, hstem, e, he, heq⟩
  rw [remove_extension_none hbare]
  constructor
  · rintro rfl
    exact .inr ⟨rfl, hbare⟩
  · rintro (⟨hname, e, he, heq⟩ | ⟨rfl, _⟩)
    · exact absurd (hbare name e he heq) hname
    · rfl

theorem ends_in : e.isSuffixOf (file.map Char.toLower) = true ↔
      ∃ stem ext, ext.map Char.toLower = e ∧ file = stem ++ ext := by
  rw [isSuffixOf_iff_suffix]
  constructor
  · rintro ⟨low, hlow⟩
    obtain ⟨stem, ext, rfl, -, hext⟩ := map_eq_append_iff.mp hlow.symm
    exact ⟨stem, ext, hext, rfl⟩
  · rintro ⟨stem, ext, rfl, rfl⟩
    rw [map_append]
    exact suffix_append ..

theorem length_any_case {low : List Char} (h : e.map Char.toLower = low) : e.length = low.length := by
  rw [← h, length_map]

theorem replace_extension_found (he : AnyCase e) : taxi_cam_marks.replace_extension (name ++ e) = name := by
  have hends : (e.map Char.toLower).isSuffixOf ((name ++ e).map Char.toLower) = true := by
    rw [isSuffixOf_iff_suffix, map_append]
    exact suffix_append ..
  have htake {n : Nat} (hn : e.length = n) : (name ++ e).take ((name ++ e).length - n) = name := by
    rw [length_append, hn, Nat.add_sub_cancel, take_left]
  unfold taxi_cam_marks.replace_extension
  rcases he with he | he
  · rw [he] at hends
    rw [if_pos hends]
    exact htake (length_any_case he)
  rw [he] at hends
  rw [if_neg, if_pos hends]
  · exact htake (length_any_case he)
  · -- A name does not end in both.
    intro hboth
    rw [isSuffixOf_iff_suffix] at hends hboth
    rcases suffix_or_suffix_of_suffix hends hboth with hs | hs
    · exact absurd hs (by decide)
    · exact absurd hs (by decide)

theorem replace_extension_none (h : ∀ stem e, AnyCase e → file ≠ stem ++ e) :
    taxi_cam_marks.replace_extension file = file := by
  unfold taxi_cam_marks.replace_extension
  rw [if_neg, if_neg]
  · intro hends
    obtain ⟨stem, e, he, heq⟩ := ends_in.mp hends
    exact h stem e (.inr he) heq
  · intro hends
    obtain ⟨stem, e, he, heq⟩ := ends_in.mp hends
    exact h stem e (.inl he) heq

/-! ## Files -/

/-- What stands behind the last `/` has no backslash, and if it ends in `.html` or `.htm`, in capitals
or not, it has a stem and one of the endings that the companion knows. -/
structure PlainFile (path : List Char) : Prop where
  no_backslash : '\\' ∉ path.rtakeWhile (· ≠ '/')
  known : ∀ stem e, AnyCase e → path.rtakeWhile (· ≠ '/') = stem ++ e → e ∈ extensions ∧ stem ≠ []

theorem behind_separator (path : List Char) :
    path.rtakeWhile (!is_separator ·) = (path.rtakeWhile (· ≠ '/')).rtakeWhile (· ≠ '\\') := by
  simp only [List.rtakeWhile, reverse_reverse, takeWhile_takeWhile]
  congr 2
  funext c
  simp [is_separator, and_comm]

theorem replaced_prefix (file : List Char) : ∃ e, file = taxi_cam_marks.replace_extension file ++ e ∧ '\\' ∉ e := by
  by_cases hext : ∃ stem e, AnyCase e ∧ file = stem ++ e
  · obtain ⟨stem, e, he, rfl⟩ := hext
    refine ⟨e, by rw [replace_extension_found he], fun hmem => ?_⟩
    have hlow := mem_map_of_mem (f := Char.toLower) hmem
    rcases he with he | he
    · rw [he] at hlow
      exact absurd hlow (by decide)
    rw [he] at hlow
    exact absurd hlow (by decide)
  rw [replace_extension_none fun stem e he heq => hext ⟨stem, e, he, heq⟩]
  exact ⟨[], (append_nil file).symm, not_mem_nil⟩

theorem file_name_leads (path : List Char) : file_name path <+: path.rtakeWhile (!is_separator ·) := by
  rcases file_name_eq_iff.mp (rfl : file_name path = file_name path) with ⟨_, e, _, heq⟩ | ⟨heq, _⟩
  · exact ⟨e, heq.symm⟩
  · rw [heq]

/-- The script keeps a backslash; the companion reads behind it. -/
theorem differ_of_backslash (h : '\\' ∈ path.rtakeWhile (· ≠ '/')) :
    file_name path ≠ taxi_cam_marks.replace_extension (path.rtakeWhile (· ≠ '/')) := by
  intro heq
  obtain ⟨e, hfile, he⟩ := replaced_prefix (path.rtakeWhile (· ≠ '/'))
  have hkept : '\\' ∈ file_name path := by
    rw [hfile] at h
    rw [heq]
    exact (mem_append.mp h).resolve_right he
  have hread := (file_name_leads path).subset hkept
  rw [behind_separator] at hread
  have hno := mem_rtakeWhile_imp hread
  simp at hno

theorem same_file_iff (path : List Char) :
    file_name path = taxi_cam_marks.replace_extension (path.rtakeWhile (· ≠ '/')) ↔
      PlainFile path := by
  by_cases hback : '\\' ∈ path.rtakeWhile (· ≠ '/')
  · exact ⟨fun heq => absurd heq (differ_of_backslash hback), fun h => absurd hback h.no_backslash⟩
  have hbehind : path.rtakeWhile (!is_separator ·) = path.rtakeWhile (· ≠ '/') := by
    rw [behind_separator, rtakeWhile_eq_self_iff]
    intro c hc
    rw [decide_eq_true_eq]
    rintro rfl
    exact hback hc
  have hsame : file_name path = taxi_cam_marks.replace_extension (path.rtakeWhile (· ≠ '/')) ↔
      ∀ stem e, AnyCase e → path.rtakeWhile (· ≠ '/') = stem ++ e → e ∈ extensions ∧ stem ≠ [] := by
    rw [file_name_eq_iff, FileNamed, hbehind]
    generalize path.rtakeWhile (· ≠ '/') = file
    constructor
    · intro hnamed stem e he heq
      rw [heq, replace_extension_found he] at hnamed
      rcases hnamed with ⟨hstem, e', he', heq'⟩ | ⟨hwhole, _⟩
      · obtain rfl := append_cancel_left heq'
        exact ⟨he', hstem⟩
      obtain rfl : e = [] := append_cancel_left (hwhole.trans (append_nil stem).symm)
      exact absurd he (by decide)
    · intro hknown
      by_cases hext : ∃ stem e, AnyCase e ∧ file = stem ++ e
      · obtain ⟨stem, e, he, rfl⟩ := hext
        obtain ⟨hmem, hstem⟩ := hknown stem e he rfl
        rw [replace_extension_found he]
        exact .inl ⟨hstem, e, hmem, rfl⟩
      rw [replace_extension_none fun stem e he heq => hext ⟨stem, e, he, heq⟩]
      exact .inr ⟨rfl, fun stem e he heq => absurd ⟨stem, e, any_case_of_mem e he, heq⟩ hext⟩
  rw [hsame]
  exact ⟨fun h => ⟨hback, h⟩, PlainFile.known⟩

/-! ## The two names -/

/-- The name is written a second time, where the companion looks: behind its own first mark, or, if
it has none, as the file. -/
def WrittenAgain (url name : List Char) : Prop :=
  (∃ b c a, FirstMark StartsPair url b c a ∧ value a = name) ∨
    (∀ b c a, MarkedAt url b c a → ¬ StartsPair b c) ∧ FileNamed (url.takeWhile (· ≠ '?')) name

/-- The first mark of the URL starts a pair of its query, or its name is written again; a URL with no
mark names a plain file. -/
structure Agrees (url : List Char) : Prop where
  mark : ∀ b c a, FirstMark (fun _ _ => True) url b c a → StartsPair b c ∨ WrittenAgain url (value a)
  file : (∀ b c a, ¬ MarkedAt url b c a) → PlainFile (url.takeWhile (· ≠ '?'))

theorem gauge_name_eq_iff : gauge_name url = name ↔ WrittenAgain url name := by
  rw [gauge_name_eq_scan]
  cases hscan : scan pair_sign [] url with
  | none =>
    have hno {b a : List Char} {c : Char} (hmarked : MarkedAt url b c a) : ¬ StartsPair b c :=
      unmarked_of_scan pair_sign_starts hscan hmarked
    rw [Option.getD_none, file_name_eq_iff]
    constructor
    · exact fun hnamed => .inr ⟨fun _ _ _ => hno, hnamed⟩
    · rintro (⟨b, c, a, hfirst, _⟩ | ⟨_, hnamed⟩)
      · exact absurd hfirst.accepted (hno hfirst.marked)
      · exact hnamed
  | some found =>
    obtain ⟨b, c, a, hfirst, rfl⟩ := first_of_scan pair_sign_starts hscan
    rw [Option.getD_some]
    constructor
    · exact fun hname => .inl ⟨b, c, a, hfirst, hname⟩
    · rintro (⟨b', c', a', hfirst', hname⟩ | ⟨hno, _⟩)
      · obtain ⟨-, -, rfl⟩ := hfirst.unique hfirst'
        exact hname
      · exact absurd hfirst.accepted (hno b c a hfirst.marked)

end taxi_camera.standalone.legacy_names
