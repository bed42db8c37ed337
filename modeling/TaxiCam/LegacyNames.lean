-- The name of a gauge from its URL, read twice: by the companion, which turns
-- saved display choices into panel marks (`gauge_name` of
-- src/app/legacy_display_names.hpp), and by the page script, which paints the
-- marks (`gaugeName` of src/panel_marks/taxi-cam-marks.js).
import TaxiCam.Runs
import Mathlib.Data.List.DropRight
import Mathlib.Data.List.Infix

namespace taxi_camera

open List

def wasm_gauge : List Char := "wasm_gauge=".toList

namespace standalone.legacy_names

/-! ## The companion -/

/-- The pairs of a query, from one `&` to the next. -/
def query_gauge (query : List Char) : Option (List Char) :=
  let pair := query.takeWhile (· ≠ '&')
  if wasm_gauge.isPrefixOf pair then some (pair.drop 11)
  else
    match _hrest : query.dropWhile (· ≠ '&') with
    | [] => none
    | _ :: later => query_gauge later
termination_by query.length
decreasing_by
  have hle := (dropWhile_suffix (· ≠ '&') (l := query)).length_le
  rw [_hrest, length_cons] at hle
  omega

def extensions : List (List Char) :=
  [".html".toList, ".htm".toList, ".HTML".toList, ".HTM".toList]

def remove_extension : List (List Char) → List Char → List Char
  | [], path => path
  | extension :: rest, path =>
    if path.length > extension.length ∧ extension.isSuffixOf path then
      path.take (path.length - extension.length)
    else remove_extension rest path

def is_separator (c : Char) : Bool := c = '/' || c = '\\'

def file_name (path : List Char) : List Char :=
  remove_extension extensions (path.rtakeWhile (!is_separator ·))

def gauge_name (url : List Char) : List Char :=
  match url.dropWhile (· ≠ '?') with
  | [] => file_name url
  | _ :: query => (query_gauge query).getD (file_name (url.takeWhile (· ≠ '?')))

end standalone.legacy_names

namespace taxi_cam_marks

/-! ## The page script -/

/-- `/[?&]wasm_gauge=([^&]*)/.exec(url)`, and its first group. -/
def exec_gauge : List Char → Option (List Char)
  | [] => none
  | c :: rest =>
    if (c = '?' ∨ c = '&') ∧ wasm_gauge.isPrefixOf rest then
      some ((rest.drop 11).takeWhile (· ≠ '&'))
    else exec_gauge rest

/-- `replace(/\.html?$/i, "")`. -/
def replace_extension (file : List Char) : List Char :=
  if ".html".toList.isSuffixOf (file.map Char.toLower) then file.take (file.length - 5)
  else if ".htm".toList.isSuffixOf (file.map Char.toLower) then file.take (file.length - 4)
  else file

def gauge_name (url : List Char) : List Char :=
  (exec_gauge url).getD (replace_extension ((url.takeWhile (· ≠ '?')).rtakeWhile (· ≠ '/')))

end taxi_cam_marks

namespace standalone.legacy_names

/-! ## Marks in a URL -/

/-- `wasm_gauge=` stands in the URL behind a `?` or an `&`. -/
structure MarkedAt (url before : List Char) (sign : Char) (after : List Char) : Prop where
  sign_eq : sign = '?' ∨ sign = '&'
  url_eq : url = before ++ sign :: (wasm_gauge ++ after)

/-- A sign that starts a pair of the query: the first `?` of the URL, or an `&` behind it. -/
def StartsPair (before : List Char) (sign : Char) : Prop :=
  if '?' ∈ before then sign = '&' else sign = '?'

/-- The first mark of those that a reader accepts. -/
structure FirstMark (accepts : List Char → Char → Prop) (url before : List Char) (sign : Char)
    (after : List Char) : Prop where
  marked : MarkedAt url before sign after
  accepted : accepts before sign
  first : ∀ b c a, MarkedAt url b c a → accepts b c → before.length ≤ b.length

def value (after : List Char) : List Char := after.takeWhile (· ≠ '&')

/-! ## One scan for both readers -/

/-- The value behind the first mark whose sign is accepted after the text before it. -/
def scan (accepts : List Char → Char → Bool) : List Char → List Char → Option (List Char)
  | _, [] => none
  | before, c :: rest =>
    if accepts before c ∧ wasm_gauge.isPrefixOf rest then
      some ((rest.drop 11).takeWhile (· ≠ '&'))
    else scan accepts (before ++ [c]) rest

variable {accepts : List Char → Char → Bool} {before rest url : List Char}

theorem drop_wasm_gauge (after : List Char) : (wasm_gauge ++ after).drop 11 = after := drop_left' rfl

/-- The scan finds the first mark. -/
theorem scan_eq_some {name : List Char} (h : scan accepts before rest = some name) :
    ∃ b c a, rest = b ++ c :: (wasm_gauge ++ a) ∧ accepts (before ++ b) c = true ∧
      value a = name ∧ ∀ b' c' a', rest = b' ++ c' :: (wasm_gauge ++ a') →
        accepts (before ++ b') c' = true → b.length ≤ b'.length := by
  induction rest generalizing before with
  | nil => cases h
  | cons c rest ih =>
    rw [scan] at h
    split at h
    · rename_i hmark
      obtain ⟨a, rfl⟩ := isPrefixOf_iff_prefix.mp hmark.2
      refine ⟨[], c, a, rfl, by rw [append_nil]; exact hmark.1, ?_, fun _ _ _ _ _ => Nat.zero_le _⟩
      rw [drop_wasm_gauge] at h
      exact Option.some.inj h
    rename_i hmark
    obtain ⟨b, d, a, rfl, haccepts, hvalue, hfirst⟩ := ih h
    refine ⟨c :: b, d, a, rfl, by rw [append_cons]; exact haccepts, hvalue, ?_⟩
    intro b' c' a' heq hacc
    cases b' with
    | nil =>
      obtain ⟨rfl, hrest⟩ := List.cons.inj heq
      rw [append_nil] at hacc
      exact absurd ⟨hacc, isPrefixOf_iff_prefix.mpr ⟨a', hrest.symm⟩⟩ hmark
    | cons e b' =>
      obtain ⟨rfl, hrest⟩ := List.cons.inj heq
      have hle := hfirst b' c' a' hrest (by rw [append_assoc]; exact hacc)
      simpa using hle

theorem scan_eq_none (h : scan accepts before rest = none) {b : List Char} {c : Char}
    {a : List Char} (heq : rest = b ++ c :: (wasm_gauge ++ a)) :
    accepts (before ++ b) c = false := by
  induction rest generalizing before b with
  | nil => simp at heq
  | cons d rest ih =>
    rw [scan] at h
    split at h
    · cases h
    rename_i hmark
    cases b with
    | nil =>
      obtain ⟨rfl, hrest⟩ := List.cons.inj heq
      rw [append_nil]
      by_contra hacc
      rw [Bool.not_eq_false] at hacc
      exact hmark ⟨hacc, isPrefixOf_iff_prefix.mpr ⟨a, hrest.symm⟩⟩
    | cons e b =>
      obtain ⟨rfl, hrest⟩ := List.cons.inj heq
      have hno := ih h hrest
      rwa [append_assoc] at hno

/-! ## Both readers scan -/

def any_sign (_ : List Char) (c : Char) : Bool := c = '?' || c = '&'

def pair_sign (before : List Char) (c : Char) : Bool :=
  if '?' ∈ before then c = '&' else c = '?'

theorem pair_sign_iff {c : Char} : pair_sign before c = true ↔ StartsPair before c := by
  unfold pair_sign StartsPair
  split <;> exact decide_eq_true_iff

theorem exec_gauge_eq_scan (before url : List Char) : taxi_cam_marks.exec_gauge url = scan any_sign before url := by
  induction url generalizing before with
  | nil => rfl
  | cons c rest ih => simp only [taxi_cam_marks.exec_gauge, scan, any_sign, ih (before ++ [c]),
      Bool.or_eq_true, decide_eq_true_eq]

/-- No sign of a pair stands in the text `wasm_gauge=`, so a pair begins with it as the query does. -/
theorem begins_pair (query : List Char) :
    wasm_gauge.isPrefixOf (query.takeWhile (· ≠ '&')) = wasm_gauge.isPrefixOf query ∧
      (wasm_gauge.isPrefixOf query = true →
        (query.takeWhile (· ≠ '&')).drop 11 = (query.drop 11).takeWhile (· ≠ '&')) := by
  by_cases h : wasm_gauge.isPrefixOf query = true
  · obtain ⟨a, rfl⟩ := isPrefixOf_iff_prefix.mp h
    have htake : (wasm_gauge ++ a).takeWhile (· ≠ '&') = wasm_gauge ++ a.takeWhile (· ≠ '&') :=
      takeWhile_append_of_pos (all_eq_true.mp rfl)
    rw [htake, drop_wasm_gauge, drop_wasm_gauge, h]
    exact ⟨List.isPrefixOf_iff_prefix.mpr (prefix_append ..), fun _ => rfl⟩
  refine ⟨?_, fun hbegins => absurd hbegins h⟩
  rw [Bool.not_eq_true] at h
  rw [h, ← Bool.not_eq_true]
  intro hpair
  have hprefix := (List.isPrefixOf_iff_prefix.mp hpair).trans (List.takeWhile_prefix ..)
  rw [List.isPrefixOf_iff_prefix.mpr hprefix] at h
  cases h

/-- Behind the first `?` the companion looks at every `&`. -/
theorem scan_query (hbefore : '?' ∈ before) (rest : List Char) :
    scan pair_sign before rest = match rest.dropWhile (· ≠ '&') with
      | [] => none
      | _ :: query => query_gauge query := by
  induction rest generalizing before with
  | nil => rfl
  | cons c rest ih =>
    have hmore := ih (mem_append_left [c] hbefore)
    by_cases hc : c = '&'
    · subst hc
      have hdrop : ('&' :: rest).dropWhile (· ≠ '&') = '&' :: rest := dropWhile_cons_of_neg (by decide)
      obtain ⟨hpair, hvalue⟩ := begins_pair rest
      rw [hdrop, scan, hmore]
      dsimp only
      rw [query_gauge, hpair]
      simp only [pair_sign, hbefore, if_true, decide_true, true_and]
      split
      · rename_i hbegins
        rw [hvalue hbegins]
      · split <;> rename_i heq <;> rw [heq]
    have hdrop : (c :: rest).dropWhile (· ≠ '&') = rest.dropWhile (· ≠ '&') :=
      dropWhile_cons_of_pos (by simpa using hc)
    rw [hdrop, scan, hmore]
    simp [pair_sign, hbefore, hc]

/-- Before the first `?` it looks at nothing. -/
theorem scan_url (hbefore : '?' ∉ before) (url : List Char) :
    scan pair_sign before url = match url.dropWhile (· ≠ '?') with
      | [] => none
      | _ :: query => query_gauge query := by
  induction url generalizing before with
  | nil => rfl
  | cons c rest ih =>
    by_cases hc : c = '?'
    · subst hc
      have hdrop : ('?' :: rest).dropWhile (· ≠ '?') = '?' :: rest := dropWhile_cons_of_neg (by decide)
      obtain ⟨hpair, hvalue⟩ := begins_pair rest
      rw [hdrop, scan, scan_query (by simp) rest]
      dsimp only
      rw [query_gauge, hpair]
      simp only [pair_sign, hbefore, if_false, decide_true, true_and]
      split
      · rename_i hbegins
        rw [hvalue hbegins]
      · split <;> rename_i heq <;> rw [heq]
    have hdrop : (c :: rest).dropWhile (· ≠ '?') = rest.dropWhile (· ≠ '?') :=
      dropWhile_cons_of_pos (by simpa using hc)
    have hlater : '?' ∉ before ++ [c] := by simp [hbefore, Ne.symm hc]
    rw [hdrop, scan, ih hlater]
    simp [pair_sign, hbefore, hc]

theorem gauge_name_eq_scan (url : List Char) :
    gauge_name url = (scan pair_sign [] url).getD (file_name (url.takeWhile (· ≠ '?'))) := by
  rw [scan_url (by simp), gauge_name]
  split
  · rename_i hnone
    have hwhole : url.takeWhile (· ≠ '?') = url := by
      have hsplit := takeWhile_append_dropWhile (p := (· ≠ '?')) (l := url)
      rwa [hnone, append_nil] at hsplit
    rw [hwhole]
    rfl
  · rfl

theorem script_name_eq_scan (url : List Char) :
    taxi_cam_marks.gauge_name url = (scan any_sign [] url).getD
      (taxi_cam_marks.replace_extension ((url.takeWhile (· ≠ '?')).rtakeWhile (· ≠ '/'))) := by
  rw [taxi_cam_marks.gauge_name, exec_gauge_eq_scan []]

end standalone.legacy_names

end taxi_camera
