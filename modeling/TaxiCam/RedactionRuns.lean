-- A run of the rules over a text. A pass that meets nothing private leaves
-- no occurrence of its own value and makes none of an earlier one.
import TaxiCam.Redactions
import Mathlib.Data.List.Induction

namespace taxi_camera.standalone.report_bundle

open splices runs List

variable {rule other : Redaction} {previous : Option UInt8} {text before found after rest : List UInt8}

/-! ## Cuts and matches -/

theorem mem_cuts {α : Type} {l : List α} {c : List α × List α} : c ∈ cuts l ↔ l = c.1 ++ c.2 := by
  simp only [cuts, mem_map, mem_range]
  constructor
  · rintro ⟨i, -, rfl⟩
    exact (take_append_drop i l).symm
  · intro h
    refine ⟨c.1.length, by rw [h, length_append]; omega, ?_⟩
    rw [h, take_left, drop_left]

theorem length_same (h : found.map lower = rule.value.map lower) : found.length = rule.value.length := by
  simpa using congrArg List.length h

/-- The code's own test finds what stands there. -/
theorem matches_of_stands (h : Stands rule before found after) : starts_at rule before (found ++ after) = true := by
  have hlength := length_same h.same
  simp only [starts_at, matches_at, Bool.and_eq_true, decide_eq_true_eq, Bool.or_eq_true, ← hlength,
    take_left, drop_left]
  refine ⟨h.same, ?_⟩
  cases hwhole : rule.whole_word with
  | false => exact .inl rfl
  | true => exact .inr (h.whole hwhole)

theorem stands_of_matches (h : starts_at rule before rest = true) :
    Stands rule before (rest.take rule.value.length) (rest.drop rule.value.length) := by
  simp only [starts_at, matches_at, Bool.and_eq_true, decide_eq_true_eq, Bool.or_eq_true] at h
  refine ⟨h.1, fun hwhole => ?_⟩
  rcases h.2 with hplain | hedges
  · rw [hwhole] at hplain
    cases hplain
  · exact hedges

/-- The value meets the replacement wherever one takes in a part of the other. -/
theorem meets_of_meets {v r : List UInt8} (h : Meets v r) : meets v r = true := by
  simp only [meets, Bool.or_eq_true, any_eq_true, Bool.and_eq_true, decide_eq_true_eq]
  rcases h with ⟨x, y, rfl, hx, hy, hmeet⟩ | ⟨y, x, rfl, hy, hx, hmeet⟩ | ⟨a, b, rfl⟩
  · refine .inl ⟨(x, y), mem_cuts.mpr rfl, ⟨hx, hy⟩, .inl ?_⟩
    exact hmeet.imp isPrefixOf_iff_prefix.mpr isPrefixOf_iff_prefix.mpr
  · exact .inl ⟨(y, x), mem_cuts.mpr rfl, ⟨hy, hx⟩, .inr (isSuffixOf_iff_suffix.mpr hmeet)⟩
  · exact .inr ⟨(a, v ++ b), mem_cuts.mpr (append_assoc ..), isPrefixOf_iff_prefix.mpr (prefix_append ..)⟩

/-! ## The pieces of a pass -/

/-- What the pass of a rule keeps and what it cuts out. -/
def pieces_from (rule : Redaction) : Option UInt8 → List UInt8 → List (Piece UInt8)
  | _, [] => []
  | previous, c :: rest =>
    if matches_at rule previous (c :: rest) then
      .cut ((c :: rest).take rule.value.length) ::
        pieces_from rule ((c :: rest).take rule.value.length).getLast?
          (rest.drop (rule.value.length - 1))
    else .kept c :: pieces_from rule (some c) rest
termination_by _ text => text.length
decreasing_by
  · rw [length_drop, length_cons]
    omega
  · exact Nat.lt_succ_self _

theorem take_drop_cons {n : Nat} (hn : n ≠ 0) (c : UInt8) (rest : List UInt8) :
    (c :: rest).take n ++ rest.drop (n - 1) = c :: rest := by
  have hdrop : (c :: rest).drop n = rest.drop (n - 1) := by
    obtain ⟨m, rfl⟩ := Nat.exists_eq_succ_of_ne_zero hn
    rfl
  rw [← hdrop, take_append_drop]

theorem original_pieces (hvalue : rule.value ≠ []) (previous : Option UInt8) (text : List UInt8) :
    original (pieces_from rule previous text) = text := by
  have hn : rule.value.length ≠ 0 := fun h => hvalue (length_eq_zero_iff.mp h)
  induction previous, text using pieces_from.induct rule with
  | case1 => simp [pieces_from, original]
  | case2 previous c rest hmatch ih =>
    rw [pieces_from, if_pos hmatch]
    change (c :: rest).take rule.value.length ++ original _ = _
    rw [ih, take_drop_cons hn]
  | case3 previous c rest hmatch ih =>
    rw [pieces_from, if_neg hmatch]
    exact congrArg (c :: ·) ih

theorem spliced_pieces (previous : Option UInt8) (text : List UInt8) :
    spliced rule.replacement (pieces_from rule previous text) = redact_from rule previous text := by
  induction previous, text using pieces_from.induct rule with
  | case1 => simp [pieces_from, redact_from, spliced]
  | case2 previous c rest hmatch ih =>
    rw [pieces_from, redact_from, if_pos hmatch, if_pos hmatch, ← ih]
    rfl
  | case3 previous c rest hmatch ih =>
    rw [pieces_from, redact_from, if_neg hmatch, if_neg hmatch, ← ih]
    rfl

variable {p q : List (Piece UInt8)} {m : List UInt8} {s : Redacted}

/-- From any piece on, the pass goes as from the character before it. -/
theorem pieces_after (hvalue : rule.value ≠ []) (h : pieces_from rule previous text = p ++ q) :
    q = pieces_from rule ((original p).getLast?.or previous) (original q) := by
  induction p generalizing previous text with
  | nil =>
    rw [nil_append] at h
    rw [← h, original_pieces hvalue]
    rfl
  | cons piece p ih =>
    cases text with
    | nil => simp [pieces_from] at h
    | cons c rest =>
      rw [pieces_from] at h
      split at h
      · obtain ⟨rfl, hrest⟩ := List.cons.inj h
        have hsome : ((c :: rest).take rule.value.length).getLast? =
            ((c :: rest).take rule.value.length).getLast?.or previous := by
          obtain ⟨d, tail, hd⟩ := exists_cons_of_ne_nil hvalue
          rw [hd, length_cons, take_succ_cons, List.getLast?_cons]
          rfl
        have hlater := ih hrest
        rw [hsome, ← Option.or_assoc, ← List.getLast?_append] at hlater
        exact hlater
      obtain ⟨rfl, hrest⟩ := List.cons.inj h
      have hlater := ih hrest
      rw [show (some c : Option UInt8) = [c].getLast?.or previous from rfl, ← Option.or_assoc,
        ← List.getLast?_append] at hlater
      exact hlater

theorem no_match_of_kept {c : UInt8}
    (h : Piece.kept c :: q = pieces_from rule previous text) : matches_at rule previous text = false := by
  cases text with
  | nil => simp [pieces_from] at h
  | cons d rest =>
    rw [pieces_from] at h
    split at h
    · cases h
    rename_i hno
    rwa [Bool.not_eq_true] at hno

theorem match_of_cut (h : Piece.cut m :: q = pieces_from rule previous text) :
    matches_at rule previous text = true ∧ m = text.take rule.value.length := by
  cases text with
  | nil => simp [pieces_from] at h
  | cons d rest =>
    rw [pieces_from] at h
    split at h
    · rename_i hmatch
      exact ⟨hmatch, Piece.cut.inj (List.cons.inj h).1⟩
    · cases h

/-! ## One pass -/

/-- A cut piece of a pass over the whole text, and what starts there. -/
theorem starts_of_cut (hvalue : rule.value ≠ []) (h : pieces_from rule none text = p ++ .cut m :: q) :
    starts_at rule (original p) (m ++ original q) = true ∧ m.length = rule.value.length := by
  have hafter := pieces_after hvalue h
  rw [Option.or_none] at hafter
  obtain ⟨hmatch, hm⟩ := match_of_cut hafter
  exact ⟨hmatch, (congrArg List.length hm).trans (length_same (stands_of_matches hmatch).same)⟩

/-- Where a pass has nothing to replace it leaves the text. -/
theorem redact_none (hvalue : rule.value ≠ [])
    (h : ∀ a b, text = a ++ b → starts_at rule a b = false) : redact_from rule none text = text := by
  have hkept : ∀ p q, pieces_from rule none text = p ++ q → spliced rule.replacement q = original q := by
    intro p q hsplit
    induction q generalizing p with
    | nil => rfl
    | cons piece q ih =>
      have hrest := ih (p ++ [piece]) (by rw [hsplit, append_assoc]; rfl)
      cases piece with
      | kept c => exact congrArg (c :: ·) hrest
      | cut m =>
        have htext := original_pieces hvalue none text
        rw [hsplit, original_append] at htext
        have hno := h (original p) (m ++ original q) htext.symm
        rw [(starts_of_cut hvalue hsplit).1] at hno
        cases hno
  have hall := hkept [] (pieces_from rule none text) rfl
  rwa [spliced_pieces, original_pieces hvalue] at hall

/-- What the guard of a pass says of one rule with a value. -/
theorem clear_for (hclear : clear s rule = true) (hvalue : rule.value ≠ [])
    (hother : other ∈ s.seen ++ [rule]) (hnonempty : other.value ≠ []) :
    ((∀ a b, s.text = a ++ b → starts_at rule a b = false) ∨
        ¬ Meets (other.value.map lower) (rule.replacement.map lower)) ∧
      (other.whole_word = true → ∀ a b, s.text = a ++ b → bounded rule other a b = true) := by
  simp only [clear, Bool.or_eq_true, decide_eq_true_eq, hvalue, false_or, all_eq_true] at hclear
  have h := hclear other hother
  simp only [Bool.or_eq_true, hnonempty, false_or, Bool.and_eq_true, Bool.not_eq_true', all_eq_true] at h
  refine ⟨?_, fun hwhole a b hsplit => ?_⟩
  · refine h.1.imp (fun hnone a b hsplit => ?_) fun hapart hmeets => ?_
    · rw [any_eq_false] at hnone
      have hno := hnone (a, b) (mem_cuts.mpr hsplit)
      rwa [Bool.not_eq_true] at hno
    · rw [meets_of_meets hmeets] at hapart
      cases hapart
  · rcases h.2 with hplain | hall
    · rw [hwhole] at hplain
      cases hplain
    · exact hall (a, b) (mem_cuts.mpr hsplit)

/-- The edge behind a value in the new text is an edge in the old one, or a replaced occurrence. -/
theorem edge_after (hvalue : rule.value ≠ []) (h : pieces_from rule none text = p ++ q)
    (hedge : edge (spliced rule.replacement q).head? = true) :
    (edge (original q).head? || starts_at rule (original p) (original q)) = true := by
  rw [Bool.or_eq_true]
  cases q with
  | nil => exact .inl rfl
  | cons piece q =>
    cases piece with
    | kept c => exact .inl hedge
    | cut m => exact .inr (starts_of_cut hvalue h).1

theorem edge_before (hvalue : rule.value ≠ []) (h : pieces_from rule none text = p ++ q)
    (hedge : edge (spliced rule.replacement p).getLast? = true) :
    (edge (original p).getLast? || ends_at rule (original p) (original q)) = true := by
  rw [Bool.or_eq_true]
  rcases eq_nil_or_concat p with rfl | ⟨p, piece, rfl⟩
  · exact .inl rfl
  cases piece with
  | kept c =>
    refine .inl ?_
    rw [concat_eq_append, spliced_append] at hedge
    rw [concat_eq_append, original_append]
    change edge (spliced rule.replacement p ++ [c]).getLast? = true at hedge
    change edge (original p ++ [c]).getLast? = true
    rw [List.getLast?_concat] at hedge ⊢
    exact hedge
  | cut m =>
    refine .inr ?_
    rw [concat_eq_append, append_assoc] at h
    obtain ⟨hstarts, hlength⟩ := starts_of_cut (q := q) hvalue h
    have horiginal : original (p.concat (.cut m)) = original p ++ m := by
      rw [concat_eq_append, original_append]
      exact congrArg (original p ++ ·) (append_nil m)
    rw [horiginal, ends_at, length_append, hlength, Nat.add_sub_cancel, take_left,
      drop_left, hstarts, Bool.and_true, decide_eq_true_eq]
    omega

/-- A pass makes no occurrence of a value of the rules so far, and leaves none of its own. -/
theorem occurs_before (hclear : clear s rule = true)
    (hother : other ∈ s.seen ++ [rule]) (hnonempty : other.value ≠ [])
    (hoccurs : Occurs other (redact_rule s.text rule)) :
    Occurs other s.text ∧ (rule.value ≠ [] → other ≠ rule) := by
  by_cases hvalue : rule.value = []
  · rw [redact_rule, if_pos hvalue] at hoccurs
    exact ⟨hoccurs, fun h => absurd hvalue h⟩
  rw [redact_rule, if_neg hvalue] at hoccurs
  obtain ⟨hmeets, hbounded⟩ := clear_for hclear hvalue hother hnonempty
  rcases hmeets with hnone | hapart
  · rw [redact_none hvalue hnone] at hoccurs
    refine ⟨hoccurs, fun _ heq => ?_⟩
    subst heq
    obtain ⟨a, w, b, htext, hstands⟩ := hoccurs
    have hno := hnone a (w ++ b) (by rw [htext, append_assoc])
    rw [matches_of_stands hstands] at hno
    cases hno
  obtain ⟨a, w, b, htext, hstands⟩ := hoccurs
  have hw : w ≠ [] := by
    rintro rfl
    exact hnonempty (by simpa using hstands.same)
  have hfree : ¬ Meets w rule.replacement := by
    intro hmeets
    have hlow := hmeets.map lower
    rw [hstands.same] at hlow
    exact hapart hlow
  rw [← spliced_pieces] at htext
  obtain ⟨p, q, hpieces, rfl, rfl⟩ := located hfree hw htext
  have horiginal := original_pieces hvalue none s.text
  rw [hpieces, original_append, original_append, original_kept] at horiginal
  have hold : Stands other (original p) w (original q) := by
    refine ⟨hstands.same, fun hwhole => ?_⟩
    obtain ⟨hleft, hright⟩ := hstands.whole hwhole
    have hbound := hbounded hwhole (original p) (w ++ original q) (by rw [← horiginal, append_assoc])
    have hbefore := edge_before hvalue (by rw [hpieces, append_assoc]) hleft
    have hafter := edge_after hvalue hpieces hright
    rw [original_append, original_kept] at hbefore hafter
    simp only [bounded, ← length_same hstands.same, take_left, drop_left, hstands.same,
      hbefore, hafter, ne_eq, not_true_eq_false, decide_false, Bool.false_or, Bool.and_self,
      Bool.not_true, Bool.and_eq_true] at hbound
    exact hbound
  refine ⟨⟨_, w, _, horiginal.symm, hold⟩, fun _ heq => ?_⟩
  -- The pass stopped at every place where its value stands.
  subst heq
  obtain ⟨c, tail, rfl⟩ := exists_cons_of_ne_nil hw
  have hsplit : pieces_from other none s.text = p ++ ((c :: tail).map .kept ++ q) := by
    rw [hpieces, append_assoc]
  have hkept := pieces_after hvalue hsplit
  rw [Option.or_none, original_append, original_kept] at hkept
  have hno := no_match_of_kept hkept
  have hstarts := matches_of_stands hold
  rw [starts_at, hno] at hstarts
  cases hstarts

/-! ## The run -/

/-- No value of a rule so far occurs in the text. -/
def Clean (s : Redacted) : Prop :=
  ∀ rule ∈ s.seen, rule.value ≠ [] → ¬ Occurs rule s.text

theorem Clean.pass (h : Clean s) (hclear : clear s rule = true) : Clean (pass s rule) := by
  intro other hother hnonempty hoccurs
  obtain ⟨hold, hapart⟩ := occurs_before hclear hother hnonempty hoccurs
  rcases mem_append.mp hother with hseen | hlast
  · exact h other hseen hnonempty hold
  obtain rfl := mem_singleton.mp hlast
  exact hapart hnonempty rfl

theorem run_seen (s : Redacted) (rules : List Redaction) :
    (run pass s rules).seen = s.seen ++ rules ∧ (run pass s rules).text = redact s.text rules := by
  induction rules generalizing s with
  | nil => exact ⟨(append_nil _).symm, rfl⟩
  | cons rule rules ih =>
    obtain ⟨hseen, htext⟩ := ih (report_bundle.pass s rule)
    exact ⟨by rw [run_cons, hseen, append_cons]; rfl, by rw [run_cons, htext]; rfl⟩

theorem clean_of_clear {rules : List Redaction}
    (hclear : Guarded pass (fun s rule => clear s rule = true) { text := text } rules) :
    Clean { seen := rules, text := redact text rules } := by
  have hclean : Clean (run pass { text := text } rules) :=
    guarded_invariant (fun _ _ h hpass => h.pass hpass) rules nofun hclear
  obtain ⟨hseen, htext⟩ := run_seen { text := text } rules
  intro rule hrule
  have hno := hclean rule (by rw [hseen]; exact hrule)
  rwa [htext] at hno

/-- A folder with two names in it, and a sentence with all of them. -/
def rob : List Redaction := report_redactions (ascii "C:\\Users\\Rob") (ascii "Rob") (ascii "DESK-7")

/-- An account name that ends in a hyphen. -/
def bob : List Redaction := report_redactions (ascii "C:\\Users\\bob-") (ascii "bob-") (ascii "XYZ")

end taxi_camera.standalone.report_bundle
