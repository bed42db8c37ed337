-- The patched cockpit page: one block behind the line of its script, and every
-- other line as it was.
import TaxiCam.PackageTexts
import Mathlib.Data.List.Infix

namespace taxi_camera.standalone.marks_package

open List

/-! ## Lines -/

/-- A line, and the line feed that ends it. -/
def spell_line (line : Text × Bool) : Text := line.1 ++ if line.2 then [10] else []

def spell (l : List (Text × Bool)) : Text := l.flatMap spell_line

/-- No line feed stands in a line, and only the last one may go without one at its end. -/
def Proper : List (Text × Bool) → Prop
  | [] => True
  | (line, true) :: rest => 10 ∉ line ∧ Proper rest
  | (line, false) :: rest => 10 ∉ line ∧ line ≠ [] ∧ rest = []

variable {line : Text} {l before after : List (Text × Bool)}

@[simp] theorem spell_nil : spell [] = [] := rfl

theorem spell_cons (x : Text × Bool) (l : List (Text × Bool)) : spell (x :: l) = spell_line x ++ spell l :=
  flatMap_cons

theorem spell_append (l m : List (Text × Bool)) : spell (l ++ m) = spell l ++ spell m := flatMap_append

theorem lines_ended (h : 10 ∉ line) (rest : Text) : lines (line ++ 10 :: rest) = (line, true) :: lines rest := by
  induction line with
  | nil => rfl
  | cons c line ih =>
    rw [mem_cons, not_or] at h
    rw [cons_append, lines, if_neg (Ne.symm h.1), ih h.2]

theorem lines_unended (h : 10 ∉ line) (hne : line ≠ []) : lines line = [(line, false)] := by
  induction line with
  | nil => exact absurd rfl hne
  | cons c line ih =>
    rw [mem_cons, not_or] at h
    rw [lines, if_neg (Ne.symm h.1)]
    by_cases hnil : line = []
    · subst hnil
      rfl
    · rw [ih h.2 hnil]

/-- Every text is its lines. -/
theorem lines_spec (t : Text) : Proper (lines t) ∧ spell (lines t) = t := by
  induction t with
  | nil => exact ⟨trivial, rfl⟩
  | cons c t ih =>
    obtain ⟨hproper, hspell⟩ := ih
    rw [lines]
    split
    · rename_i hfeed
      subst hfeed
      refine ⟨⟨not_mem_nil, hproper⟩, ?_⟩
      rw [spell_cons, hspell]
      rfl
    rename_i hfeed
    split
    · rename_i hnone
      rw [hnone] at hspell
      rw [← hspell]
      exact ⟨⟨by simpa using Ne.symm hfeed, cons_ne_nil _ _, rfl⟩, rfl⟩
    rename_i line ended more hmore
    rw [hmore] at hproper hspell
    rw [spell_cons] at hspell ⊢
    have hnot (h : 10 ∉ line) : 10 ∉ c :: line := by
      rw [mem_cons, not_or]
      exact ⟨Ne.symm hfeed, h⟩
    refine ⟨?_, by rw [← hspell]; rfl⟩
    cases ended with
    | true => exact ⟨hnot hproper.1, hproper.2⟩
    | false => exact ⟨hnot hproper.1, cons_ne_nil _ _, hproper.2.2⟩

theorem lines_spell (h : Proper l) : lines (spell l) = l := by
  induction l with
  | nil => rfl
  | cons x l ih =>
    obtain ⟨line, ended⟩ := x
    rw [spell_cons]
    cases ended with
    | true =>
      have hsplit : spell_line (line, true) ++ spell l = line ++ 10 :: spell l := by
        rw [spell_line, if_pos rfl, append_assoc]
        rfl
      rw [hsplit, lines_ended h.1, ih h.2]
    | false =>
      obtain ⟨hfeed, hne, rfl⟩ := h
      have hsplit : spell_line (line, false) ++ spell [] = line := by
        rw [spell_line, if_neg Bool.false_ne_true, spell_nil, append_nil, append_nil]
      rw [hsplit, lines_unended hfeed hne]

/-- What goes before a line ends with a line feed. -/
theorem proper_append (hne : after ≠ []) :
    Proper (before ++ after) ↔ (∀ x ∈ before, 10 ∉ x.1 ∧ x.2 = true) ∧ Proper after := by
  induction before with
  | nil => simp
  | cons x before ih =>
    obtain ⟨line, ended⟩ := x
    cases ended with
    | true =>
      rw [cons_append, Proper, ih]
      simp [and_assoc]
    | false =>
      simp [Proper, hne]

/-! ## The script's line -/

/-- The stock script line: blanks, the script, blanks, and at most one carriage return at the end. -/
structure ScriptLineOf (line indent ret : Text) : Prop where
  blank : ∀ c ∈ indent, is_blank c = true
  ret_eq : ret = [] ∨ ret = [13]
  line_eq : ∃ trail, (∀ c ∈ trail, is_blank c = true) ∧ line = indent ++ (Script ++ (trail ++ ret))

def Loads (line : Text) : Prop := ∃ indent ret, ScriptLineOf line indent ret

/-- A line without the carriage return at its end. -/
def body (line : Text) : Text := if line.getLast? = some 13 then line.dropLast else line

/-- What is left of a line without blanks around it. -/
def content (line : Text) : Text := (((body line).dropWhile is_blank).reverse.dropWhile is_blank).reverse

theorem dropWhile_blanks {blanks rest : Text} (h : ∀ c ∈ blanks, is_blank c = true)
    (hrest : ∀ c, rest.head? = some c → is_blank c = false) : (blanks ++ rest).dropWhile is_blank = rest := by
  rw [dropWhile_append_of_pos h]
  cases rest with
  | nil => rfl
  | cons c rest => rw [dropWhile_cons_of_neg (by rw [hrest c rfl]; exact Bool.false_ne_true)]

/-- An element: nothing blank stands at its ends, and no carriage return. -/
structure Element (e : Text) : Prop where
  opens : e.head? = some 60
  closes : e.getLast? = some 62

theorem script_element : Element Script := by
  rw [Script, text_of_chars]
  exact ⟨rfl, rfl⟩

variable {e indent ret trail : Text}

theorem Element.ne_nil (h : Element e) : e ≠ [] := by
  rintro rfl
  cases h.opens

theorem no_return (he : Element e) (indent : Text)
    (htrail : ∀ c ∈ trail, is_blank c = true) : (indent ++ (e ++ trail)).getLast? ≠ some 13 := by
  intro hlast
  rw [List.getLast?_append_of_ne_nil _ (append_ne_nil_of_left_ne_nil he.ne_nil _), List.getLast?_append] at hlast
  cases hblank : trail.getLast? with
  | none =>
    rw [hblank, Option.none_or, he.closes] at hlast
    cases hlast
  | some c =>
    rw [hblank, Option.some_or] at hlast
    have hc := htrail c (mem_of_getLast? hblank)
    rw [Option.some.inj hlast] at hc
    cases hc

theorem line_with_return (e indent trail : Text) :
    indent ++ (e ++ (trail ++ [13])) = (indent ++ (e ++ trail)) ++ [13] := by
  simp only [append_assoc]

theorem body_of_line (he : Element e) (hret : ret = [] ∨ ret = [13]) (htrail : ∀ c ∈ trail, is_blank c = true) :
    body (indent ++ (e ++ (trail ++ ret))) = indent ++ (e ++ trail) := by
  unfold body
  rcases hret with rfl | rfl
  · rw [append_nil, if_neg (no_return he indent htrail)]
  · rw [line_with_return, List.getLast?_concat, if_pos rfl, dropLast_concat]

theorem content_of_line (he : Element e) (hret : ret = [] ∨ ret = [13])
    (hindent : ∀ c ∈ indent, is_blank c = true) (htrail : ∀ c ∈ trail, is_blank c = true) :
    content (indent ++ (e ++ (trail ++ ret))) = e := by
  unfold content
  rw [body_of_line he hret htrail, dropWhile_blanks hindent, reverse_append, dropWhile_blanks, reverse_reverse]
  · exact fun c hc => htrail c (mem_reverse.mp hc)
  · intro c hc
    rw [List.head?_reverse, he.closes] at hc
    cases hc
    rfl
  · intro c hc
    rw [List.head?_append, he.opens] at hc
    cases hc
    rfl

/-- The code finds exactly the stock script lines, with their indents. -/
theorem content_iff {line : Text} : content line = Script ↔ Loads line := by
  constructor
  · intro h
    refine ⟨(body line).takeWhile is_blank, if line.getLast? = some 13 then [13] else [], ?_, ?_, ?_⟩
    · exact fun c hc => mem_takeWhile_imp hc
    · split
      · exact .inr rfl
      · exact .inl rfl
    · refine ⟨(((body line).dropWhile is_blank).reverse.takeWhile is_blank).reverse, fun c hc => ?_, ?_⟩
      · exact mem_takeWhile_imp (mem_reverse.mp hc)
      · have hback : (body line).dropWhile is_blank =
            Script ++ (((body line).dropWhile is_blank).reverse.takeWhile is_blank).reverse := by
          rw [← h, content, ← reverse_append, takeWhile_append_dropWhile, reverse_reverse]
        have hbody : body line = (body line).takeWhile is_blank ++
            (Script ++ (((body line).dropWhile is_blank).reverse.takeWhile is_blank).reverse) := by
          rw [← hback, takeWhile_append_dropWhile]
        have hline : line = body line ++ if line.getLast? = some 13 then [13] else [] := by
          unfold body
          split
          · rename_i hret
            exact (dropLast_append_getLast? 13 hret).symm
          · exact (append_nil _).symm
        rw [← append_assoc Script, ← append_assoc, ← hbody]
        exact hline
  · rintro ⟨indent, ret, hindent, hret, trail, htrail, rfl⟩
    exact content_of_line script_element hret hindent htrail

instance (line : Text) : Decidable (Loads line) := decidable_of_iff _ content_iff

theorem indent_of_line (h : ScriptLineOf line indent ret) :
    (body line).takeWhile is_blank = indent ∧ (line.getLast? = some 13 ↔ ret = [13]) := by
  obtain ⟨hindent, hret, trail, htrail, rfl⟩ := h
  constructor
  · rw [body_of_line script_element hret htrail, takeWhile_append_of_pos hindent]
    exact append_nil _
  · rcases hret with rfl | rfl
    · rw [append_nil]
      exact ⟨fun h => absurd h (no_return script_element indent htrail), nofun⟩
    rw [line_with_return, List.getLast?_concat]
    exact ⟨fun _ => rfl, fun _ => rfl⟩

/-! ## The loop over the lines -/

variable {x : Text × Bool}

def ending_of (x : Text × Bool) : Text :=
  if x.2 then (if x.1.getLast? = some 13 then crlf else [10]) else crlf

theorem script_line_eq (out : ScriptLine × Nat) (x : Text × Bool) : script_line out x =
    if Loads x.1 then
      ({ count := out.1.count + 1
         next := out.2 + (spell_line x).length
         indent := (body x.1).takeWhile is_blank
         ending := ending_of x }, out.2 + (spell_line x).length)
    else (out.1, out.2 + (spell_line x).length) := by
  have hlength : x.1.length + (if x.2 then 1 else 0) = (spell_line x).length := by
    rw [spell_line, length_append]
    split <;> rfl
  have hbody : (if decide (x.1.getLast? = some 13) = true then x.1.dropLast else x.1) = body x.1 := by
    simp only [decide_eq_true_eq]
    rfl
  unfold script_line
  dsimp only
  rw [hlength, hbody]
  simp only [decide_eq_true_eq, ← content_iff]
  rfl

theorem count_script_lines (l : List (Text × Bool)) (out : ScriptLine × Nat) :
    (l.foldl script_line out).1.count = out.1.count + l.countP fun x => decide (Loads x.1) := by
  induction l generalizing out with
  | nil => rfl
  | cons x l ih =>
    rw [foldl_cons, ih, script_line_eq, countP_cons]
    split
    · rename_i hloads
      rw [if_pos (decide_eq_true hloads)]
      dsimp only
      omega
    rename_i hloads
    rw [if_neg (by rw [decide_eq_false hloads]; exact Bool.false_ne_true)]
    rfl

theorem skip_script_lines {l : List (Text × Bool)} (h : ∀ x ∈ l, ¬Loads x.1) (out : ScriptLine × Nat) :
    l.foldl script_line out = (out.1, out.2 + (spell l).length) := by
  induction l generalizing out with
  | nil => rfl
  | cons x l ih =>
    rw [foldl_cons, script_line_eq, if_neg (h x mem_cons_self),
      ih fun y hy => h y (mem_cons_of_mem _ hy), spell_cons, length_append, Nat.add_assoc]

/-- The only script line of a text, and the lines around it. -/
structure OnlyScript (stock : Text) (before : List (Text × Bool)) (x : Text × Bool)
    (after : List (Text × Bool)) : Prop where
  lines_eq : lines stock = before ++ x :: after
  loads : Loads x.1
  others : ∀ y ∈ before ++ after, ¬Loads y.1

variable {stock : Text}

theorem OnlyScript.script_lines (h : OnlyScript stock before x after) :
    script_lines stock =
      { count := 1
        next := (spell (before ++ [x])).length
        indent := (body x.1).takeWhile is_blank
        ending := ending_of x } := by
  have hbefore : ∀ y ∈ before, ¬Loads y.1 := fun y hy => h.others y (mem_append_left _ hy)
  have hafter : ∀ y ∈ after, ¬Loads y.1 := fun y hy => h.others y (mem_append_right _ hy)
  have hlength : (spell (before ++ [x])).length = (spell before).length + (spell_line x).length := by
    rw [spell_append, length_append, spell_cons, spell_nil, append_nil]
  rw [marks_package.script_lines, h.lines_eq, foldl_append, foldl_cons, skip_script_lines hbefore,
    script_line_eq, if_pos h.loads, skip_script_lines hafter, hlength]
  simp only [Nat.zero_add]

theorem count_one_iff (stock : Text) :
    (script_lines stock).count = 1 ↔ ∃ before x after, OnlyScript stock before x after := by
  constructor
  · intro hcount
    have hcountP : ((lines stock).countP fun x => decide (Loads x.1)) = 1 := by
      rw [script_lines, count_script_lines] at hcount
      dsimp only at hcount
      omega
    have hpos : 0 < (lines stock).countP fun x => decide (Loads x.1) := by omega
    obtain ⟨x, hx, hloads⟩ := countP_pos_iff.mp hpos
    obtain ⟨before, after, hsplit⟩ := append_of_mem hx
    rw [hsplit, countP_append, countP_cons, if_pos hloads] at hcountP
    have hbefore : before.countP (fun x => decide (Loads x.1)) = 0 := by omega
    have hafter : after.countP (fun x => decide (Loads x.1)) = 0 := by omega
    refine ⟨before, x, after, hsplit, of_decide_eq_true hloads, fun y hy hother => ?_⟩
    rcases mem_append.mp hy with hy | hy
    · exact countP_eq_zero.mp hbefore y hy (decide_eq_true hother)
    · exact countP_eq_zero.mp hafter y hy (decide_eq_true hother)
  · rintro ⟨before, x, after, honly⟩
    rw [honly.script_lines]

/-! ## The patched page -/

/-- The helper's script element. -/
def HelperScript : Text :=
  text_of "<script type=\"text/javascript\" src=\"/Pages/VCockpit/Core/" ++ HelperName ++ text_of "\"></script>"

/-- The block that goes in behind the script line. -/
def block_of (x : Text × Bool) : Text :=
  (if x.2 then [] else crlf) ++ ((body x.1).takeWhile is_blank ++ HelperScript ++ ending_of x)

theorem helper_element : Element HelperScript := by
  rw [HelperScript, HelperName, text_of_chars, text_of_chars, text_of_chars]
  exact ⟨rfl, rfl⟩

theorem helper_ne_script : HelperScript ≠ Script := by
  intro h
  rw [HelperScript, HelperName, Script, text_of_chars, text_of_chars, text_of_chars, text_of_chars] at h
  cases congrArg List.length h

theorem helper_named (a b : Text) : HelperName <:+: a ++ HelperScript ++ b := by
  unfold HelperScript
  refine ⟨a ++ text_of "<script type=\"text/javascript\" src=\"/Pages/VCockpit/Core/", text_of "\"></script>" ++ b, ?_⟩
  simp only [append_assoc]

theorem find_none_iff (needle t : Text) : find needle t = none ↔ ¬needle <:+: t := by
  induction t with
  | nil =>
    unfold find
    split
    · rename_i h
      simp [h]
    rename_i h
    simpa using h
  | cons c t ih =>
    unfold find
    rw [infix_cons_iff, ← isPrefixOf_iff_prefix]
    split
    · rename_i h
      simp [h]
    rename_i h
    rw [Option.map_eq_none_iff, ih]
    simp [h]

/-- The line of the helper's script. -/
def helper_line (x : Text × Bool) : Text × Bool :=
  ((body x.1).takeWhile is_blank ++ (HelperScript ++ ([] ++ (ending_of x).dropLast)), true)

/-- The script line of the patched page: one without a line feed gets a carriage return with it. -/
def ended_line (x : Text × Bool) : Text × Bool := (if x.2 then x.1 else x.1 ++ [13], true)

theorem ending_cases (x : Text × Bool) : ending_of x = (ending_of x).dropLast ++ [10] ∧
    ((ending_of x).dropLast = [] ∨ (ending_of x).dropLast = [13]) := by
  unfold ending_of
  split
  · split
    · exact ⟨rfl, .inr rfl⟩
    · exact ⟨rfl, .inl rfl⟩
  · exact ⟨rfl, .inr rfl⟩

/-- The block is the helper's line, and what ends the script line where nothing did. -/
theorem block_spells (x : Text × Bool) :
    spell_line x ++ block_of x = spell_line (ended_line x) ++ spell_line (helper_line x) := by
  obtain ⟨hending, -⟩ := ending_cases x
  have hhelper : spell_line (helper_line x) = (body x.1).takeWhile is_blank ++ HelperScript ++ ending_of x := by
    conv_rhs => rw [hending]
    simp only [spell_line, helper_line, if_pos, nil_append, append_assoc]
  rw [hhelper, block_of]
  cases hended : x.2 with
  | true => simp [spell_line, ended_line, hended]
  | false => simp [spell_line, ended_line, hended, crlf]

theorem blank_indent (line : Text) : ∀ c ∈ (body line).takeWhile is_blank, is_blank c = true :=
  fun _ hc => mem_takeWhile_imp hc

theorem helper_line_feedless (x : Text × Bool) : 10 ∉ (helper_line x).1 := by
  have hindent : 10 ∉ (body x.1).takeWhile is_blank := fun h => by cases blank_indent x.1 10 h
  have helement : 10 ∉ HelperScript := by
    rw [HelperScript, HelperName, text_of_chars, text_of_chars, text_of_chars]
    decide
  have hreturn : 10 ∉ (ending_of x).dropLast := by
    rcases (ending_cases x).2 with h | h <;> rw [h]
    · exact not_mem_nil
    · decide
  simp only [helper_line, mem_append, not_mem_nil, not_or]
  exact ⟨hindent, helement, not_false, hreturn⟩

theorem helper_line_loads (x : Text × Bool) : ¬Loads (helper_line x).1 := by
  intro hloads
  have hcontent := content_of_line helper_element (ending_cases x).2 (blank_indent x.1)
    (fun c (hc : c ∈ []) => absurd hc not_mem_nil)
  rw [← content_iff, helper_line, hcontent] at hloads
  exact helper_ne_script hloads

/-- A script line stays one when it ends, unless it already had its carriage return. -/
theorem ended_line_loads (hloads : Loads x.1) : Loads (ended_line x).1 ↔ ¬(x.2 = false ∧ x.1.getLast? = some 13) := by
  obtain ⟨indent, ret, hindent, hret, trail, htrail, hline⟩ := hloads
  unfold ended_line
  cases hended : x.2 with
  | true => simpa using ⟨indent, ret, hindent, hret, trail, htrail, hline⟩
  | false =>
    rw [if_neg Bool.false_ne_true, ← content_iff]
    rcases hret with rfl | rfl
    · rw [append_nil] at hline
      have hlast := no_return script_element indent htrail
      rw [← hline] at hlast
      have hcontent := content_of_line script_element (.inr rfl) hindent htrail
      rw [line_with_return, ← hline] at hcontent
      simp only [hcontent, hlast, and_false, not_false_iff]
    have hlast : x.1.getLast? = some 13 := by rw [hline, line_with_return, List.getLast?_concat]
    have hbody : body (x.1 ++ [13]) = x.1 := by
      rw [body, List.getLast?_concat, if_pos rfl, dropLast_concat]
    have hcontent : content (x.1 ++ [13]) = Script ++ (trail ++ [13]) := by
      have hopens (c : UInt8) (hc : (Script ++ (trail ++ [13])).head? = some c) : is_blank c = false := by
        rw [List.head?_append, script_element.opens] at hc
        cases hc
        rfl
      have hback : (Script ++ (trail ++ [13])).reverse = 13 :: (Script ++ trail).reverse := by
        rw [← append_assoc, reverse_append]
        rfl
      rw [content, hbody, hline, dropWhile_blanks hindent hopens, hback,
        dropWhile_cons_of_neg (by decide), ← hback, reverse_reverse]
    simp only [hlast, and_self, not_true_eq_false, iff_false]
    intro hsame
    rw [hcontent] at hsame
    have hlength := congrArg List.length hsame
    simp only [length_append, length_singleton] at hlength
    omega

theorem OnlyScript.proper (h : OnlyScript stock before x after) :
    (∀ y ∈ before, 10 ∉ y.1 ∧ y.2 = true) ∧ Proper (x :: after) := by
  have hproper := (lines_spec stock).1
  rwa [h.lines_eq, proper_append (cons_ne_nil _ _)] at hproper

theorem OnlyScript.last (h : OnlyScript stock before x after) (hended : x.2 = false) : after = [] := by
  obtain ⟨line, ended⟩ := x
  subst hended
  exact h.proper.2.2.2

theorem OnlyScript.feedless (h : OnlyScript stock before x after) : 10 ∉ x.1 := by
  obtain ⟨line, ended⟩ := x
  cases ended with
  | true => exact h.proper.2.1
  | false => exact h.proper.2.1

theorem OnlyScript.stock_eq (h : OnlyScript stock before x after) : stock = spell (before ++ [x]) ++ spell after := by
  rw [← spell_append, append_assoc]
  exact ((lines_spec stock).2.symm.trans (congrArg spell h.lines_eq))

/-- The code's test for a page that stops at the script line. -/
theorem OnlyScript.unended_iff (h : OnlyScript stock before x after) :
    ((spell (before ++ [x])).length = stock.length ∧ spell (before ++ [x]) ≠ [] ∧
      (spell (before ++ [x])).getLast? ≠ some 10) ↔ x.2 = false := by
  have hspell : spell (before ++ [x]) = spell before ++ spell_line x := by
    rw [spell_append, spell_cons, spell_nil, append_nil]
  have hne : x.1 ≠ [] := by
    obtain ⟨indent, ret, hindent, hret, trail, htrail, hline⟩ := h.loads
    rw [hline]
    exact append_ne_nil_of_right_ne_nil _ (append_ne_nil_of_left_ne_nil script_element.ne_nil _)
  cases hended : x.2 with
  | true =>
    have hlast : (spell (before ++ [x])).getLast? = some 10 := by
      rw [hspell, spell_line, hended, if_pos rfl, ← append_assoc, List.getLast?_concat]
    simp [hlast]
  | false =>
    have hline : spell_line x = x.1 := by
      rw [spell_line, hended, if_neg Bool.false_ne_true, append_nil]
    refine iff_of_true ⟨?_, ?_, ?_⟩ rfl
    · conv_rhs => rw [h.stock_eq, h.last hended, spell_nil, append_nil]
    · rw [hspell, hline]
      exact append_ne_nil_of_right_ne_nil _ hne
    · rw [hspell, hline, List.getLast?_append_of_ne_nil _ hne]
      exact fun hlast => h.feedless (mem_of_getLast? hlast)

/-- One block goes in behind the script line. -/
theorem patch_page_eq (h : OnlyScript stock before x after) (hnamed : ¬HelperName <:+: stock) :
    patch_page stock = spell (before ++ [x]) ++ block_of x ++ spell after := by
  have htake : stock.take (spell (before ++ [x])).length = spell (before ++ [x]) := by
    rw [h.stock_eq, take_left]
  have hdrop : stock.drop (spell (before ++ [x])).length = spell after := by
    rw [h.stock_eq, drop_left]
  have hending (hended : x.2 = false) : ending_of x = crlf := by
    rw [ending_of, hended, if_neg Bool.false_ne_true]
  unfold patch_page
  rw [if_neg (not_not.mpr ((find_none_iff _ _).mpr hnamed)), h.script_lines]
  dsimp only
  rw [if_neg (not_not.mpr rfl), htake, hdrop]
  cases hended : x.2 with
  | true =>
    have hnot := mt h.unended_iff.mp (by simp [hended])
    rw [if_neg hnot, block_of, hended, if_pos rfl]
    simp only [HelperScript, append_assoc, nil_append]
  | false =>
    rw [if_pos (h.unended_iff.mpr hended), block_of, hended, if_neg Bool.false_ne_true, hending hended]
    simp only [HelperScript, append_assoc]

theorem lines_of_patched (h : OnlyScript stock before x after) :
    lines (spell (before ++ [x]) ++ block_of x ++ spell after) =
      before ++ ended_line x :: helper_line x :: after := by
  have hspell : spell (before ++ [x]) ++ block_of x ++ spell after =
      spell (before ++ ended_line x :: helper_line x :: after) := by
    rw [spell_append, spell_append, spell_cons, spell_nil, append_nil, append_assoc (spell before),
      block_spells, spell_cons, spell_cons]
    simp only [append_assoc]
  have hended : 10 ∉ (ended_line x).1 := by
    unfold ended_line
    split
    · exact h.feedless
    · simpa using h.feedless
  have hafter : Proper after := by
    obtain ⟨line, ended⟩ := x
    cases ended with
    | true => exact h.proper.2.2
    | false =>
      rw [h.last rfl]
      trivial
  rw [hspell, lines_spell]
  rw [proper_append (cons_ne_nil _ _)]
  exact ⟨h.proper.1, hended, helper_line_feedless x, hafter⟩

/-- The patched page loads the script by the line of the stock page. -/
theorem patched_loads (h : OnlyScript stock before x after) :
    loads_script (spell (before ++ [x]) ++ block_of x ++ spell after) = true ↔
      ¬(x.2 = false ∧ x.1.getLast? = some 13) := by
  have hcount (l : List (Text × Bool)) (hl : ∀ y ∈ l, ¬Loads y.1) : (l.countP fun y => decide (Loads y.1)) = 0 :=
    countP_eq_zero.mpr fun y hy hloads => hl y hy (of_decide_eq_true hloads)
  rw [loads_script, script_lines, count_script_lines, lines_of_patched h, countP_append,
    hcount before fun y hy => h.others y (mem_append_left _ hy), countP_cons, countP_cons,
    hcount after fun y hy => h.others y (mem_append_right _ hy),
    if_neg (by simpa using helper_line_loads x), ← ended_line_loads h.loads]
  by_cases hended : Loads (ended_line x).1
  · simp [hended]
  · simp [hended]

/-! ## What patching promises -/

/-- Patching as it should be: the page has, behind the line of the script, the line of the helper's
script with the same indent, and is otherwise the stock page. -/
structure Inserted (stock page : Text) (before : List (Text × Bool)) (x : Text × Bool)
    (after : List (Text × Bool)) (block : Text) : Prop where
  stock_eq : stock = spell (before ++ [x]) ++ spell after
  page_eq : page = spell (before ++ [x]) ++ block ++ spell after
  lines_eq : ∃ indent ret ending, ScriptLineOf x.1 indent ret ∧ (ending = [] ∨ ending = [13]) ∧
    lines page = before ++ ended_line x :: (indent ++ HelperScript ++ ending, true) :: after

/-- What patching a page promises. -/
structure Safe (stock : Text) : Prop where
  patches_iff : patch_page stock ≠ [] ↔
    ¬HelperName <:+: stock ∧ ∃ before x after, OnlyScript stock before x after
  inserted : patch_page stock ≠ [] → ∃ before x after block, OnlyScript stock before x after ∧
    Inserted stock (patch_page stock) before x after block
  loads : patch_page stock ≠ [] → loads_script (patch_page stock) = true
  settled : patch_page stock ≠ [] → patch_page (patch_page stock) = []

/-- The script's line is the last one, has no line feed, and ends in a carriage return. -/
def EndsBare (stock : Text) : Prop :=
  ¬HelperName <:+: stock ∧
    ∃ before line, OnlyScript stock before (line, false) [] ∧ line.getLast? = some 13

theorem patch_page_named (h : HelperName <:+: stock) : patch_page stock = [] := by
  unfold patch_page
  rw [if_pos (mt (find_none_iff _ _).mp (not_not.mpr h))]

theorem patch_page_of_count (h : (script_lines stock).count ≠ 1) : patch_page stock = [] := by
  unfold patch_page
  rw [if_pos h]
  split <;> rfl

theorem patch_page_ne_nil_iff (stock : Text) : patch_page stock ≠ [] ↔
    ¬HelperName <:+: stock ∧ ∃ before x after, OnlyScript stock before x after := by
  constructor
  · intro hne
    exact ⟨fun hnamed => hne (patch_page_named hnamed),
      (count_one_iff stock).mp (Decidable.not_not.mp fun hcount => hne (patch_page_of_count hcount))⟩
  · rintro ⟨hnamed, before, x, after, honly⟩
    have hblock : block_of x ≠ [] := by
      rw [block_of, append_assoc]
      exact append_ne_nil_of_right_ne_nil _ (append_ne_nil_of_right_ne_nil _
        (append_ne_nil_of_left_ne_nil helper_element.ne_nil _))
    rw [patch_page_eq honly hnamed]
    exact append_ne_nil_of_left_ne_nil (append_ne_nil_of_right_ne_nil _ hblock) _

theorem patch_page_inserted (h : OnlyScript stock before x after) (hnamed : ¬HelperName <:+: stock) :
    Inserted stock (patch_page stock) before x after (block_of x) := by
  have hlines := lines_of_patched h
  rw [← patch_page_eq h hnamed] at hlines
  obtain ⟨indent, ret, hline⟩ := h.loads
  refine ⟨h.stock_eq, patch_page_eq h hnamed, indent, ret, (ending_of x).dropLast, hline, (ending_cases x).2, ?_⟩
  rw [hlines, helper_line, (indent_of_line hline).1, nil_append, append_assoc]

theorem patch_page_settled (h : OnlyScript stock before x after) (hnamed : ¬HelperName <:+: stock) :
    patch_page (patch_page stock) = [] := by
  refine patch_page_named ?_
  have hpage : patch_page stock = (spell (before ++ [x]) ++ ((if x.2 then [] else crlf) ++
      (body x.1).takeWhile is_blank)) ++ HelperScript ++ (ending_of x ++ spell after) := by
    rw [patch_page_eq h hnamed, block_of]
    simp only [append_assoc]
  rw [hpage]
  exact helper_named _ _

/-- Every page is patched as it should be, unless its only script line ends the page with a carriage
return and no line feed. -/
theorem pages_patch_safely (stock : Text) : Safe stock ↔ ¬EndsBare stock := by
  constructor
  · rintro hsafe ⟨hnamed, before, line, honly, hreturn⟩
    have hloads := hsafe.loads ((patch_page_ne_nil_iff stock).mpr ⟨hnamed, _, _, _, honly⟩)
    rw [patch_page_eq honly hnamed, patched_loads honly] at hloads
    exact hloads ⟨rfl, hreturn⟩
  · intro hbare
    refine ⟨patch_page_ne_nil_iff stock, fun hne => ?_, fun hne => ?_, fun hne => ?_⟩
    · obtain ⟨hnamed, before, x, after, honly⟩ := (patch_page_ne_nil_iff stock).mp hne
      exact ⟨before, x, after, block_of x, honly, patch_page_inserted honly hnamed⟩
    · obtain ⟨hnamed, before, ⟨line, ended⟩, after, honly⟩ := (patch_page_ne_nil_iff stock).mp hne
      rw [patch_page_eq honly hnamed, patched_loads honly]
      rintro ⟨hended, hreturn⟩
      subst hended
      have hlast := honly.last rfl
      subst hlast
      exact hbare ⟨hnamed, before, line, honly, hreturn⟩
    · obtain ⟨hnamed, before, x, after, honly⟩ := (patch_page_ne_nil_iff stock).mp hne
      exact patch_page_settled honly hnamed

/-- A page that is the script line with a carriage return at its end no longer loads the script. -/
theorem a_bare_return_hides_the_script : ¬Safe (Script ++ [13]) := by
  intro hsafe
  have hne : patch_page (Script ++ [13]) ≠ [] := by decide +kernel
  exact absurd (hsafe.loads hne) (by decide +kernel)

end taxi_camera.standalone.marks_package
