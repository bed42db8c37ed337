-- The JSON reader as a whole: it ends for every text, and accepts exactly the texts of
-- lawful values, as those values.
import TaxiCam.JsonAccepts

namespace taxi_camera.standalone.json.detail

open readers text_escapes utf8_texts List
open json_grammar hiding Text Value is_digit
open Reader (fail unfinished)
open Reader (bind_of_ok bind_ok bind_unfinished)

/-! ## Reading ends -/

theorem hex4_finishes : Finishes hex4 := by
  intro text h
  unfold hex4 at h
  split at h <;> cases h

theorem escape_finishes : Finishes escape := by
  have hliteral (word : Text) : Finishes (literal word) := by
    intro text h
    unfold literal at h
    split at h <;> cases h
  have hlow (high : Nat) : Finishes (low_surrogate high) := by
    refine .bind (hliteral _) fun _ => .bind hex4_finishes fun low => ?_
    split
    · exact .fail _
    · exact .pure _
  have hcode : Finishes code_point := by
    refine .bind hex4_finishes fun cp => ?_
    split
    · exact hlow cp
    split
    · exact .fail _
    · exact .pure _
  intro text h
  unfold escape at h
  split at h
  · cases h
  split at h
  · cases h
  split at h
  · cases h
  · exact hcode.bind (fun _ => .pure _) _ h

theorem digits_finishes : Finishes digits := by
  intro text h
  unfold digits at h
  split at h <;> cases h

theorem token_finishes : Finishes token := by
  have hsign : Finishes sign := by
    intro text h
    unfold sign at h
    split at h
    · cases h
    · split at h <;> cases h
  have hinteger : Finishes integer := by
    intro text h
    unfold integer at h
    split at h
    · cases h
    · exact digits_finishes _ h
  have hfraction : Finishes fraction := by
    intro text h
    unfold fraction at h
    split at h
    · exact digits_finishes.bind (fun _ => .pure _) _ h
    · cases h
  have hexponent : Finishes exponent := by
    intro text h
    unfold exponent at h
    split at h
    · cases h
    split at h
    · exact hsign.bind (fun _ => digits_finishes.bind fun _ => .pure _) _ h
    · cases h
  refine .bind (fun text h => ?_) fun _ => hinteger.bind fun _ => hfraction.bind fun _ => hexponent.bind fun _ => .pure _
  unfold minus at h
  split at h <;> cases h

theorem next_character_finishes : Finishes next_character := by
  intro text h
  unfold next_character at h
  split at h <;> cases h

variable {δ : Type} {host : Host δ} {turns bound : Nat}
variable {body mark rest text : Text} {tree : Tree}

theorem string_loop_ends {out : Text} (h : text.length < turns) : string_loop host turns out text ≠ .unfinished := by
  induction turns generalizing out text with
  | zero => cases h
  | succ turns ih =>
    intro hloop
    cases text with
    | nil => cases hloop
    | cons c rest =>
      rw [length_cons] at h
      rw [string_loop_turn] at hloop
      split at hloop
      · split at hloop <;> cases hloop
      split at hloop
      · cases hloop
      split at hloop
      · exact ih (Nat.lt_of_succ_lt_succ h) hloop
      rcases bind_unfinished hloop with hescape | ⟨bytes, middle, hescape, hlater⟩
      · exact escape_finishes _ hescape
      obtain ⟨used, rfl, -⟩ := escape_reads rest.length _ _ _ (Nat.le_refl _) hescape
      rw [length_append] at h
      exact ih (by omega) hlater

theorem string_ends (hturns : bound < turns) : Ends bound (string host turns) := by
  intro text htext h
  unfold string at h
  split at h
  · cases h
  rename_i c rest
  split at h
  · cases h
  · exact string_loop_ends (Nat.lt_of_le_of_lt (Nat.le_trans (Nat.le_succ _) htext) hturns) h

theorem scalar_ends (hturns : bound < turns) : Ends bound (scalar host turns) := by
  intro text htext h
  unfold scalar at h
  split at h
  · rcases bind_unfinished h with h | ⟨_, _, _, h⟩
    · exact string_ends hturns _ htext h
    · cases h
  split at h
  · cases h
  split at h
  · cases h
  split at h
  · cases h
  refine token_finishes.bind (fun text => ?_) _ h
  split
  · exact .pure _
  · exact .fail _

section
variable {τ β : Type} {f : τ → β} {Part : τ → Text → Prop} {I : List β → Prop} {closing : UInt8}
  {part : List β → Read (List β)}

theorem parts_ends (hpart : ReadsPart bound f Part I part) (hsome : ∀ t inner, Part t inner → inner ≠ [])
    (hends : ∀ parsed, Ends bound (part parsed)) {parsed : List β} (hparsed : I parsed) {text : Text}
    (htext : text.length ≤ bound) (hturns : text.length < turns) : parts closing part turns parsed text ≠ .unfinished := by
  induction turns generalizing parsed text with
  | zero => cases hturns
  | succ turns ih =>
    intro h
    rcases bind_unfinished h with hfirst | ⟨result, middle, hone, hmore⟩
    · exact hends parsed text htext hfirst
    obtain ⟨used, rfl, before, inner, t, -, rfl, ht, -, hresult⟩ := hpart parsed hparsed _ _ _ htext hone
    rcases bind_unfinished hmore with hnext | ⟨c, later, hnext, hlast⟩
    · exact next_character_finishes _ hnext
    simp only [length_append] at htext hturns
    obtain ⟨used, rfl, -⟩ := next_character_reads middle.length _ _ _ (Nat.le_refl _) hnext
    have hinner := length_pos_of_ne_nil (hsome t inner ht)
    rw [length_append] at htext hturns
    split at hlast
    · exact ih hresult (by omega) (by omega) hlast
    · split at hlast <;> cases hlast

theorem container_ends (hpart : ReadsPart bound f Part I part) (hsome : ∀ t inner, Part t inner → inner ≠ [])
    (hends : ∀ parsed, Ends bound (part parsed)) (hnone : I []) (hturns : bound < turns) :
    Ends bound (container turns closing part) := by
  intro text htext h
  have hspace := Nat.le_trans (length_space text) htext
  unfold container at h
  split at h
  · cases h
  · exact parts_ends hpart hsome hends hnone hspace (Nat.lt_of_le_of_lt hspace hturns) h

end

theorem member_ends (hhost : Documented host) (hbound : bound < 0x80000000) (hturns : bound < turns) {r : Read (Value δ)}
    (hr : Ends bound r) (parsed : List (Text × Value δ)) : Ends bound (member host turns r parsed) := by
  intro text htext h
  rcases bind_unfinished h with hkey | ⟨name, middle, hname, hmore⟩
  · exact string_ends hturns _ (Nat.le_trans (length_space text) htext) hkey
  obtain ⟨used, rfl, -⟩ := key_reads hhost hbound _ _ _ htext hname
  split at hmore
  · cases hmore
  rcases bind_unfinished hmore with hcolon | ⟨colon, later, hcolon, hvalue⟩
  · exact next_character_finishes _ hcolon
  obtain ⟨between, rfl, -⟩ := next_character_reads middle.length _ _ _ (Nat.le_refl _) hcolon
  simp only [length_append] at htext
  split at hvalue
  · cases hvalue
  rcases bind_unfinished hvalue with hlast | ⟨_, _, _, hlast⟩
  · exact hr _ (by omega) hlast
  · cases hlast

theorem value_ends (hhost : Documented host) (hbound : bound < 0x80000000) (hturns : bound < turns) (levels : Nat) :
    Ends bound (value host turns levels) := by
  induction levels with
  | zero =>
    intro text htext h
    have hlength := Nat.le_trans (length_space text) htext
    unfold value at h
    split at h
    · cases h
    rename_i c later hspace
    rw [hspace] at hlength
    split at h
    · cases h
    · exact scalar_ends hturns _ hlength h
  | succ levels ih =>
    have hvalue : ReadsValue bound levels host (value host turns levels) := value_reads hhost hbound levels
    have harray : Ends bound (container turns 93 (item (value host turns levels))) := by
      refine container_ends (item_reads hvalue) (fun t inner ht => ?_) (fun parsed text htext h => ?_) trivial hturns
      · obtain ⟨c, later, rfl, -⟩ := value_head ht.spelling
        exact cons_ne_nil _ _
      · rcases bind_unfinished h with hvalue | ⟨_, _, _, h⟩
        · exact ih _ htext hvalue
        · cases h
    have hobject : Ends bound (container turns 125 (member host turns (value host turns levels))) := by
      refine container_ends (member_reads hhost hbound hvalue) (fun t inner ht => ?_) (member_ends hhost hbound hturns ih)
        nodup_nil hturns
      cases ht.spelling with
      | named _ _ _ _ => exact cons_ne_nil _ _
    intro text htext h
    have hlength := Nat.le_trans (length_space text) htext
    unfold value at h
    split at h
    · cases h
    rename_i c later hspace
    rw [hspace] at hlength
    have hlater : later.length ≤ bound := Nat.le_trans (Nat.le_succ _) hlength
    split at h
    · rcases bind_unfinished h with hmembers | ⟨_, _, _, h⟩
      · exact hobject _ hlater hmembers
      · cases h
    split at h
    · rcases bind_unfinished h with hitems | ⟨_, _, _, h⟩
      · exact harray _ hlater hitems
      · cases h
    · exact scalar_ends hturns _ hlength h

/-! ## Whole texts -/

/-- The bytes are UTF-8 and a text of JSON, whose tree keeps what the reader asks of it. -/
structure Accepted (body : Text) (tree : Tree) : Prop where
  utf8 : Utf8 body
  spelling : JsonText tree body
  depth : tree.NestedWithin MaxDepth
  keys : tree.Everywhere Tree.UniqueKeys
  surrogates : tree.Everywhere Tree.PairedSurrogates
  numbers : tree.Everywhere Tree.FiniteNumber

theorem everywhere_lawful : tree.Everywhere Lawful ↔ tree.Everywhere Tree.UniqueKeys ∧
    tree.Everywhere Tree.PairedSurrogates ∧ tree.Everywhere Tree.FiniteNumber ∧ tree.Everywhere Tree.Utf8Strings := by
  rw [← Tree.everywhere_and, ← Tree.everywhere_and, ← Tree.everywhere_and]
  rfl

theorem finish_reads (h : finish text = .ok () rest) : Space text ∧ rest = [] := by
  unfold finish at h
  split at h
  · rename_i hspace
    cases h
    refine ⟨?_, rfl⟩
    have hsplit : space text = [] ++ [] := hspace
    rw [space_split hsplit, append_nil, append_nil]
    exact space_of_takeWhile text
  · cases h

theorem finish_of (h : Space text) : finish text = .ok () [] := by
  have hspace : space (text ++ []) = space [] := dropWhile_append_of_pos (space_iff.mp h)
  rw [append_nil] at hspace
  unfold finish
  rw [hspace]
  rfl

/-- What stands behind a whole text is not looked at: there is nothing. -/
theorem document_reads (hhost : Documented host) (hbound : bound < 0x80000000) {v : Value δ}
    (htext : text.length ≤ bound) (h : document host turns text = .ok v rest) :
    ∃ tree, Accepted text tree ∧ assigned host.strtod tree = v := by
  obtain ⟨value, middle, hvalue, hmore⟩ := bind_ok h
  obtain ⟨_, last, hfinish, hpure⟩ := bind_ok hmore
  cases hpure
  obtain ⟨used, rfl, before, inner, tree, hbefore, rfl, htree, rfl⟩ := value_reads hhost hbound MaxDepth _ _ _ htext hvalue
  obtain ⟨hafter, -⟩ := finish_reads hfinish
  obtain ⟨hkeys, hsurrogates, hnumbers, hstrings⟩ := everywhere_lawful.mp htree.lawful
  refine ⟨tree, ⟨?_, ⟨before, inner, middle, hbefore, htree.spelling, hafter, rfl⟩, htree.nested, hkeys, hsurrogates,
    hnumbers⟩, rfl⟩
  rw [utf8_padded hbefore hafter]
  exact (utf8_value htree.nested htree.spelling).mpr hstrings

theorem stops_of_space (h : Space text) : Stops text := by
  intro c hc
  rcases h c (mem_of_mem_head? hc) with rfl | rfl | rfl | rfl <;> decide

theorem document_of (hhost : Documented host) (hbound : bound < 0x80000000) (hturns : bound < turns) (htext : text.length ≤ bound) (h : Accepted text tree) :
    document host turns text = .ok (assigned host.strtod tree) [] := by
  obtain ⟨before, inner, after, hbefore, hvalue, hafter, rfl⟩ := h.spelling
  have hutf8 := h.utf8
  rw [utf8_padded hbefore hafter, utf8_value h.depth hvalue] at hutf8
  have htree : Spelled MaxDepth tree inner :=
    ⟨hvalue, h.depth, everywhere_lawful.mpr ⟨h.keys, h.surrogates, h.numbers, hutf8⟩⟩
  have hread := value_of hhost hbound hturns MaxDepth tree before inner after htree hbefore (stops_of_space hafter) htext
  unfold document
  rw [bind_of_ok hread, bind_of_ok (finish_of hafter)]
  rfl

theorem length_strip_bom (text : Text) : (strip_bom text).length ≤ text.length := by
  unfold strip_bom
  split
  · rw [length_drop]
    exact Nat.sub_le _ _
  · exact Nat.le_refl _

theorem strip_bom_splits (text : Text) : ∃ mark, (mark = [] ∨ mark = bom) ∧ text = mark ++ strip_bom text := by
  unfold strip_bom
  split
  · rename_i hbom
    obtain ⟨later, rfl⟩ := isPrefixOf_iff_prefix.mp hbom
    exact ⟨bom, .inr rfl, rfl⟩
  · exact ⟨[], .inl rfl, rfl⟩

/-- A text of JSON does not start with a byte-order mark, so one in front of it is taken off. -/
theorem strip_mark (hmark : mark = [] ∨ mark = bom) (h : JsonText tree body) : strip_bom (mark ++ body) = body := by
  unfold strip_bom
  rcases hmark with rfl | rfl
  · refine if_neg fun hbom => ?_
    obtain ⟨later, hlater⟩ := isPrefixOf_iff_prefix.mp hbom
    obtain ⟨before, inner, after, hbefore, hvalue, -, rfl⟩ := h
    cases before with
    | nil =>
      obtain ⟨c, more, rfl, -, ⟨-, -, hmark⟩, -⟩ := value_head hvalue
      exact hmark (cons.inj hlater).1.symm
    | cons c before =>
      have hc := hbefore c (.head _)
      cases (cons.inj hlater).1
      revert hc
      decide
  rfl

/-- Numbers that are their tokens, and a character for every byte of a text that is UTF-8. -/
def plain_host : Host Text where
  strtod := fun token => token
  isfinite := in_range
  multi_byte_to_wide_char := fun text count => if Utf8 (text.take count.toNat) then count else 0

theorem plain_host_documented : Documented plain_host := by
  refine ⟨fun token _ => by simp only [plain_host], fun text hsome _ => ?_⟩
  have hpos := length_pos_of_ne_nil hsome
  change (if Utf8 (text.take (text.length : Int).toNat) then (text.length : Int) else 0) > 0 ↔ Utf8 text
  rw [Int.toNat_natCast, take_length]
  split
  · rename_i hutf8
    exact iff_of_true (by omega) hutf8
  rename_i hutf8
  exact iff_of_false (by omega) hutf8

theorem document_ends (hhost : Documented host) (hbound : bound < 0x80000000) (hturns : bound < turns) :
    Ends bound (document host turns) := by
  intro text htext h
  rcases bind_unfinished h with hvalue | ⟨_, _, _, hmore⟩
  · exact value_ends hhost hbound hturns MaxDepth _ htext hvalue
  rcases bind_unfinished hmore with hfinish | ⟨_, _, _, hpure⟩
  · unfold finish at hfinish
    split at hfinish <;> cases hfinish
  · cases hpure

/-- A text is read with a byte-order mark in front of it or without. -/
theorem parse_marked (hhost : Documented host) (hmark : mark = [] ∨ mark = bom)
    (h : Accepted body tree) (hshort : (mark ++ body).length < 0x80000000) (out : Value δ) :
    parse host (mark ++ body) out = some (true, assigned host.strtod tree) := by
  have hlength := length_strip_bom (mark ++ body)
  have hstrip := strip_mark hmark h.spelling
  rw [hstrip] at hlength
  unfold parse
  rw [hstrip, document_of hhost hshort (Nat.lt_succ_self _) hlength h]

/-- What is accepted is a text of the grammar. -/
theorem parse_accepted (hhost : Documented host) (hshort : text.length < 0x80000000) {v out : Value δ}
    (h : parse host text out = some (true, v)) :
    ∃ mark body tree, (mark = [] ∨ mark = bom) ∧ text = mark ++ body ∧ Accepted body tree ∧ assigned host.strtod tree = v := by
  unfold parse at h
  split at h
  · rename_i parsed rest hread
    cases h
    obtain ⟨tree, htree, rfl⟩ := document_reads hhost hshort (length_strip_bom text) hread
    obtain ⟨mark, hmark, htext⟩ := strip_bom_splits text
    exact ⟨mark, strip_bom text, tree, hmark, htext, htree, rfl⟩
  · cases h
  · cases h

end taxi_camera.standalone.json.detail
