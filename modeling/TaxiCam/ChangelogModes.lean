-- The two ways to read the notes: what the strict one accepts the lenient one accepts
-- with the same releases, both keep the limits and the order, and both end.
import TaxiCam.Changelog

namespace taxi_camera.standalone.changelog

open readers text_escapes List
open Reader (fail unfinished)
open Takes (bind)

variable {host : Host} {mode : ChangelogParse} {σ : Type} {member member' : σ → Text → Read σ}
  {item item' : σ → Read σ} {s : σ} {turns : Nat}

/-! ## Strict and lenient -/

theorem members_refines (h : ∀ s key, Refines (member s key) (member' s key)) (turns : Nat) (s : σ) :
    Refines (members host member turns s) (members host member' turns s) := by
  induction turns generalizing s with
  | zero => exact .refl _
  | succ turns ih =>
    exact .bind (.refl _) fun key => .bind (.refl _) fun _ => .bind (h s key) fun s =>
      .bind (.refl _) fun more => .ite (ih s) (.refl _)

theorem object_refines (h : ∀ s key, Refines (member s key) (member' s key)) (s : σ) :
    Refines (object host member s) (object host member' s) :=
  .bind (.refl _) fun _ => .bind (.refl _) fun _ => .ite (.refl _) (members_refines h _ s)

theorem items_refines (h : ∀ s, Refines (item s) (item' s)) (turns : Nat) (s : σ) :
    Refines (items item turns s) (items item' turns s) := by
  induction turns generalizing s with
  | zero => exact .refl _
  | succ turns ih =>
    exact .bind (h s) fun s => .bind (.refl _) fun more => .ite (ih s) (.refl _)

theorem array_refines (h : ∀ s, Refines (item s) (item' s)) (s : σ) :
    Refines (array host item s) (array host item' s) :=
  .bind (.refl _) fun _ => .bind (.refl _) fun _ => .ite (.refl _) (items_refines h _ s)

theorem unknown_refines (message : String) : Refines (unknown host .strict message) (unknown host .lenient message) :=
  .fail message

theorem feature_refines (features : List ChangelogFeature) :
    Refines (feature host .strict features) (feature host .lenient features) := by
  have hmember (s : FeatureFields) (key : Text) :
      Refines (feature_member host .strict s key) (feature_member host .lenient s key) :=
    .ite (.refl _) (.ite (.refl _) (.ite (.refl _) (.bind (unknown_refines _) fun _ => .refl _)))
  exact .ite (.refl _) (.bind (object_refines hmember _) fun _ => .refl _)

theorem release_refines (parsed : List ChangelogRelease) :
    Refines (release host .strict parsed) (release host .lenient parsed) := by
  have hmember (s : ReleaseFields) (key : Text) :
      Refines (release_member host .strict s key) (release_member host .lenient s key) :=
    .ite (.refl _) (.ite (.refl _) (.ite (.bind (array_refines feature_refines _) fun _ => .refl _)
      (.ite (.refl _) (.ite (.refl _) (.bind (unknown_refines _) fun _ => .refl _)))))
  exact .ite (.refl _) (.bind (object_refines hmember _) fun _ => .refl _)

theorem top_refines (s : ChangelogFields) (key : Text) :
    Refines (top_member host .strict s key) (top_member host .lenient s key) :=
  .ite (.bind (.ite (.refl _) (unknown_refines _)) fun _ => .refl _)
    (.bind (array_refines release_refines _) fun _ => .refl _)

variable {parsed : List ChangelogRelease} {rest text : Text} {p : σ → Prop}

theorem read_changelog_refines (h : read_changelog host .strict text = .ok parsed rest) : read_changelog host .lenient text = .ok parsed rest := by
  unfold read_changelog at h ⊢
  split at h
  · cases h
  rename_i hsize
  rw [if_neg hsize]
  exact Refines.bind (object_refines top_refines _) (fun _ => .refl _) _ _ _ h

/-! ## What is accepted -/

theorem members_gives (h : ∀ s key, p s → Gives (member s key) p) (turns : Nat) {s : σ} (hs : p s) :
    Gives (members host member turns s) p := by
  induction turns generalizing s with
  | zero => exact nofun
  | succ turns ih =>
    refine .bind_any fun key => .bind_any fun _ => .bind (h s key hs) fun s hs => .bind_any fun more => ?_
    split
    · exact ih hs
    · exact .bind_any fun _ => .pure hs

theorem object_gives (h : ∀ s key, p s → Gives (member s key) p) {s : σ} (hs : p s) :
    Gives (object host member s) p := by
  refine .bind_any fun _ => .bind_any fun empty => ?_
  split
  · exact .pure hs
  · exact members_gives h _ hs

theorem items_gives (h : ∀ s, p s → Gives (item s) p) (turns : Nat) {s : σ} (hs : p s) :
    Gives (items item turns s) p := by
  induction turns generalizing s with
  | zero => exact nofun
  | succ turns ih =>
    refine .bind (h s hs) fun s hs => .bind_any fun more => ?_
    split
    · exact ih hs
    · exact .bind_any fun _ => .pure hs

theorem array_gives (h : ∀ s, p s → Gives (item s) p) {s : σ} (hs : p s) : Gives (array host item s) p := by
  refine .bind_any fun _ => .bind_any fun empty => ?_
  split
  · exact .pure hs
  · exact items_gives h _ hs

theorem notes_gives {out : List Text} (hout : out.length ≤ kChangelogMaxChanges) :
    Gives (notes host out) fun out => out.length ≤ kChangelogMaxChanges := by
  refine array_gives (fun out _ => ?_) hout
  unfold note
  split
  · exact .fail _
  rename_i hroom
  refine .bind_any fun value => ?_
  split
  · exact .fail _
  refine .pure ?_
  rw [length_append, length_singleton]
  omega

theorem feature_gives (features : List ChangelogFeature) :
    Gives (feature host mode features) fun features => features.length ≤ kChangelogMaxFeatures := by
  unfold feature
  split
  · exact .fail _
  rename_i hroom
  refine .bind_any fun s => ?_
  split
  · exact .fail _
  refine .pure ?_
  rw [length_append, length_singleton]
  omega

/-- No more notes than a release may have. -/
structure WithinLimits (r : ChangelogRelease) : Prop where
  features : r.features.length ≤ kChangelogMaxFeatures
  fixes : r.fixes.length ≤ kChangelogMaxChanges
  changes : r.changes.length ≤ kChangelogMaxChanges

theorem release_member_gives (s : ReleaseFields) (key : Text) (h : WithinLimits s.entry) :
    Gives (release_member host mode s key) fun s => WithinLimits s.entry := by
  unfold release_member
  split
  · refine .bind_any fun value => ?_
    split
    · exact .pure ⟨h.features, h.fixes, h.changes⟩
    · exact .fail _
  split
  · refine .bind_any fun date => ?_
    split
    · exact .pure ⟨h.features, h.fixes, h.changes⟩
    · exact .fail _
  split
  · exact .bind (array_gives (fun features _ => feature_gives features) h.features)
      fun features hfeatures => .pure ⟨hfeatures, h.fixes, h.changes⟩
  split
  · exact .bind (notes_gives h.fixes) fun fixes hfixes => .pure ⟨h.features, hfixes, h.changes⟩
  split
  · exact .bind (notes_gives h.changes) fun changes hchanges => .pure ⟨h.features, h.fixes, hchanges⟩
  · exact .bind_any fun _ => .pure h

/-- Releases within their limits, the newest first. -/
structure Accepted (parsed : List ChangelogRelease) : Prop where
  count : parsed.length ≤ kChangelogMaxReleases
  descending : parsed.Pairwise fun a b => b.version.older a.version
  limits : ∀ r ∈ parsed, WithinLimits r

theorem older_trans {a b c : ChangelogVersion} (hab : a.older b) (hbc : b.older c) : a.older c := by
  unfold ChangelogVersion.older at *
  omega

/-- A release older than the last one is older than all. -/
theorem Accepted.snoc {entry : ChangelogRelease} (h : Accepted parsed)
    (hroom : parsed.length < kChangelogMaxReleases) (hentry : WithinLimits entry)
    (hlast : ∀ last, parsed.getLast? = some last → entry.version.older last.version) : Accepted (parsed ++ [entry]) := by
  refine ⟨?_, pairwise_append.mpr ⟨h.descending, pairwise_singleton .., fun a ha b hb => ?_⟩, fun r hr => ?_⟩
  · rw [length_append, length_singleton]
    exact hroom
  · rw [mem_singleton.mp hb]
    cases hend : parsed.getLast? with
    | none =>
      rw [List.getLast?_eq_none_iff.mp hend] at ha
      exact absurd ha not_mem_nil
    | some last =>
      have hsplit := (dropLast_append_getLast? last hend).symm
      have hdescending := h.descending
      rw [hsplit, pairwise_append] at hdescending
      rw [hsplit] at ha
      rcases mem_append.mp ha with ha | ha
      · exact older_trans (hlast last hend) (hdescending.2.2 a ha last (mem_singleton.mpr rfl))
      rw [mem_singleton.mp ha]
      exact hlast last hend
  · rcases mem_append.mp hr with hr | hr
    · exact h.limits r hr
    rw [mem_singleton.mp hr]
    exact hentry

theorem release_gives (h : Accepted parsed) : Gives (release host mode parsed) Accepted := by
  unfold release
  split
  · exact .fail _
  rename_i hroom
  have hstart : WithinLimits ({} : ReleaseFields).entry := ⟨Nat.zero_le _, Nat.zero_le _, Nat.zero_le _⟩
  refine .bind (object_gives release_member_gives hstart) fun s hs => ?_
  split
  · exact .fail _
  split
  · exact .fail _
  rename_i horder
  refine .pure (h.snoc (Nat.lt_of_not_le hroom) hs fun last hlast => ?_)
  rw [hlast] at horder
  simpa using horder

theorem read_changelog_gives (h : read_changelog host mode text = .ok parsed rest) : Accepted parsed := by
  have htop (s : ChangelogFields) (key : Text) (hs : Accepted s.parsed) :
      Gives (top_member host mode s key) fun s => Accepted s.parsed := by
    unfold top_member
    split
    · exact .bind_any fun _ => .pure hs
    · exact .bind (array_gives (fun _ h => release_gives h) hs) fun parsed hparsed => .pure hparsed
  have hstart : Accepted ({} : ChangelogFields).parsed :=
    ⟨Nat.zero_le _, List.Pairwise.nil, fun r hr => absurd hr not_mem_nil⟩
  unfold read_changelog at h
  split at h
  · cases h
  refine Gives.bind (object_gives htop hstart) (fun s hs => .bind_any fun _ => ?_) _ _ _ h
  split
  · exact .fail _
  · exact .pure hs

/-! ## Progress -/

theorem take_takes (c : UInt8) : Takes (take c) 0 := by
  intro text found rest h
  have hspace := length_space text
  unfold take at h
  split at h
  · cases h
    exact Nat.zero_le _
  rename_i x later hsome
  rw [hsome, length_cons] at hspace
  split at h
  · cases h
    omega
  cases h
  rw [length_cons]
  omega

theorem expect_takes (c : UInt8) (message : String) : Takes (expect c message) 1 := by
  intro text _ rest h
  obtain ⟨found, middle, hfound, hrest⟩ := Reader.bind_ok h
  cases found with
  | false => cases hrest
  | true =>
    cases hrest
    have hspace := length_space text
    unfold take at hfound
    split at hfound
    · cases hfound
    rename_i x later hsome
    rw [hsome, length_cons] at hspace
    split at hfound
    · cases hfound
      exact hspace
    · cases hfound

theorem escape_takes : Takes escape 0 := by
  intro text bytes rest h
  unfold escape at h
  split at h
  · cases h
  rename_i e later
  rw [length_cons]
  split at h
  · cases h
    omega
  split at h
  · cases h
  split at h
  · cases h
  rename_i cp after hhex
  have hhigh := length_hex_digits hhex
  split at h
  · cases h
  split at h
  · split at h
    · rename_i low_digits
      split at h
      · cases h
      rename_i low after_low hlow
      have hlength := length_hex_digits hlow
      rw [length_cons, length_cons] at hhigh
      split at h
      · cases h
      obtain ⟨-, rfl⟩ := Outcome.ok.inj h
      omega
    · cases h
  obtain ⟨-, rfl⟩ := Outcome.ok.inj h
  omega

/-- The two ways to read a character of a string. -/
theorem added_takes (c : UInt8) : Takes (if c ≠ 92 then pure [c] else escape : Read Text) 0 := by
  split
  · exact .pure _
  · exact escape_takes

theorem string_loop_takes (limit turns : Nat) (out : Text) : Takes (string_loop host limit turns out) 0 := by
  induction turns generalizing out with
  | zero => exact nofun
  | succ turns ih =>
    intro text value rest h
    unfold string_loop at h
    split at h
    · cases h
    rename_i c later
    rw [length_cons]
    split at h
    · split at h
      · cases h
      cases h
      omega
    split at h
    · cases h
    have hnext (bytes : Text) : Takes (if (out ++ bytes).length > limit then fail "Text is too long."
        else string_loop host limit turns (out ++ bytes)) 0 := by
      split
      · exact .fail _ _
      · exact ih _
    have hlength := ((added_takes c).bind hnext) _ _ _ h
    omega

theorem string_takes (limit : Nat) : Takes (string host limit) 1 := by
  intro text value rest h
  have hspace := length_space text
  unfold string at h
  split at h
  · rename_i later hsome
    rw [hsome, length_cons] at hspace
    have := string_loop_takes _ _ _ _ _ _ h
    omega
  · cases h

theorem members_takes (hmember : ∀ s key, Takes (member s key) 0) (turns : Nat) (s : σ) :
    Takes (members host member turns s) 0 := by
  induction turns generalizing s with
  | zero => exact nofun
  | succ turns ih =>
    have hkey : Takes (string host 32) 1 := string_takes 32
    have hone := bind hkey fun key => bind (expect_takes 58 "Expected ':'.") fun _ =>
      bind (hmember s key) fun s => bind (n := 0) (take_takes 44) fun more =>
        show Takes (if more then members host member turns s else do
          expect 125 "Expected ',' or '\x7d'."
          pure s) 0 from ?_
    · exact hone.weaken (Nat.zero_le _)
    · split
      · exact ih s
      · exact (bind (expect_takes 125 _) fun _ => .pure s).weaken (Nat.zero_le _)

theorem object_takes (hmember : ∀ s key, Takes (member s key) 0) (s : σ) : Takes (object host member s) 1 := by
  refine bind (expect_takes 123 _) fun _ => bind (n := 0) (take_takes 125) fun empty => ?_
  split
  · exact .pure s
  · exact members_takes hmember _ s

theorem array_takes (hitem : ∀ s, Takes (item s) 0) (s : σ) : Takes (array host item s) 1 := by
  have hitems (turns : Nat) (s : σ) : Takes (items item turns s) 0 := by
    induction turns generalizing s with
    | zero => exact nofun
    | succ turns ih =>
      refine bind (n := 0) (hitem s) fun s => bind (n := 0) (take_takes 44) fun more => ?_
      split
      · exact ih s
      · exact (bind (expect_takes 93 _) fun _ => .pure s).weaken (Nat.zero_le _)
  refine bind (expect_takes 91 _) fun _ => bind (n := 0) (take_takes 93) fun empty => ?_
  split
  · exact .pure s
  · exact hitems _ s

theorem skip_takes (levels : Nat) : Takes (skip host levels) 1 := by
  induction levels with
  | zero => exact .fail _ _
  | succ levels ih =>
    have hless : Takes (skip host levels) 0 := ih.weaken (Nat.zero_le _)
    intro text _ rest h
    have hspace := length_space text
    unfold skip at h
    split at h
    · cases h
    rename_i c later hsome
    rw [hsome] at hspace
    split at h
    · have hstring : Takes (string host kChangelogMaxBytes) 1 := string_takes _
      have := hstring.bind (fun _ => .pure ()) _ _ _ h
      omega
    split at h
    · have hobject := object_takes (fun _ _ => hless) () _ _ _ h
      omega
    split at h
    · have harray := array_takes (fun _ => hless) () _ _ _ h
      omega
    split at h
    · cases h
      have hdrop := (dropWhile_suffix (l := later) scalar_character).length_le
      rw [length_cons] at hspace
      omega
    · cases h

/-! ## Ends -/

section
variable {bound : Nat}

theorem take_ends (bound : Nat) (c : UInt8) : Ends bound (take c) := by
  intro text _ h
  unfold take at h
  split at h
  · cases h
  · split at h <;> cases h

theorem expect_ends (bound : Nat) (c : UInt8) (message : String) : Ends bound (expect c message) := by
  refine .bind (take_ends bound c) (take_takes c) fun found _ => ?_
  split
  · exact .pure _ _
  · exact .fail _ _

theorem added_ends (bound : Nat) (c : UInt8) : Ends bound (if c ≠ 92 then pure [c] else escape : Read Text) := by
  split
  · exact .pure _ _
  intro text _ h
  unfold escape at h
  repeat' split at h
  all_goals cases h

theorem string_loop_ends {limit turns : Nat} (hturns : bound < turns) (out : Text) :
    Ends bound (string_loop host limit turns out) := by
  induction turns generalizing bound out with
  | zero => exact absurd hturns (Nat.not_lt_zero _)
  | succ turns ih =>
    intro text htext h
    unfold string_loop at h
    split at h
    · cases h
    rename_i c later
    rw [length_cons] at htext
    split at h
    · split at h <;> cases h
    split at h
    · cases h
    have hnext (bytes : Text) : Ends (bound - 1) (if (out ++ bytes).length > limit then fail "Text is too long."
        else string_loop host limit turns (out ++ bytes)) := by
      split
      · exact .fail _ _
      · exact ih (by omega) _
    exact ((added_ends (bound - 1) c).bind (added_takes c) fun bytes _ => hnext bytes) later (by omega) h

theorem string_ends (hturns : bound < host.turns) (limit : Nat) : Ends bound (string host limit) := by
  intro text htext h
  have hspace := length_space text
  unfold string at h
  split at h
  · rename_i later hsome
    rw [hsome, length_cons] at hspace
    exact string_loop_ends hturns [] later (by omega) h
  · cases h

theorem members_ends {turns : Nat} (hturns : bound < turns) (hhost : bound < host.turns)
    (hmember : ∀ s key, Ends bound (member s key)) (htakes : ∀ s key, Takes (member s key) 0) (s : σ) :
    Ends bound (members host member turns s) := by
  induction turns generalizing bound s with
  | zero => exact absurd hturns (Nat.not_lt_zero _)
  | succ turns ih =>
    refine .bind (string_ends hhost 32) (string_takes 32) fun key hkey =>
      .bind (expect_ends _ 58 _) (expect_takes 58 _) fun _ _ =>
        .bind ((hmember s key).weaken (by omega)) (htakes s key) fun s _ =>
          .bind (take_ends _ 44) (take_takes 44) fun more _ => ?_
    split
    · exact ih (by omega) (by omega) (fun s key => (hmember s key).weaken (by omega)) s
    · exact .bind (expect_ends _ 125 _) (expect_takes 125 _) fun _ _ => .pure _ _

theorem object_ends (hhost : bound < host.turns) (hmember : ∀ s key, Ends bound (member s key))
    (htakes : ∀ s key, Takes (member s key) 0) (s : σ) : Ends bound (object host member s) := by
  refine .bind (expect_ends _ 123 _) (expect_takes 123 _) fun _ _ => .bind (take_ends _ 125) (take_takes 125) fun empty _ => ?_
  split
  · exact .pure _ _
  · exact members_ends (by omega) (by omega) (fun s key => (hmember s key).weaken (by omega)) htakes s

theorem items_ends {turns : Nat} (hturns : bound < turns) (hitem : ∀ s, Ends bound (item s))
    (htakes : ∀ s, Takes (item s) 1) (s : σ) : Ends bound (items item turns s) := by
  induction turns generalizing bound s with
  | zero => exact absurd hturns (Nat.not_lt_zero _)
  | succ turns ih =>
    refine .bind (hitem s) (htakes s) fun s hone => .bind (take_ends _ 44) (take_takes 44) fun more _ => ?_
    split
    · exact ih (by omega) (fun s => (hitem s).weaken (by omega)) s
    · exact .bind (expect_ends _ 93 _) (expect_takes 93 _) fun _ _ => .pure _ _

theorem array_ends (hhost : bound < host.turns) (hitem : ∀ s, Ends bound (item s))
    (htakes : ∀ s, Takes (item s) 1) (s : σ) : Ends bound (array host item s) := by
  refine .bind (expect_ends _ 91 _) (expect_takes 91 _) fun _ _ => .bind (take_ends _ 93) (take_takes 93) fun empty _ => ?_
  split
  · exact .pure _ _
  · exact items_ends (by omega) (fun s => (hitem s).weaken (by omega)) htakes s

/-- A value that is skipped ends, at any level. -/
theorem skip_ends (hhost : bound < host.turns) (levels : Nat) : Ends bound (skip host levels) := by
  induction levels with
  | zero => exact .fail _ _
  | succ levels ih =>
    intro text htext h
    have hspace := length_space text
    have htakes : Takes (skip host levels) 1 := skip_takes levels
    unfold skip at h
    split at h
    · cases h
    rename_i c later hsome
    rw [hsome] at hspace
    have hlater := Nat.le_trans hspace htext
    split at h
    · exact (Ends.bind (string_ends hhost _) (string_takes _) fun _ _ => .pure _ _) _ hlater h
    split at h
    · exact object_ends hhost (fun _ _ => ih) (fun _ _ => htakes.weaken (Nat.zero_le _)) () _ hlater h
    split at h
    · exact array_ends hhost (fun _ => ih) (fun _ => htakes) () _ hlater h
    · split at h <;> cases h

end

theorem unknown_takes (message : String) : Takes (unknown host mode message) 0 := by
  unfold unknown
  split
  · exact (skip_takes 9).weaken (Nat.zero_le _)
  · exact .fail _ _

theorem note_takes (out : List Text) : Takes (note host out) 1 := by
  unfold note
  split
  · exact .fail _ _
  refine bind (n := 0) (string_takes _) fun value => ?_
  split
  · exact .fail _ _
  · exact .pure _

theorem feature_member_takes (s : FeatureFields) (key : Text) : Takes (feature_member host mode s key) 0 := by
  have hstring (limit : Nat) : Takes (string host limit) 0 := (string_takes limit).weaken (Nat.zero_le _)
  unfold feature_member
  split
  · exact (hstring _).bind fun _ => .pure _
  split
  · exact (hstring _).bind fun _ => .pure _
  split
  · refine bind (n := 0) (hstring _) fun image => ?_
    split
    · exact .pure _
    · exact .fail _ _
  · exact (unknown_takes _).bind fun _ => .pure _

theorem feature_takes (features : List ChangelogFeature) : Takes (feature host mode features) 1 := by
  unfold feature
  split
  · exact .fail _ _
  refine bind (n := 0) (object_takes feature_member_takes _) fun s => ?_
  split
  · exact .fail _ _
  · exact .pure _

theorem release_member_takes (s : ReleaseFields) (key : Text) : Takes (release_member host mode s key) 0 := by
  have hstring (limit : Nat) : Takes (string host limit) 0 := (string_takes limit).weaken (Nat.zero_le _)
  have hnotes (out : List Text) : Takes (notes host out) 0 :=
    (array_takes (fun out => (note_takes out).weaken (Nat.zero_le _)) out).weaken (Nat.zero_le _)
  unfold release_member
  split
  · refine bind (n := 0) (hstring _) fun value => ?_
    split
    · exact .pure _
    · exact .fail _ _
  split
  · refine bind (n := 0) (hstring _) fun date => ?_
    split
    · exact .pure _
    · exact .fail _ _
  split
  · exact ((array_takes (fun features => (feature_takes features).weaken (Nat.zero_le _)) _).weaken
      (Nat.zero_le _)).bind fun _ => .pure _
  split
  · exact (hnotes _).bind fun _ => .pure _
  split
  · exact (hnotes _).bind fun _ => .pure _
  · exact (unknown_takes _).bind fun _ => .pure _

theorem release_takes (parsed : List ChangelogRelease) : Takes (release host mode parsed) 1 := by
  unfold release
  split
  · exact .fail _ _
  refine bind (n := 0) (object_takes release_member_takes _) fun s => ?_
  split
  · exact .fail _ _
  split
  · exact .fail _ _
  · exact .pure _

section
variable {bound : Nat}

theorem unknown_ends (hhost : bound < host.turns) (message : String) : Ends bound (unknown host mode message) := by
  unfold unknown
  split
  · exact skip_ends hhost 9
  · exact .fail _ _

theorem notes_ends (hhost : bound < host.turns) (out : List Text) : Ends bound (notes host out) := by
  refine array_ends hhost (fun out => ?_) note_takes out
  unfold note
  split
  · exact .fail _ _
  refine .bind (string_ends hhost _) (string_takes _) fun value _ => ?_
  split
  · exact .fail _ _
  · exact .pure _ _

theorem feature_ends (hhost : bound < host.turns) (features : List ChangelogFeature) :
    Ends bound (feature host mode features) := by
  have hmember (s : FeatureFields) (key : Text) : Ends bound (feature_member host mode s key) := by
    unfold feature_member
    split
    · exact .bind (string_ends hhost _) (string_takes _) fun _ _ => .pure _ _
    split
    · exact .bind (string_ends hhost _) (string_takes _) fun _ _ => .pure _ _
    split
    · refine .bind (string_ends hhost _) (string_takes _) fun image _ => ?_
      split
      · exact .pure _ _
      · exact .fail _ _
    · exact .bind (unknown_ends hhost _) (unknown_takes _) fun _ _ => .pure _ _
  unfold feature
  split
  · exact .fail _ _
  refine .bind (object_ends hhost hmember feature_member_takes _) (object_takes feature_member_takes _) fun s _ => ?_
  split
  · exact .fail _ _
  · exact .pure _ _

theorem release_ends (hhost : bound < host.turns) (parsed : List ChangelogRelease) :
    Ends bound (release host mode parsed) := by
  have hmember (s : ReleaseFields) (key : Text) : Ends bound (release_member host mode s key) := by
    have htakes (out : List Text) : Takes (notes host out) 1 :=
      array_takes (fun out => (note_takes out).weaken (Nat.zero_le _)) out
    unfold release_member
    split
    · refine .bind (string_ends hhost _) (string_takes _) fun value _ => ?_
      split
      · exact .pure _ _
      · exact .fail _ _
    split
    · refine .bind (string_ends hhost _) (string_takes _) fun date _ => ?_
      split
      · exact .pure _ _
      · exact .fail _ _
    split
    · exact .bind (array_ends hhost (feature_ends hhost) feature_takes _)
        (array_takes (fun features => (feature_takes features).weaken (Nat.zero_le _)) _) fun _ _ => .pure _ _
    split
    · exact .bind (notes_ends hhost _) (htakes _) fun _ _ => .pure _ _
    split
    · exact .bind (notes_ends hhost _) (htakes _) fun _ _ => .pure _ _
    · exact .bind (unknown_ends hhost _) (unknown_takes _) fun _ _ => .pure _ _
  unfold release
  split
  · exact .fail _ _
  refine .bind (object_ends hhost hmember release_member_takes _) (object_takes release_member_takes _) fun s _ => ?_
  split
  · exact .fail _ _
  split
  · exact .fail _ _
  · exact .pure _ _

theorem top_ends (hhost : bound < host.turns) (s : ChangelogFields) (key : Text) :
    Ends bound (top_member host mode s key) ∧ Takes (top_member host mode s key) 0 := by
  have hother : Takes (other_member host mode s key) 0 := by
    unfold other_member
    split
    · exact .fail _ _
    · exact unknown_takes _
  have hreleases : Takes (array host (release host mode) s.parsed) 1 :=
    array_takes (fun parsed => (release_takes parsed).weaken (Nat.zero_le _)) s.parsed
  unfold top_member
  split
  · refine ⟨.bind ?_ hother fun _ _ => .pure _ _, hother.bind fun _ => .pure _⟩
    unfold other_member
    split
    · exact .fail _ _
    · exact unknown_ends hhost _
  exact ⟨.bind (array_ends hhost (release_ends hhost) release_takes _) hreleases fun _ _ => .pure _ _,
    (hreleases.weaken (Nat.zero_le _)).bind fun _ => .pure _⟩

end

/-- Reading ends for every text. -/
theorem read_changelog_ends (mode : ChangelogParse) (hturns : text.length < host.turns) :
    read_changelog host mode text ≠ .unfinished := by
  have hstrip : (strip_bom text).length ≤ text.length := by
    unfold strip_bom
    split
    · rw [length_drop]
      exact Nat.sub_le _ _
    · exact Nat.le_refl _
  have hfinish : Ends (text.length - 1) finish := by
    intro rest _ h
    unfold finish at h
    split at h <;> cases h
  have hfinish_takes : Takes finish 0 := by
    intro rest _ later h
    unfold finish at h
    split at h
    · cases h
      exact Nat.zero_le _
    · cases h
  unfold read_changelog
  split
  · exact nofun
  refine Ends.bind (object_ends hturns (fun s key => (top_ends hturns s key).1)
    (fun s key => (top_ends hturns s key).2) _) (object_takes (fun s key => (top_ends hturns s key).2) _)
    (fun s _ => .bind hfinish hfinish_takes fun _ _ => ?_) _ hstrip
  split
  · exact .fail _ _
  · exact .pure _ _

/-- What the strict reader accepts the lenient one accepts with the same releases. In both modes
reading ends; what is accepted is in order and within the limits, and a refused text leaves the
caller's list as it was. -/
theorem strict_reading_is_lenient (valid_utf8 : Text → Bool) (text : Text) (releases : List ChangelogRelease) :
    (∀ parsed, parse_changelog valid_utf8 .strict text releases = some (true, parsed, none) →
      parse_changelog valid_utf8 .lenient text releases = some (true, parsed, none)) ∧
    ∀ mode, ∃ ok parsed error, parse_changelog valid_utf8 mode text releases = some (ok, parsed, error) ∧
      (ok = true → Accepted parsed ∧ error = none) ∧ (ok = false → parsed = releases ∧ error ≠ none) := by
  refine ⟨fun parsed h => ?_, fun mode => ?_⟩
  · unfold parse_changelog at h ⊢
    split at h
    · rename_i hread
      rw [read_changelog_refines hread]
      exact h
    · cases h
    · cases h
  · unfold parse_changelog
    have hends : read_changelog { valid_utf8 := valid_utf8, turns := text.length + 1 } mode text ≠ .unfinished :=
      read_changelog_ends mode (Nat.lt_succ_self text.length)
    split
    · rename_i parsed rest hread
      exact ⟨true, parsed, none, rfl, fun _ => ⟨read_changelog_gives hread, rfl⟩, nofun⟩
    · rename_i error _
      exact ⟨false, releases, some error, rfl, nofun, fun _ => ⟨rfl, nofun⟩⟩
    rename_i hread
    exact absurd hread hends

end taxi_camera.standalone.changelog
