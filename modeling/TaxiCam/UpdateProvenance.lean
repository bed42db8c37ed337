-- Where the digest of a selected installer comes from: the release's own
-- metadata, or the one line of its checksum file.
import TaxiCam.Updater
import Mathlib.Tactic.IntervalCases

namespace taxi_camera.standalone.updater

open json List

/-! ## Versions -/

def UpdateVersion.numbers (v : UpdateVersion) : List Nat := [v.major, v.minor, v.patch, v.build]

theorem newer_update_iff (candidate current : UpdateVersion) :
    newer_update candidate current = true ↔ current.numbers < candidate.numbers := by
  rw [newer_update, UpdateVersion.numbers, UpdateVersion.numbers]
  simp only [cons_lt_cons_iff, not_lt_nil, and_false, or_false]
  split
  · rw [decide_eq_true_eq]
    omega
  split
  · rw [decide_eq_true_eq]
    omega
  · split <;> rw [decide_eq_true_eq] <;> omega

/-! ## Hexadecimal digits -/

theorem char_le_iff {a b : Char} : a ≤ b ↔ a.toNat ≤ b.toNat := Iff.rfl

variable {digest file hash line name running tag text : List Char} {trusted : List Char → Bool}
variable {asset : UpdateAsset} {current version : UpdateVersion} {release : Value}

theorem ascii_of_hex (h : hex_hash hash = true) : ascii hash = true := by
  rw [hex_hash, decide_eq_true_eq] at h
  refine all_eq_true.mpr fun c hc => ?_
  have hhex := all_eq_true.mp h.2 c hc
  simp only [is_hex, char_le_iff, decide_eq_true_eq] at hhex ⊢
  have h0 : '0'.toNat = 48 := rfl
  have h9 : '9'.toNat = 57 := rfl
  have ha : 'a'.toNat = 97 := rfl
  have hf : 'f'.toNat = 102 := rfl
  have hA : 'A'.toNat = 65 := rfl
  have hF : 'F'.toNat = 70 := rfl
  omega

theorem lower_char_upper {n : Nat} (h : n < 26) : lower_char (Char.ofNat (n + 97)) = Char.ofNat (n + 97) := by
  interval_cases n <;> rfl

theorem lower_lower (text : List Char) : lower (lower text) = lower text := by
  rw [lower, lower, map_map]
  refine map_congr_left fun c _ => ?_
  rw [Function.comp_apply]
  by_cases hupper : 'A' ≤ c ∧ c ≤ 'Z'
  · have hlow : 65 ≤ c.toNat := hupper.1
    have hhigh : c.toNat ≤ 90 := hupper.2
    have hchar : lower_char c = Char.ofNat (c.toNat - 65 + 97) := if_pos hupper
    rw [hchar, lower_char_upper (by omega)]
  have hchar : lower_char c = c := if_neg hupper
  rw [hchar, hchar]

theorem lower_hex (digest : List UInt8) : lower (hex digest) = hex digest := by
  have hdigit (n : Nat) : lower_char (hex_digit n) = hex_digit n := by
    by_cases hn : n < 16
    · interval_cases n <;> rfl
    have hzero : hex_digit n = '0' := by
      rw [hex_digit, getD_eq_getElem?_getD, List.getElem?_eq_none (Nat.le_of_not_lt hn)]
      rfl
    rw [hzero]
    rfl
  induction digest with
  | nil => rfl
  | cons c rest ih =>
    rw [lower] at ih ⊢
    rw [hex, flatMap_cons, ← hex, map_append, ih, map_cons, map_singleton, hdigit, hdigit]

/-! ## Lines of a checksum file -/

/-- A line that gives the digest of a file: the hexadecimal digits, two separators, the name. -/
def Names (line digest file : List Char) : Prop :=
  ∃ hash mark ending, line = hash ++ ' ' :: mark :: (file ++ ending) ∧ hex_hash hash = true ∧
    (mark = ' ' ∨ mark = '*') ∧ file ≠ [] ∧ (ending = ['\r'] ∨ ending = [] ∧ file.getLast? ≠ some '\r') ∧
      digest = lower hash

/-- The line without the return at its end. -/
def trimmed (line : List Char) : List Char := if line.getLast? = some '\r' then line.dropLast else line

theorem trimmed_eq (line : List Char) : ∃ ending, line = trimmed line ++ ending ∧
    (ending = ['\r'] ∨ ending = [] ∧ (trimmed line).getLast? ≠ some '\r') := by
  rw [trimmed]
  split
  · rename_i h
    obtain ⟨front, rfl⟩ := List.getLast?_eq_some_iff.mp h
    exact ⟨['\r'], by rw [dropLast_concat], .inl rfl⟩
  rename_i h
  exact ⟨[], (append_nil _).symm, .inr ⟨rfl, h⟩⟩

theorem trimmed_append (front : List Char) {ending : List Char} (hfile : file ≠ [])
    (h : ending = ['\r'] ∨ ending = [] ∧ file.getLast? ≠ some '\r') :
    trimmed (front ++ (file ++ ending)) = front ++ file := by
  rw [trimmed]
  rcases h with rfl | ⟨rfl, hlast⟩
  · rw [← append_assoc, if_pos List.getLast?_concat, dropLast_concat]
  rw [append_nil, if_neg]
  rwa [List.getLast?_append_of_ne_nil _ hfile]

/-- The places of a line with 64 characters in front of its separators. -/
theorem line_places (file : List Char) (mark : Char) (hlength : hash.length = 64) :
    (hash ++ ' ' :: mark :: file).length = 66 + file.length ∧
      (hash ++ ' ' :: mark :: file).take 64 = hash ∧ (hash ++ ' ' :: mark :: file).drop 66 = file ∧
      (hash ++ ' ' :: mark :: file)[64]? = some ' ' ∧ (hash ++ ' ' :: mark :: file)[65]? = some mark := by
  refine ⟨?_, take_left' hlength, ?_, ?_, ?_⟩
  · rw [length_append, length_cons, length_cons, hlength]
    omega
  · rw [drop_append, hlength, drop_of_length_le (by omega)]
    rfl
  · rw [List.getElem?_append_right (by omega), hlength]
    rfl
  · rw [List.getElem?_append_right (by omega), hlength]
    rfl

theorem exists_places (hlong : 66 < text.length) (hspace : text[64]? = some ' ') :
    ∃ hash mark file, text = hash ++ ' ' :: mark :: file ∧ hash.length = 64 ∧ file ≠ [] := by
  obtain ⟨hlt, hspace⟩ := List.getElem?_eq_some_iff.mp hspace
  have hlt' : 65 < text.length := by omega
  refine ⟨text.take 64, text[65], text.drop 66, ?_, ?_, fun hnil => ?_⟩
  · rw [← drop_eq_getElem_cons hlt', ← hspace, ← drop_eq_getElem_cons hlt, take_append_drop]
  · rw [length_take]
    omega
  · have := drop_eq_nil_iff.mp hnil
    omega

theorem checksum_line_iff : checksum_line line = some (digest, file) ↔ Names line digest file := by
  have hdef : checksum_line line = if (trimmed line).length > 66 ∧ ascii ((trimmed line).take 64) ∧
      hex_hash ((trimmed line).take 64) ∧ (trimmed line)[64]? = some ' ' ∧
        ((trimmed line)[65]? = some ' ' ∨ (trimmed line)[65]? = some '*') then
      some (lower ((trimmed line).take 64), (trimmed line).drop 66) else none := rfl
  rw [hdef]
  constructor
  · intro h
    obtain ⟨ending, hline, hending⟩ := trimmed_eq line
    generalize trimmed line = text at *
    split at h
    · rename_i hform
      obtain ⟨hash, mark, name, rfl, hlength, hname⟩ := exists_places hform.1 hform.2.2.2.1
      obtain ⟨-, htake, hdrop, -, hat⟩ := line_places name mark hlength
      rw [htake, hdrop] at h
      obtain ⟨rfl, rfl⟩ := Prod.mk.inj (Option.some.inj h)
      rw [htake, hat] at hform
      refine ⟨hash, mark, ending, ?_, hform.2.2.1, hform.2.2.2.2.imp Option.some.inj Option.some.inj, hname,
        hending.imp id fun ⟨hnil, hlast⟩ => ⟨hnil, ?_⟩, rfl⟩
      · rw [hline, append_assoc, cons_append, cons_append]
      · have hsplit : hash ++ ' ' :: mark :: name = (hash ++ [' ', mark]) ++ name := by
          rw [append_assoc]
          rfl
        rwa [hsplit, List.getLast?_append_of_ne_nil _ hname] at hlast
    · cases h
  · rintro ⟨hash, mark, ending, rfl, hhash, hmark, hfile, hending, rfl⟩
    have hlength : hash.length = 64 := by
      rw [hex_hash, decide_eq_true_eq] at hhash
      exact hhash.1
    have htrim : trimmed (hash ++ ' ' :: mark :: (file ++ ending)) = hash ++ ' ' :: mark :: file := by
      have hfront := trimmed_append (hash ++ [' ', mark]) hfile hending
      rw [append_assoc, append_assoc] at hfront
      exact hfront
    obtain ⟨hlong, htake, hdrop, hspace, hat⟩ := line_places file mark hlength
    have hpos := length_pos_iff.mpr hfile
    rw [htrim, htake, hdrop, hspace, hat]
    refine if_pos ⟨by omega, ascii_of_hex hhash, hhash, rfl, ?_⟩
    exact hmark.imp (congrArg some) (congrArg some)

/-- The text has one line for the file, with this digest. -/
def SingleLine (text file digest : List Char) : Prop :=
  ∃ before line after, text.splitOn '\n' = before ++ line :: after ∧ Names line digest file ∧
    ∀ other ∈ before ++ after, ∀ found, ¬ Names other found file

/-- What a line says of a file. -/
def said (name line : List Char) : Option (List Char) :=
  match checksum_line line with
  | some (digest, file) => if file = name then some digest else none
  | none => none

theorem said_iff : said name line = some digest ↔ Names line digest name := by
  rw [← checksum_line_iff, said]
  cases checksum_line line with
  | none => simp
  | some found =>
    obtain ⟨d, file⟩ := found
    by_cases hfile : file = name <;> simp [hfile]

/-- The first line of a text, and what is behind it. -/
theorem lines_of_text (name text : List Char) :
    (text.splitOn '\n').filterMap (said name) =
      ([text.takeWhile (· ≠ '\n')]).filterMap (said name) ++
        ((text.drop ((text.takeWhile (· ≠ '\n')).length + 1)).splitOn '\n').filterMap (said name) := by
  generalize hline : text.takeWhile (· ≠ '\n') = line
  have hclean : '\n' ∉ line := by
    intro hmem
    rw [← hline] at hmem
    have := mem_takeWhile_imp hmem
    simp at this
  have htext : text = line ++ text.dropWhile (· ≠ '\n') := by
    rw [← hline, takeWhile_append_dropWhile]
  cases hbehind : text.dropWhile (· ≠ '\n') with
  | nil =>
    rw [hbehind, append_nil] at htext
    subst htext
    rw [splitOn_eq_singleton hclean, drop_of_length_le (Nat.le_succ _)]
    exact (append_nil _).symm
  | cons c rest =>
    have hc : c = '\n' := by
      have hhead := List.head?_dropWhile_not (fun x : Char => decide (x ≠ '\n')) text
      rw [hbehind] at hhead
      simpa using hhead
    subst hc
    rw [hbehind] at htext
    rw [htext, splitOn_append_cons_self_of_not_mem hclean]
    have hdrop : (line ++ '\n' :: rest).drop (line.length + 1) = rest := by
      rw [← drop_drop, drop_left]
      rfl
    rw [hdrop, ← filterMap_append]
    rfl

/-- The loop goes through the lines of the text. -/
theorem checksum_loop_eq (name : List Char) (fuel : Nat) (text found : List Char) (count : Nat)
    (hfuel : text.length ≤ fuel) : checksum_loop name fuel text (found, count) =
      (((text.splitOn '\n').filterMap (said name)).getLastD found,
        count + ((text.splitOn '\n').filterMap (said name)).length) := by
  induction fuel generalizing text found count with
  | zero =>
    obtain rfl := length_eq_zero_iff.mp (Nat.le_zero.mp hfuel)
    rfl
  | succ fuel ih =>
    rw [checksum_loop]
    by_cases hnil : text = []
    · subst hnil
      rfl
    rw [if_neg hnil, lines_of_text name text]
    dsimp only
    generalize text.takeWhile (· ≠ '\n') = line
    have hrest : (text.drop (line.length + 1)).length ≤ fuel := by
      rw [length_drop]
      omega
    generalize text.drop (line.length + 1) = rest at hrest
    have hsaid : said name line = match checksum_line line with
        | some (digest, file) => if file = name then some digest else none
        | none => none := rfl
    rw [filterMap_cons, filterMap_nil, hsaid]
    cases checksum_line line with
    | none => exact ih rest found count hrest
    | some parts =>
      obtain ⟨digest, file⟩ := parts
      dsimp only
      by_cases hfile : file = name
      · rw [if_pos hfile, if_pos hfile, ih rest digest (count + 1) hrest]
        rw [singleton_append, getLastD_cons, length_cons, Nat.add_assoc, Nat.add_comm 1]
      rw [if_neg hfile, if_neg hfile]
      exact ih rest found count hrest

theorem single_line_of_read (h : read_installer_checksum text name = some digest) : SingleLine text name digest := by
  rw [read_installer_checksum, checksum_loop_eq name _ _ _ _ (Nat.le_refl _)] at h
  dsimp only at h
  split at h
  · rename_i hcount
    generalize hsaid : (text.splitOn '\n').filterMap (said name) = found at *
    obtain ⟨d, rfl⟩ := length_eq_one_iff.mp ((Nat.zero_add _).symm.trans hcount)
    obtain rfl : d = digest := Option.some.inj h
    obtain ⟨before, line, after, hlines, hbefore, hline, hafter⟩ := filterMap_eq_cons_iff.mp hsaid
    refine ⟨before, line, after, hlines, said_iff.mp hline, fun other hother found hnames => ?_⟩
    have hnone : said name other = none := by
      rcases mem_append.mp hother with h | h
      · exact hbefore other h
      · exact filterMap_eq_nil_iff.mp hafter other h
    rw [said_iff.mpr hnames] at hnone
    cases hnone
  · cases h

/-! ## The digest of a release -/

/-- The asset says nothing of its digest. -/
def NoDigest (asset : Value) : Prop :=
  asset.find "digest" = none ∨ asset.find "digest" = some .null ∨ asset.find "digest" = some (.string [])

/-- A published release that is newer than the running one, its one installer asset, and the digest
that the asset or else the release's checksum file gives. -/
structure TakenFrom (running : List Char) (source : Source) (digest : List Char) : Prop where
  published : source.release.find "draft" = some (.boolean false)
  final : source.release.find "prerelease" = some (.boolean false)
  taken : ∃ current tag version assets name asset,
    parse_update_version running = some current ∧
    string_member source.release "tag_name" = some tag ∧ parse_update_version tag = some version ∧
    current.numbers < version.numbers ∧ source.release.find "assets" = some (.array assets) ∧
    (name = clean_name version ∨ named_assets assets (clean_name version) = [] ∧ name = legacy_name tag) ∧
    named_assets assets name = [asset] ∧
    ((∃ hash, asset.find "digest" = some (.string ("sha256:".toList ++ hash)) ∧ hex_hash hash = true ∧
        digest = lower hash) ∨
      NoDigest asset ∧ ∃ text, source.sums = some text ∧ SingleLine text name digest)

/-- What a selection looks at, up to the digest. -/
structure SelectedFrom (running : UpdateVersion) (release : Value) (asset : UpdateAsset) (found : Value) :
    Prop where
  published : release.find "draft" = some (.boolean false)
  final : release.find "prerelease" = some (.boolean false)
  chosen : ∃ tag version assets, string_member release "tag_name" = some tag ∧
    parse_update_version tag = some version ∧ running.numbers < version.numbers ∧
    release.find "assets" = some (.array assets) ∧
    (asset.name = clean_name version ∨
      named_assets assets (clean_name version) = [] ∧ asset.name = legacy_name tag) ∧
    named_assets assets asset.name = [found]
  digest : metadata_digest found = .given asset.digest ∨
    metadata_digest found = .absent ∧ asset.digest = []

theorem stable_iff : stable release = true ↔
    release.find "draft" = some (.boolean false) ∧ release.find "prerelease" = some (.boolean false) := by
  rw [stable]
  split
  · rename_i draft prerelease hdraft hprerelease
    rw [hdraft, hprerelease]
    cases draft <;> cases prerelease <;> simp
  rename_i hother
  refine iff_of_false Bool.false_ne_true ?_
  rintro ⟨hdraft, hprerelease⟩
  exact hother _ _ hdraft hprerelease

theorem release_version_some (h : release_version release = some (tag, version)) :
    string_member release "tag_name" = some tag ∧ parse_update_version tag = some version := by
  obtain ⟨text, htag, h⟩ := Option.bind_eq_some_iff.mp h
  split at h
  · cases h
  obtain ⟨parsed, hparse, h⟩ := Option.bind_eq_some_iff.mp h
  obtain ⟨rfl, rfl⟩ := Prod.mk.inj (Option.some.inj h)
  exact ⟨htag, hparse⟩

/-- There is one asset with the installer's name, and the older name counts only where the clean one
is not there. -/
theorem installer_asset_some {assets : List Value}
    {asset : Value} (h : installer_asset assets tag version = some (name, asset)) :
    (name = clean_name version ∨ named_assets assets (clean_name version) = [] ∧ name = legacy_name tag) ∧
      named_assets assets name = [asset] := by
  rw [installer_asset] at h
  split at h
  · cases h
  rename_i hfew
  split at h
  · rename_i found rest hfound
    obtain ⟨rfl, rfl⟩ := Prod.mk.inj (Option.some.inj h)
    have hrest : rest = [] := by
      rw [hfound, length_cons] at hfew
      exact length_eq_zero_iff.mp (by omega)
    exact ⟨.inl rfl, by rw [hfound, hrest]⟩
  rename_i hnone
  obtain ⟨found, hhead, heq⟩ := Option.map_eq_some_iff.mp h
  obtain ⟨rfl, rfl⟩ := Prod.mk.inj heq
  refine ⟨.inr ⟨hnone, rfl⟩, ?_⟩
  cases hlegacy : named_assets assets (legacy_name tag) with
  | nil =>
    rw [hlegacy] at hhead
    cases hhead
  | cons a rest =>
    rw [hlegacy] at hhead hfew
    obtain rfl := Option.some.inj hhead
    rw [length_cons] at hfew
    rw [length_eq_zero_iff.mp (show rest.length = 0 by omega)]

theorem select_some {running : UpdateVersion} (h : select_update_asset trusted release running = .Selected asset) :
    ∃ found, SelectedFrom running release asset found := by
  rw [select_update_asset] at h
  split at h
  · cases h
  rename_i hstable
  obtain ⟨hpublished, hfinal⟩ := stable_iff.mp (by simpa using hstable)
  split at h
  · cases h
  rename_i tag version hversion
  obtain ⟨htag, hparse⟩ := release_version_some hversion
  split at h
  · cases h
  rename_i hnewer
  have hnewer := (newer_update_iff version running).mp (by simpa using hnewer)
  split at h
  case h_2 => cases h
  rename_i assets hassets
  split at h
  · cases h
  rename_i name found hinstaller
  obtain ⟨hname, hsingle⟩ := installer_asset_some hinstaller
  dsimp only at h
  split at h
  · cases h
  split at h
  · cases h
  split at h
  · rename_i digest hdigest
    obtain rfl := UpdateSelection.Selected.inj h
    exact ⟨found, hpublished, hfinal, ⟨tag, version, assets, htag, hparse, hnewer, hassets, hname, hsingle⟩,
      .inl hdigest⟩
  · cases h
  rename_i hdigest
  split at h
  · obtain rfl := UpdateSelection.Selected.inj h
    exact ⟨found, hpublished, hfinal, ⟨tag, version, assets, htag, hparse, hnewer, hassets, hname, hsingle⟩,
      .inr ⟨hdigest, rfl⟩⟩
  · cases h

/-- A digest of the metadata is that of a whole SHA-256, in small letters. -/
theorem metadata_digest_given {asset : Value} (h : metadata_digest asset = .given digest) :
    ∃ hash, asset.find "digest" = some (.string ("sha256:".toList ++ hash)) ∧ hex_hash hash = true ∧
      digest = lower hash := by
  rw [metadata_digest] at h
  split at h
  · cases h
  · cases h
  · rename_i text htext
    split at h
    · cases h
    split at h
    · rename_i hform
      obtain ⟨hfront, -, hhash⟩ := hform
      obtain rfl := Digest.given.inj h
      refine ⟨text.drop 7, ?_, hhash, rfl⟩
      rw [htext, ← hfront, take_append_drop]
    · cases h
  · cases h

theorem metadata_digest_absent {asset : Value} (h : metadata_digest asset = .absent) : NoDigest asset := by
  rw [metadata_digest] at h
  split at h
  · rename_i hfind
    exact .inl hfind
  · rename_i hfind
    exact .inr (.inl hfind)
  · rename_i text hfind
    split at h
    · rename_i hnil
      exact .inr (.inr (hnil ▸ hfind))
    · split at h <;> cases h
  · cases h

theorem lower_ne_nil (h : hex_hash hash = true) : lower hash ≠ [] := by
  intro hnil
  rw [hex_hash, decide_eq_true_eq, map_eq_nil_iff.mp hnil] at h
  exact absurd h.1 (by decide)

theorem SelectedFrom.taken {found : Value} (h : SelectedFrom current release asset found)
    (hrunning : parse_update_version running = some current) {sums : Option (List Char)}
    (hdigest : (∃ hash, found.find "digest" = some (.string ("sha256:".toList ++ hash)) ∧
        hex_hash hash = true ∧ digest = lower hash) ∨
      NoDigest found ∧ ∃ text, sums = some text ∧ SingleLine text asset.name digest) :
    TakenFrom running { release, sums } digest := by
  obtain ⟨tag, version, assets, htag, hparse, hnewer, hassets, hname, hsingle⟩ := h.chosen
  exact ⟨h.published, h.final, current, tag, version, assets, asset.name, found, hrunning, htag, hparse, hnewer,
    hassets, hname, hsingle, hdigest⟩

theorem taken_of_metadata (hrunning : parse_update_version running = some current)
    (h : select_update_asset trusted release current = .Selected asset) (hdigest : asset.digest ≠ []) :
    TakenFrom running { release } asset.digest := by
  obtain ⟨found, hselected⟩ := select_some h
  rcases hselected.digest with hgiven | ⟨-, hnil⟩
  · exact hselected.taken hrunning (.inl (metadata_digest_given hgiven))
  · exact absurd hnil hdigest

theorem taken_of_sums (hrunning : parse_update_version running = some current)
    (h : select_update_asset trusted release current = .Selected asset) (hnil : asset.digest = [])
    (hread : read_installer_checksum text asset.name = some digest) :
    TakenFrom running { release, sums := some text } digest := by
  obtain ⟨found, hselected⟩ := select_some h
  rcases hselected.digest with hgiven | ⟨habsent, -⟩
  · obtain ⟨hash, -, hhash, heq⟩ := metadata_digest_given hgiven
    exact absurd (heq.symm.trans hnil) (lower_ne_nil hhash)
  · exact hselected.taken hrunning (.inr ⟨metadata_digest_absent habsent, text, rfl, single_line_of_read hread⟩)

end taxi_camera.standalone.updater
