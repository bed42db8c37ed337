-- A saved mark choice: the texture that the key of a display leads to, and when
-- it carries the gauge of that display on its panel.
import TaxiCam.MarkKeys
import TaxiCam.MarkOwners

namespace taxi_camera.mark_identity

open List

/-! ## The gauge a texture is named by -/

namespace Texture

variable {g : Gauge} {name : List UInt8} {t : Texture}

theorem foldl_least {rest : List Gauge} (h : ∀ x ∈ rest, g.index ≤ x.index) :
    rest.foldl (fun least x => if x.index < least.index then x else least) g = g := by
  induction rest with
  | nil => rfl
  | cons x rest ih =>
    have hx : ¬x.index < g.index := UInt8.not_lt.mpr (h x mem_cons_self)
    rw [foldl_cons, if_neg hx]
    exact ih fun y hy => h y (mem_cons_of_mem _ hy)

/-- The identifying gauge is the one at the front. -/
theorem gauges_eq (t : Texture) : ∃ rest, t.gauges = t.first :: rest := by
  obtain ⟨id, copied, gauges, marked, sorted⟩ := t
  cases gauges with
  | nil => exact absurd rfl marked
  | cons g rest =>
    refine ⟨rest, ?_⟩
    unfold first
    dsimp only
    rw [foldl_least (pairwise_cons.mp sorted).1]

theorem mem_of_gauge (h : t.gauge name false = some g) : g ∈ t.gauges ∧ g.name.chars = name := by
  have hname := find?_some h
  rw [if_neg Bool.false_ne_true, decide_eq_true_eq] at hname
  exact ⟨mem_of_find?_eq_some h, hname.symm⟩

theorem gauge_first (t : Texture) : t.gauge t.first.name.chars false = some t.first := by
  obtain ⟨rest, heq⟩ := t.gauges_eq
  unfold gauge
  rw [heq]
  apply find?_cons_of_pos
  simp

theorem gauge_first_cut (t : Texture) (h : name <+: t.first.name.chars) : t.gauge name true = some t.first := by
  obtain ⟨rest, heq⟩ := t.gauges_eq
  unfold gauge
  rw [heq]
  apply find?_cons_of_pos
  simpa using h

/-- The gauge that a cut name finds is the one the whole name finds, when it has that name. -/
theorem gauge_of_cut {whole : List UInt8} (h : name <+: whole)
    (hg : t.gauge name true = some g) (hname : g.name.chars = whole) :
    t.gauge whole false = some g := by
  unfold gauge at hg ⊢
  obtain ⟨_, before, after, heq, hbefore⟩ := find?_eq_some_iff_append.mp hg
  rw [find?_eq_some_iff_append]
  refine ⟨by simp [hname], before, after, heq, ?_⟩
  intro x hx
  have hnot := hbefore x hx
  simp only [if_true, Bool.not_eq_true', if_false, Bool.false_eq_true] at hnot ⊢
  rw [decide_eq_false_iff_not]
  rintro rfl
  rw [ isPrefixOf_iff_prefix.mpr h] at hnot
  cases hnot

end Texture

/-- The texture has the gauge on the panel. -/
def Carries (t : Texture) (gauge : List UInt8) (panel : Nat) : Prop :=
  ∃ g ∈ t.gauges, g.name.chars = gauge ∧ panel_number g.panel.chars = panel

instance (t : Texture) (gauge : List UInt8) (panel : Nat) : Decidable (Carries t gauge panel) :=
  inferInstanceAs (Decidable (∃ g ∈ t.gauges, _))

namespace Store

variable {t : Texture}

theorem panel_of_eq {gauge : List UInt8} {cut : Bool} {g : Gauge}
    (h : t.gauge gauge cut = some g) : panel_of gauge cut t = panel_number g.panel.chars := by
  unfold panel_of
  rw [h]

/-! ## What the key says -/

/-- The textures that carry the gauge the texture is named by. -/
def peers (s : Store) (t : Texture) : List Texture := s.owners t.first.name.chars false

/-- A key names a rank that the texture's panel has among its peers. -/
theorem key_of_cases (s : Store) (h : s.key_of t ≠ []) : ∃ i, s.rank_of t = some i ∧
      ((s.peers t).map (panel_of t.first.name.chars false))[i]? = some (panel_number t.first.panel.chars) ∧
      s.key_of t = make_key t.first.name.chars (i % 0x100000000) ((s.peers t).length % 0x100000000) := by
  unfold key_of at h ⊢
  split at h
  · rename_i i hrank
    have hfound := hrank
    obtain ⟨hi, hpanel, _⟩ := findIdx?_eq_some_iff_getElem.mp hfound
    refine ⟨i, hrank, ?_, rfl⟩
    rw [decide_eq_true_eq] at hpanel
    unfold peers
    rw [getElem?_map, getElem?_eq_getElem hi, Option.map_some, hpanel]
  · exact absurd rfl h

/-- The key's text is read, and as many textures carry its gauge as it counts. -/
structure Answers (s : Store) (key : Key) (parsed : ParsedKey) : Prop where
  reads : parse_key key = some parsed
  counted : (s.owners parsed.gauge (cut_to_fit key)).length = parsed.count

/-- A key leads nowhere, or along the copies from the texture at its rank. -/
theorem resolve_cases (s : Store) (key : Key) (feeds : List (Nat × Nat)) :
    s.resolve key feeds = 0 ∨ ∃ parsed owner, s.Answers key parsed ∧
      (s.owners parsed.gauge (cut_to_fit key))[parsed.rank]? = some owner ∧
      s.resolve key feeds = s.follow feeds parsed.gauge (cut_to_fit key) feeds.length owner.id := by
  unfold resolve
  split
  · exact .inl rfl
  rename_i parsed hparsed
  dsimp only
  split
  · exact .inl rfl
  rename_i hcount
  split
  · rename_i owner howner
    exact .inr ⟨parsed, owner, ⟨hparsed, not_not.mp hcount⟩, howner, rfl⟩
  · exact .inl rfl

/-! ## Where the key leads -/

/-- What keeps the key of a texture from naming another display. -/
structure Unmistaken (s : Store) (feeds : List (Nat × Nat)) (t : Texture) (parsed : ParsedKey) :
    Prop where
  /-- The rank of several is in the key as it is. -/
  rank_fits : ∀ i, s.rank_of t = some i → (s.peers t).length < 0x100000000 ∧
    (1 < (s.peers t).length → RankFits i (s.peers t).length)
  /-- The name of a gauge on one panel does not end in a rank. -/
  no_rank : (s.peers t).length = 1 → ranked (t.first.name.chars.take (KeySize - 2)) = none
  /-- What a cut name finds is the gauge it was cut from. -/
  name_apart : cut_to_fit (s.key_of t) = true → ∀ x ∈ s.owners parsed.gauge true,
    ∀ g, x.gauge parsed.gauge true = some g → g.name.chars = t.first.name.chars
  /-- A copy that carries the gauge carries it on the panel of what is copied into it. -/
  copies_apart : ∀ feed ∈ feeds, ∀ u ∈ s.textures, u.id = feed.1 →
    Carries u t.first.name.chars (panel_number t.first.panel.chars) →
    ∀ w ∈ s.textures, w.id = feed.2 → w.copied = true →
      w.gauge parsed.gauge (cut_to_fit (s.key_of t)) ≠ none →
      Carries w t.first.name.chars (panel_number t.first.panel.chars)

section
variable {s : Store} {feeds : List (Nat × Nat)} {t : Texture} {parsed : ParsedKey}

/-- The key is read as it was made. -/
theorem Unmistaken.parsed_eq (h : s.Unmistaken feeds t parsed) {i : Nat}
    (hrank : s.rank_of t = some i) (hi : i < (s.peers t).length)
    (hkey : s.key_of t = make_key t.first.name.chars (i % 0x100000000) ((s.peers t).length % 0x100000000))
    (hreads : parse_key (s.key_of t) = some parsed) :
    parsed = ⟨kept t.first.name.chars i (s.peers t).length, i, (s.peers t).length⟩ ∧
    (cut_to_fit (s.key_of t) = false → parsed.gauge = t.first.name.chars) := by
  obtain ⟨hn, hfits⟩ := h.rank_fits i hrank
  rw [Nat.mod_eq_of_lt (Nat.lt_trans hi hn), Nat.mod_eq_of_lt hn] at hkey
  rw [hkey] at hreads ⊢
  have hparsed := parse_make_key hi hn h.no_rank hfits hreads
  refine ⟨hparsed, fun hcut => ?_⟩
  rw [hparsed]
  exact kept_eq_of_length (of_decide_eq_false hcut)

/-- What an owner is found by is the gauge the key was made from. -/
theorem Unmistaken.matched (h : s.Unmistaken feeds t parsed) (hfront : parsed.gauge <+: t.first.name.chars)
    (hwhole : cut_to_fit (s.key_of t) = false → parsed.gauge = t.first.name.chars)
    {x : Texture} (hx : x ∈ s.owners parsed.gauge (cut_to_fit (s.key_of t))) :
    ∃ g, x.gauge parsed.gauge (cut_to_fit (s.key_of t)) = some g ∧ x.gauge t.first.name.chars false = some g := by
  have howns := ((s.owners_newest _ _).owner x hx).2.2
  obtain ⟨g, hg⟩ := Option.ne_none_iff_exists'.mp howns
  refine ⟨g, hg, ?_⟩
  cases hcut : cut_to_fit (s.key_of t) with
  | false =>
    rw [hcut, hwhole hcut] at hg
    exact hg
  | true =>
    rw [hcut] at hg hx
    exact Texture.gauge_of_cut hfront hg (h.name_apart hcut x hx g hg)

/-- As many owners as the key counts are the panels that it was made from. -/
theorem Unmistaken.same_panels (h : s.Unmistaken feeds t parsed) (hfront : parsed.gauge <+: t.first.name.chars)
    (hwhole : cut_to_fit (s.key_of t) = false → parsed.gauge = t.first.name.chars)
    (hcount : (s.owners parsed.gauge (cut_to_fit (s.key_of t))).length = (s.peers t).length) :
    (s.owners parsed.gauge (cut_to_fit (s.key_of t))).map (panel_of parsed.gauge (cut_to_fit (s.key_of t))) =
      (s.peers t).map (panel_of t.first.name.chars false) := by
  have hsub : (s.owners parsed.gauge (cut_to_fit (s.key_of t))).map
      (panel_of parsed.gauge (cut_to_fit (s.key_of t))) ⊆
      (s.peers t).map (panel_of t.first.name.chars false) := by
    intro panel hpanel
    obtain ⟨x, hx, rfl⟩ := mem_map.mp hpanel
    obtain ⟨g, hg, hwholeg⟩ := h.matched hfront hwhole hx
    obtain ⟨hmem, hown⟩ := (s.owners_newest _ _).owner x hx
    have hpeer : Owns t.first.name.chars false x := ⟨hown.1, by rw [hwholeg]; exact nofun⟩
    obtain ⟨u, hu, hpanel, _⟩ := (s.owners_newest _ _).newest x hmem hpeer
    rw [panel_of_eq hg, ← panel_of_eq hwholeg, ← hpanel]
    exact mem_map_of_mem hu
  have hperm := (subperm_of_subset (s.owners_newest _ _).apart hsub).perm_of_length_le
    (by rw [length_map, length_map, hcount])
  exact hperm.eq_of_pairwise' (s.owners_sorted _ _) (s.owners_sorted _ _)

/-- The texture at the key's rank is of the display that the key was made for. -/
theorem Unmistaken.owner_carries (h : s.Unmistaken feeds t parsed) (ht : t ∈ s.textures)
    (hkey : s.key_of t ≠ []) (hanswers : s.Answers (s.key_of t) parsed) {owner : Texture}
    (howner : (s.owners parsed.gauge (cut_to_fit (s.key_of t)))[parsed.rank]? = some owner) :
    owner ∈ s.textures ∧ Carries owner t.first.name.chars (panel_number t.first.panel.chars) ∧
      (t.copied = false → t.id ≤ owner.id) := by
  obtain ⟨i, hrank, hplace, hmade⟩ := s.key_of_cases hkey
  obtain ⟨hi, _⟩ := List.getElem?_eq_some_iff.mp hplace
  rw [List.length_map] at hi
  obtain ⟨hparsed, hwhole⟩ := h.parsed_eq hrank hi hmade hanswers.reads
  have hfront : parsed.gauge <+: t.first.name.chars := hparsed ▸ kept_isPrefix _ _ _
  have hcounted := hanswers.counted
  have hsame := h.same_panels hfront hwhole (hcounted.trans (by rw [hparsed]))
  have hmem := List.mem_of_getElem? howner
  obtain ⟨g, hg, hwholeg⟩ := h.matched hfront hwhole hmem
  have hpanel : panel_of parsed.gauge (cut_to_fit (s.key_of t)) owner = panel_number t.first.panel.chars := by
    have hi' : parsed.rank = i := by rw [hparsed]
    rw [← hsame, ← hi', List.getElem?_map, howner, Option.map_some, Option.some.injEq] at hplace
    exact hplace
  refine ⟨((s.owners_newest _ _).owner owner hmem).1, ?_, ?_⟩
  · obtain ⟨hin, hname⟩ := Texture.mem_of_gauge hwholeg
    exact ⟨g, hin, hname, (panel_of_eq hg).symm.trans hpanel⟩
  · intro hcopied
    have hfirst : t.gauge parsed.gauge (cut_to_fit (s.key_of t)) = some t.first := by
      cases hcut : cut_to_fit (s.key_of t) with
      | false => rw [hwhole hcut, t.gauge_first]
      | true => exact t.gauge_first_cut hfront
    have hown : Owns parsed.gauge (cut_to_fit (s.key_of t)) t := ⟨hcopied, by rw [hfirst]; exact nofun⟩
    obtain ⟨u, hu, hup, hid⟩ := (s.owners_newest _ _).newest t ht hown
    rw [panel_of_eq hfirst, ← hpanel] at hup
    rwa [List.inj_on_of_nodup_map (s.owners_newest _ _).apart hu hmem hup] at hid

end

/-! ## Along the copies -/

theorem newer_copy_cases (s : Store) (gauge : List UInt8) (cut : Bool) (id next : Nat) (feed : Nat × Nat) :
    s.newer_copy gauge cut id next feed = next ∨ (feed.1 = id ∧ ∃ w ∈ s.textures,
      w.id = feed.2 ∧ w.copied = true ∧ w.gauge gauge cut ≠ none ∧
      s.newer_copy gauge cut id next feed = w.id) := by
  unfold newer_copy
  split
  · rename_i w hw
    split at hw
    · rename_i hid
      obtain ⟨hmem, hwid⟩ := s.mem_of_find hw
      split
      · rename_i hcopy
        exact .inr ⟨hid, w, hmem, hwid, hcopy.1, hcopy.2.1, rfl⟩
      · exact .inl rfl
    · cases hw
  · exact .inl rfl

theorem newest_copy_cases (s : Store) (feeds : List (Nat × Nat)) (gauge : List UInt8) (cut : Bool) (id : Nat) :
    s.newest_copy feeds gauge cut id = 0 ∨ ∃ feed ∈ feeds, feed.1 = id ∧ ∃ w ∈ s.textures,
      w.id = feed.2 ∧ w.copied = true ∧ w.gauge gauge cut ≠ none ∧
      s.newest_copy feeds gauge cut id = w.id := by
  unfold newest_copy
  generalize hstart : (0 : Nat) = start
  clear hstart
  induction feeds generalizing start with
  | nil => exact .inl rfl
  | cons feed feeds ih =>
    rw [foldl_cons]
    rcases ih (s.newer_copy gauge cut id start feed) with heq | ⟨f, hf, hrest⟩
    · rw [heq]
      rcases s.newer_copy_cases gauge cut id start feed with hsame | ⟨hid, hcopy⟩
      · exact .inl hsame
      · exact .inr ⟨feed, mem_cons_self, hid, hcopy⟩
    · exact .inr ⟨f, mem_cons_of_mem _ hf, hrest⟩

/-- The texture is of the display `t` is of: it has `t`'s gauge on `t`'s panel, and what is no copy
is not older than `t`. -/
def SameDisplay (s : Store) (t : Texture) (id : Nat) : Prop :=
  ∃ u ∈ s.textures, u.id = id ∧
    Carries u t.first.name.chars (panel_number t.first.panel.chars) ∧
    (u.copied = false → t.copied = false → t.id ≤ u.id)

instance (s : Store) (t : Texture) (id : Nat) : Decidable (s.SameDisplay t id) :=
  inferInstanceAs (Decidable (∃ u ∈ s.textures, _))

theorem Unmistaken.follow_stays {s : Store} {feeds : List (Nat × Nat)}
    {parsed : ParsedKey} (h : s.Unmistaken feeds t parsed) (steps : Nat) {id : Nat}
    (hid : s.SameDisplay t id) :
    s.SameDisplay t (s.follow feeds parsed.gauge (cut_to_fit (s.key_of t)) steps id) := by
  induction steps generalizing id with
  | zero => exact hid
  | succ steps ih =>
    rw [follow]
    split
    · exact hid
    rename_i hnext
    apply ih
    rcases s.newest_copy_cases feeds parsed.gauge (cut_to_fit (s.key_of t)) id with
      hzero | ⟨feed, hfeed, hfrom, w, hw, hto, hcopied, hgauge, heq⟩
    · exact absurd hzero hnext
    obtain ⟨u, hu, huid, hcarries, _⟩ := hid
    have hcopy := h.copies_apart feed hfeed u hu (huid.trans hfrom.symm) hcarries w hw hto hcopied hgauge
    refine ⟨w, hw, heq.symm, hcopy, fun hnot => ?_⟩
    rw [hcopied] at hnot
    cases hnot

/-! ## The law -/

/-- A texture of one gauge. -/
def one_gauge (id : Nat) (copied : Bool) (panel name : List UInt8) : Texture where
  id := id
  copied := copied
  gauges := [⟨.put panel_marks.name_room panel, .put panel_marks.name_room name, 0, 0, 0, 0, 0, 0, 0⟩]
  marked := List.cons_ne_nil _ _
  sorted := List.pairwise_singleton _ _

/-- `"PFD"`. -/
def pfd : List UInt8 := [80, 70, 68]

/-- Two panels with `"PFD"`, and a texture that the second is copied into. -/
def two_panels : Store where
  textures := [one_gauge 1 false [49] pfd, one_gauge 2 false [50] pfd, one_gauge 3 true [50] pfd]
  distinct := by decide

/-- Panel 1 has `"PFD#1/2"`, panels 2 and 3 have `"PFD"`. -/
def named_like_a_rank : Store where
  textures := [one_gauge 1 false [49] [80, 70, 68, 35, 49, 47, 50], one_gauge 2 false [50] pfd,
    one_gauge 3 false [51] pfd]
  distinct := by decide

/-- Panel 1 has two gauges whose names are the same in the 30 characters that a key keeps. -/
def named_alike : Store where
  textures := [one_gauge 1 false [49] (List.replicate 30 65 ++ [76]),
    one_gauge 2 false [49] (List.replicate 30 65 ++ [82])]
  distinct := by decide

/-- The key of the texture leads to another display. The third is a copy of both panels. -/
def Moves (s : Store) (t : Texture) (feeds : List (Nat × Nat)) : Prop :=
  t ∈ s.textures ∧ s.key_of t ≠ [] ∧ s.resolve (s.key_of t) feeds ≠ 0 ∧
    ¬s.SameDisplay t (s.resolve (s.key_of t) feeds)

instance (s : Store) (t : Texture) (feeds : List (Nat × Nat)) : Decidable (s.Moves t feeds) :=
  inferInstanceAs (Decidable (_ ∧ _))

end Store

end taxi_camera.mark_identity
