-- The store of marks: the loop that hands marks along the copies ends, and the
-- owners of a gauge are the newest texture of each panel, in panel order.
import TaxiCam.MarkIdentity

namespace taxi_camera.mark_identity.Store

open List

/-! ## Marks handed along the copies -/

/-- How many feeds still lead to a texture without marks. -/
def missing (feeds : List (Nat × Nat)) (s : Store) : Nat :=
  feeds.countP fun feed => decide (s.find feed.2 = none)

variable {feeds : List (Nat × Nat)} {out seen : List Texture} {t : Texture}

theorem find_push_back (s : Store) (h : s.find t.id = none) : (s.push_back t h).find t.id = some t :=
  find_of_mem _ (mem_append_right _ (mem_singleton.mpr rfl))

theorem find_push_back_of_find (s : Store) {u : Texture} (h : s.find t.id = none) {id : Nat}
    (hu : s.find id = some u) : (s.push_back t h).find id = some u := by
  obtain ⟨hmem, rfl⟩ := s.mem_of_find hu
  exact find_of_mem _ (mem_append_left _ hmem)

theorem missing_push_back (s : Store)
    (h : s.find t.id = none) {feed : Nat × Nat} (hfeed : feed ∈ feeds) (hid : feed.2 = t.id) :
    missing feeds (s.push_back t h) < missing feeds s := by
  obtain ⟨before, after, rfl⟩ := append_of_mem hfeed
  have hmono (l : List (Nat × Nat)) : missing l (s.push_back t h) ≤ missing l s := by
    apply countP_mono_left
    intro x _ hx
    rw [decide_eq_true_eq] at hx ⊢
    cases hs : s.find x.2 with
    | none => rfl
    | some u => rw [s.find_push_back_of_find h hs] at hx; cases hx
  have hcons (s' : Store) : missing (before ++ feed :: after) s' =
      missing before s' + (missing after s' + if s'.find feed.2 = none then 1 else 0) := by
    simp [missing, countP_append, countP_cons]
  rw [hcons, hcons, hid, s.find_push_back h, if_neg (by simp), if_pos h]
  have hbefore := hmono before
  have hafter := hmono after
  omega

/-- A turn of the loop takes nothing, or it takes marks for a texture that had none. -/
theorem take_marks_cases (alive : Nat → Bool) (out : Store × Nat) (feed : Nat × Nat) :
    take_marks alive out feed = out ∨
      ∃ (t : Texture) (h : out.1.find t.id = none), t.id = feed.2 ∧
        take_marks alive out feed = (out.1.push_back t h, out.2 + 1) := by
  unfold take_marks
  split
  · split
    · rename_i source _ hfind _
      exact .inr ⟨{ source with id := feed.2, copied := true }, hfind, rfl, rfl⟩
    · exact .inl rfl
  · exact .inl rfl

/-- A turn over the feeds leaves the store, or fewer feeds lead to a texture without marks. -/
theorem turn_cases (alive : Nat → Bool) (turn : List (Nat × Nat))
    (hturn : ∀ feed ∈ turn, feed ∈ feeds) (out : Store × Nat) :
    turn.foldl (take_marks alive) out = out ∨
      (missing feeds (turn.foldl (take_marks alive) out).1 < missing feeds out.1 ∧
        out.2 < (turn.foldl (take_marks alive) out).2) := by
  induction turn generalizing out with
  | nil => exact .inl rfl
  | cons feed turn ih =>
    have hrest := ih fun x hx => hturn x (mem_cons_of_mem _ hx)
    rw [foldl_cons]
    rcases take_marks_cases alive out feed with heq | ⟨t, h, hid, heq⟩
    · rw [heq]
      exact hrest out
    rw [heq]
    have hless := out.1.missing_push_back h (hturn feed mem_cons_self) hid.symm
    rcases hrest (out.1.push_back t h, out.2 + 1) with hsame | ⟨hm, hc⟩
    · rw [hsame]
      exact .inr ⟨hless, Nat.lt_succ_self _⟩
    · exact .inr ⟨Nat.lt_trans hm hless, Nat.lt_of_succ_lt hc⟩

/-- The loop stops at a store where a turn takes nothing. -/
theorem inherit_turns_ends (feeds : List (Nat × Nat)) (alive : Nat → Bool) {turns : Nat}
    {out : Store × Nat} (h : missing feeds out.1 < turns) :
    feeds.foldl (take_marks alive) (inherit_turns feeds alive turns out) =
      inherit_turns feeds alive turns out := by
  induction turns generalizing out with
  | zero => exact absurd h (Nat.not_lt_zero _)
  | succ turns ih =>
    rw [inherit_turns]
    rcases turn_cases alive feeds (fun _ hx => hx) out with hsame | ⟨hm, hc⟩
    · rw [hsame, if_pos rfl]
      exact hsame
    rw [if_neg (Nat.ne_of_gt hc)]
    exact ih (by omega)

/-- The turns that `inherit` has are enough for every feed list. -/
theorem inherit_ends (s : Store) (feeds : List (Nat × Nat)) (alive : Nat → Bool) :
    feeds.foldl (take_marks alive) (s.inherit feeds alive) = s.inherit feeds alive :=
  inherit_turns_ends feeds alive (Nat.lt_succ_of_le countP_le_length)

/-! ## The owners of a gauge -/

variable {gauge : List UInt8} {cut : Bool}

/-- A texture of the gauge's own: it was read, and one of its gauges has the name. -/
def Owns (gauge : List UInt8) (cut : Bool) (t : Texture) : Prop :=
  t.copied = false ∧ t.gauge gauge cut ≠ none

/-- What the loop of `owners` has, after the textures it has `seen`: the newest of each panel. -/
structure NewestOfPanels (gauge : List UInt8) (cut : Bool) (seen out : List Texture) : Prop where
  owner : ∀ t ∈ out, t ∈ seen ∧ Owns gauge cut t
  apart : (out.map (panel_of gauge cut)).Nodup
  newest : ∀ t ∈ seen, Owns gauge cut t →
    ∃ u ∈ out, panel_of gauge cut u = panel_of gauge cut t ∧ t.id ≤ u.id

/-- A turn of the loop takes the next texture into account. -/
theorem own_keeps (h : NewestOfPanels gauge cut seen out) (t : Texture) :
    NewestOfPanels gauge cut (seen ++ [t]) (own gauge cut out t) := by
  obtain ⟨howner, hapart, hnewest⟩ := h
  have hseen {x : Texture} (hx : x ∈ seen) : x ∈ seen ++ [t] := mem_append_left _ hx
  have hlast : t ∈ seen ++ [t] := mem_append_right _ (mem_singleton.mpr rfl)
  unfold own
  split
  · -- no owner of the gauge
    rename_i hskip
    refine ⟨fun x hx => ⟨hseen (howner x hx).1, (howner x hx).2⟩, hapart, ?_⟩
    intro x hx hown
    rcases mem_append.mp hx with hx | hx
    · exact hnewest x hx hown
    rw [mem_singleton.mp hx] at hown
    rcases hskip with hc | hg
    · exact absurd hown.1 (by simp [hc])
    · exact absurd hg hown.2
  rename_i hskip
  have hown : Owns gauge cut t := by
    rw [not_or] at hskip
    exact ⟨by simpa using hskip.1, hskip.2⟩
  dsimp only
  split
  · -- the panel has a texture already: the newer one takes its place
    rename_i hany
    obtain ⟨u, hu, hpanel⟩ := any_eq_true.mp hany
    rw [decide_eq_true_eq] at hpanel
    have hkey (x : Texture) (hx : panel_of gauge cut x = panel_of gauge cut t) :
        panel_of gauge cut (if t.id > x.id then t else x) = panel_of gauge cut x := by
      split
      · exact hx.symm
      · rfl
    refine ⟨?_, ?_, ?_⟩
    · intro x hx
      rcases keyed.mem_or_of_mem_modify hx with hx | ⟨y, hy, _, rfl⟩
      · exact ⟨hseen (howner x hx).1, (howner x hx).2⟩
      split
      · exact ⟨hlast, hown⟩
      · exact ⟨hseen (howner y hy).1, (howner y hy).2⟩
    · rw [keyed.map_key_modify_of hkey]
      exact hapart
    · intro x hx hx'
      have hold : ∃ y ∈ out, panel_of gauge cut y = panel_of gauge cut x ∧ (x.id ≤ y.id ∨ x = t) := by
        rcases mem_append.mp hx with hx | hx
        · obtain ⟨y, hy, hp, hid⟩ := hnewest x hx hx'
          exact ⟨y, hy, hp, .inl hid⟩
        rw [mem_singleton.mp hx]
        exact ⟨u, hu, hpanel, .inr rfl⟩
      obtain ⟨y, hy, hp, hid⟩ := hold
      by_cases hk : panel_of gauge cut y = panel_of gauge cut t
      · refine ⟨_, keyed.mem_modify_self hapart hy hk, (hkey y hk).trans hp, ?_⟩
        rcases hid with hid | rfl
        · split <;> omega
        · split <;> omega
      refine ⟨y, keyed.mem_modify_of_ne hy hk, hp, ?_⟩
      rcases hid with hid | rfl
      · exact hid
      · exact absurd hp hk
  · -- the first texture of its panel
    rename_i hany
    refine ⟨?_, ?_, ?_⟩
    · intro x hx
      rcases mem_append.mp hx with hx | hx
      · exact ⟨hseen (howner x hx).1, (howner x hx).2⟩
      rw [mem_singleton.mp hx]
      exact ⟨hlast, hown⟩
    · rw [map_append, map_singleton]
      refine nodup_append.mpr ⟨hapart, nodup_singleton _, ?_⟩
      intro a ha b hb hab
      obtain ⟨x, hx, rfl⟩ := mem_map.mp ha
      rw [mem_singleton.mp hb] at hab
      exact hany (any_eq_true.mpr ⟨x, hx, decide_eq_true hab⟩)
    · intro x hx hx'
      rcases mem_append.mp hx with hx | hx
      · obtain ⟨y, hy, hp, hid⟩ := hnewest x hx hx'
        exact ⟨y, mem_append_left _ hy, hp, hid⟩
      rw [mem_singleton.mp hx]
      exact ⟨t, mem_append_right _ (mem_singleton.mpr rfl), rfl, Nat.le_refl _⟩

theorem owners_loop (h : NewestOfPanels gauge cut seen out) (rest : List Texture) :
    NewestOfPanels gauge cut (seen ++ rest) (rest.foldl (own gauge cut) out) := by
  induction rest generalizing seen out with
  | nil =>
    rw [append_nil]
    exact h
  | cons t rest ih =>
    rw [foldl_cons, append_cons]
    exact ih (own_keeps h t)

theorem owners_newest (s : Store) (gauge : List UInt8) (cut : Bool) :
    NewestOfPanels gauge cut s.textures (s.owners gauge cut) := by
  have hstart : NewestOfPanels gauge cut [] [] :=
    ⟨fun t ht => absurd ht not_mem_nil, nodup_nil, fun t ht => absurd ht not_mem_nil⟩
  have hloop := owners_loop hstart s.textures
  rw [nil_append] at hloop
  have hperm := perm_insertionSort (fun a b => panel_of gauge cut a ≤ panel_of gauge cut b)
    (s.textures.foldl (own gauge cut) [])
  refine ⟨fun t ht => hloop.owner t (hperm.mem_iff.mp ht), ?_, ?_⟩
  · exact (hperm.map _).nodup_iff.mpr hloop.apart
  · intro t ht hown
    obtain ⟨u, hu, h⟩ := hloop.newest t ht hown
    exact ⟨u, hperm.mem_iff.mpr hu, h⟩

/-- The owners are in the order of their panels, each panel once. -/
theorem owners_sorted (s : Store) (gauge : List UInt8) (cut : Bool) :
    ((s.owners gauge cut).map (panel_of gauge cut)).Pairwise (· < ·) := by
  have hle : ((s.owners gauge cut).map (panel_of gauge cut)).Pairwise (· ≤ ·) :=
    pairwise_map.mpr (pairwise_insertionSort _ _)
  exact hle.imp₂ (fun _ _ hab hne => Nat.lt_of_le_of_ne hab hne) (s.owners_newest gauge cut).apart

end taxi_camera.mark_identity.Store
