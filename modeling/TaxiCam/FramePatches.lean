-- The views that the frame output gives out: a patch is returned only while
-- the last recording that wrote its buffer wrote a texture of its format and
-- size, in every run of requests, prepares, submissions and discards.
import TaxiCam.FrameBuffers

namespace taxi_camera.SceneFrameOutput

open List
open Function (update_of_ne update_self)

variable {d : Platform} {s s' : SceneFrameOutput} {i j : Fin 8}

/-! ## What a view says -/

/-- A submitted recording wrote a texture of this format and size from the slot into the
buffer. Since then nothing gave the slot to another shape or retired the buffer, and whatever
else was submitted for the buffer has the same format and size. -/
def Wrote (s : SceneFrameOutput) (i : Fin 8) (b : Nat) (footprint : PlacedFootprint)
    (format width height : Nat) : Prop :=
  ∃ before copies after, s.log = before ++ Event.submitted copies :: after ∧
    (∃ c ∈ copies, c.slot = i ∧ c.target = some b ∧ c.footprint = footprint ∧
      s.resource c.source = some (.texture format width height)) ∧
    Event.reused i ∉ after ∧ Event.retired b ∉ after ∧
    ∀ later, Event.submitted later ∈ after → ∀ c ∈ later, c.target = some b →
      s.resource c.source = some (.texture format width height)

/-- What the flags of a slot say about its texture, its buffer and the recordings. -/
structure Shown (d : Platform) (s : SceneFrameOutput) (i : Fin 8) : Prop where
  empty : (s.patches i).width = 0 → (s.patches i).texture = none
  layout : ∀ t, (s.patches i).texture = some t → (s.patches i).view.footprint =
    (d.get_copyable_footprints (s.patches i).texture_format (s.patches i).texture_width
      (s.patches i).texture_height).1
  marked : (s.patches i).written ∨ (s.patches i).recorded → (s.patches i).texture ≠ none ∧
    (s.patches i).texture_is (s.patches i).format (s.patches i).width (s.patches i).height
  listed : (s.patches i).recorded → ∀ b, (s.patches i).view.buffer = some b →
    ∃ c ∈ s.list, c.slot = i ∧ c.target = some b ∧
      c.footprint = (s.patches i).view.footprint ∧ s.resource c.source =
        some (.texture (s.patches i).format (s.patches i).width (s.patches i).height)
  agrees : (s.patches i).written ∨ (s.patches i).recorded →
    ∀ b, (s.patches i).view.buffer = some b → ∀ c ∈ s.list, c.target = some b →
      s.resource c.source =
        some (.texture (s.patches i).format (s.patches i).width (s.patches i).height)
  wrote : (s.patches i).written → ∀ b, (s.patches i).view.buffer = some b →
    s.Wrote i b (s.patches i).view.footprint (s.patches i).format (s.patches i).width
      (s.patches i).height

/-- A slot without marks says nothing but its layout. -/
theorem shown_unmarked (hw : (s.patches i).written = false) (hr : (s.patches i).recorded = false)
    (he : (s.patches i).width = 0 → (s.patches i).texture = none)
    (hl : ∀ t, (s.patches i).texture = some t → (s.patches i).view.footprint =
      (d.get_copyable_footprints (s.patches i).texture_format (s.patches i).texture_width
        (s.patches i).texture_height).1) : Shown d s i := by
  have hm : ¬((s.patches i).written = true ∨ (s.patches i).recorded = true) := by
    rw [hw, hr]
    simp
  refine ⟨he, hl, fun h => absurd h hm, ?_, fun h => absurd h hm, ?_⟩
  · intro h
    exact absurd (.inr h) hm
  · intro h
    exact absurd (.inl h) hm

theorem Shown.unmarked (h : Shown d s i) (ht : (s.patches i).texture = none) :
    (s.patches i).written = false ∧ (s.patches i).recorded = false := by
  constructor
  · by_contra hw
    exact (h.marked (.inl (by simpa using hw))).1 ht
  · by_contra hr
    exact (h.marked (.inr (by simpa using hr))).1 ht

/-! ## Frames -/

theorem Wrote.frame {b : Nat} {footprint : PlacedFootprint} {format width height : Nat}
    (more : List Event) (h : s.Wrote i b footprint format width height)
    (hc : s.created <+: s'.created) (hlog : s'.log = s.log ++ more)
    (hreused : Event.reused i ∉ more) (hretired : Event.retired b ∉ more)
    (hlater : ∀ later, Event.submitted later ∈ more → ∀ c ∈ later, c.target = some b →
      s'.resource c.source = some (.texture format width height)) :
    s'.Wrote i b footprint format width height := by
  obtain ⟨before, copies, after, hsplit, ⟨c, hcm, hslot, htarget, hfoot, hshape⟩, hu, ht, hall⟩ := h
  refine ⟨before, copies, after ++ more, ?_, ⟨c, hcm, hslot, htarget, hfoot, ?_⟩, ?_, ?_, ?_⟩
  · rw [hlog, hsplit, append_assoc, cons_append]
  · exact resource_mono hc hshape
  · rw [mem_append]
    exact fun h => h.elim hu hreused
  · rw [mem_append]
    exact fun h => h.elim ht hretired
  · intro later hl x hx htx
    rcases mem_append.mp hl with hl | hl
    · exact resource_mono hc (hall later hl x hx htx)
    · exact hlater later hl x hx htx

/-- The events leave a slot with this buffer alone. -/
structure Leaves (i : Fin 8) (buffer : Option Nat) (more : List Event) : Prop where
  reused : Event.reused i ∉ more
  retired : ∀ b, buffer = some b → Event.retired b ∉ more
  submitted : ∀ copies, Event.submitted copies ∉ more

theorem leaves_nil (buffer : Option Nat) : Leaves i buffer [] :=
  ⟨not_mem_nil, fun _ _ => not_mem_nil, fun _ => not_mem_nil⟩

/-- A slot that a step leaves alone, up to the time of its request. -/
theorem Shown.frame (h : Shown d s j) (more : List Event) (now : Nat)
    (hp : s'.patches j = { s.patches j with requested_ms := now })
    (hc : s.created <+: s'.created) (hlist : ∀ c ∈ s.list, c ∈ s'.list)
    (hnew : ∀ c ∈ s'.list, c ∈ s.list ∨ ∀ b, c.target = some b → (s.patches j).view.buffer ≠ some b)
    (hlog : s'.log = s.log ++ more) (hm : Leaves j (s.patches j).view.buffer more) :
    Shown d s' j := by
  constructor
  · rw [hp]
    exact h.empty
  · rw [hp]
    exact h.layout
  · rw [hp]
    exact h.marked
  · rw [hp]
    intro hr b hb
    obtain ⟨c, hcm, hslot, htarget, hfoot, hshape⟩ := h.listed hr b hb
    exact ⟨c, hlist c hcm, hslot, htarget, hfoot, resource_mono hc hshape⟩
  · rw [hp]
    intro hr b hb c hcm ht
    rcases hnew c hcm with hold | hother
    · exact resource_mono hc (h.agrees hr b hb c hold ht)
    · exact absurd hb (hother b ht)
  · rw [hp]
    intro hw b hb
    exact (h.wrote hw b hb).frame _ hc hlog hm.reused (hm.retired b hb) fun later hl => absurd hl (hm.submitted later)

/-! ## What providing a texture does -/

/-- The slot has a new texture of its shape, and a buffer that holds a copy of it. -/
structure Provided (d : Platform) (s : SceneFrameOutput) (i : Fin 8) (s' : SceneFrameOutput) :
    Prop where
  patch : ∃ b bytes, (d.get_copyable_footprints (s.patches i).format (s.patches i).width
      (s.patches i).height).2 ≤ bytes ∧
    s'.patches i = { s.patches i with
      view := ⟨some b, (d.get_copyable_footprints (s.patches i).format (s.patches i).width
        (s.patches i).height).1⟩
      texture := some s.created.length
      texture_format := (s.patches i).format
      texture_width := (s.patches i).width
      texture_height := (s.patches i).height
      buffer_bytes := bytes }
  others : ∀ j, j ≠ i → s'.patches j = s.patches j
  created : s.created <+: s'.created
  list : s'.list = s.list
  log : ∃ more, s'.log = s.log ++ more ∧
    (more = [] ∨ ∃ b, (s.patches i).view.buffer = some b ∧ more = [Event.retired b])
  failed : s'.failed = s.failed

@[simp] theorem new_texture_patches : (s.new_texture i).patches i =
    { s.patches i with texture := some s.created.length, texture_width := (s.patches i).width
                       texture_height := (s.patches i).height
                       texture_format := (s.patches i).format } := update_self ..

theorem new_texture_others (hj : j ≠ i) : (s.new_texture i).patches j = s.patches j := update_of_ne hj ..

@[simp] theorem retire_patches (b : Nat) : (s.retire i b).patches i =
    { s.patches i with view := { (s.patches i).view with buffer := none } } :=
  update_self ..

theorem retire_others (b : Nat) (hj : j ≠ i) : (s.retire i b).patches j = s.patches j := update_of_ne hj ..

@[simp] theorem new_buffer_patches (bytes : Nat) : (s.new_buffer i bytes).patches i =
    { s.patches i with view := { (s.patches i).view with buffer := some s.created.length }
                       buffer_bytes := bytes } := update_self ..

theorem new_buffer_others (bytes : Nat) (hj : j ≠ i) :
    (s.new_buffer i bytes).patches j = s.patches j := update_of_ne hj ..

/-- The buffer step: the slot keeps its buffer, or has a new one. -/
structure Buffered (s : SceneFrameOutput) (i : Fin 8) (bytes : Nat) (s' : SceneFrameOutput) :
    Prop where
  patch : ∃ b n, bytes ≤ n ∧
    s'.patches i = { s.patches i with view := { (s.patches i).view with buffer := some b }
                                      buffer_bytes := n }
  others : ∀ j, j ≠ i → s'.patches j = s.patches j
  created : s.created <+: s'.created
  list : s'.list = s.list
  log : ∃ more, s'.log = s.log ++ more ∧
    (more = [] ∨ ∃ b, (s.patches i).view.buffer = some b ∧ more = [Event.retired b])
  failed : s'.failed = s.failed

variable {rest : List (Fin 8)} {o : SlotOutcome}

theorem buffered {bytes : Nat} {t : SceneFrameOutput}
    (ht : s.retire_small i bytes = .ok t) (h : t.provide_buffer o i bytes = .ok s') :
    Buffered s i bytes s' := by
  unfold retire_small at ht
  cases hb : (s.patches i).view.buffer with
  | none =>
    rw [hb] at ht
    cases ht
    unfold provide_buffer at h
    rw [hb] at h
    dsimp only at h
    split at h
    · cases h
    cases h
    exact ⟨⟨_, bytes, le_rfl, new_buffer_patches bytes⟩, fun j hj => new_buffer_others bytes hj,
      prefix_append .., rfl, ⟨[], (append_nil _).symm, .inl rfl⟩, rfl⟩
  | some b =>
    rw [hb] at ht
    dsimp only at ht
    split at ht
    · rename_i hsmall
      split at ht
      · cases ht
      cases ht
      unfold provide_buffer at h
      rw [retire_patches] at h
      dsimp only at h
      split at h
      · cases h
      cases h
      refine ⟨⟨(s.retire i b).created.length, bytes, le_rfl, ?_⟩, ?_, prefix_append .., rfl,
        ⟨[.retired b], rfl, .inr ⟨b, hb, rfl⟩⟩, rfl⟩
      · rw [new_buffer_patches, retire_patches]
      · intro j hj
        rw [new_buffer_others bytes hj, retire_others b hj]
    rename_i hfits
    cases ht
    unfold provide_buffer at h
    rw [hb] at h
    cases h
    refine ⟨⟨b, (s.patches i).buffer_bytes, Nat.le_of_not_lt hfits, ?_⟩, fun _ _ => rfl,
      prefix_refl _, rfl, ⟨[], (append_nil _).symm, .inl rfl⟩, rfl⟩
    rw [← hb]

theorem provide_texture_ok (h : s.provide_texture d o i = .ok s') :
    (∃ t, (s.patches i).texture = some t ∧ s' = s) ∨ (s.patches i).texture = none ∧ Provided d s i s' := by
  unfold provide_texture at h
  dsimp only at h
  split at h
  · rename_i t ht
    cases h
    exact .inl ⟨t, ht, rfl⟩
  rename_i hnone
  refine .inr ⟨hnone, ?_⟩
  split at h
  · cases h
  split at h
  · cases h
  rename_i t ht
  split at h
  · cases h
  rename_i u hu
  cases h
  have hbuf := buffered ht hu
  obtain ⟨b, n, hn, hpatch⟩ := hbuf.patch
  obtain ⟨more, hlog, hmore⟩ := hbuf.log
  refine ⟨⟨b, n, hn, ?_⟩, ?_, ?_, hbuf.list, ⟨more, hlog, ?_⟩, hbuf.failed⟩
  · rw [set_patch_patches, if_pos rfl, hpatch, new_texture_patches]
  · intro j hj
    rw [set_patch_patches, if_neg hj, hbuf.others j hj, new_texture_others hj]
  · exact (prefix_append ..).trans hbuf.created
  · rw [new_texture_patches] at hmore
    exact hmore

/-! ## What the calls keep of the buffers -/

/-- The state that a call of `prepare_patches` leaves, whether it fails or not. -/
def settled : Except SceneFrameOutput SceneFrameOutput → SceneFrameOutput
  | .ok s => s
  | .error s => s

theorem Held.drop_texture (h : Held s) (i : Fin 8) : Held (s.drop_texture i) := by
  unfold SceneFrameOutput.drop_texture
  dsimp only
  split
  · rename_i t ht
    split
    · exact h
    refine h.same (same_set_patch ⟨rfl, rfl, fun _ _ => rfl, fun _ he => ?_⟩) rfl rfl rfl id ?_
    · cases he
    · intro x hx
      rcases mem_append.mp hx with hx | hx
      · exact .inl hx
      rw [mem_singleton] at hx
      subst hx
      exact .inr ⟨_, _, _, h.textured i _ ht⟩
  · exact h

theorem Held.provide_texture (h : Held s) (o : SlotOutcome) (i : Fin 8) :
    Held (settled (s.provide_texture d o i)) := by
  unfold SceneFrameOutput.provide_texture
  dsimp only
  split
  · exact h
  split
  · exact h.fail _
  have hnew := h.new_texture i
  have hsmall : Held (settled ((s.new_texture i).retire_small i
      (d.get_copyable_footprints (s.patches i).format (s.patches i).width (s.patches i).height).2)) := by
    unfold retire_small
    split
    · rename_i b hb
      split
      · split
        · exact hnew.fail _
        rename_i hroom
        exact hnew.retire hb (Nat.lt_of_le_of_ne hnew.retired_le hroom)
      · exact hnew
    · exact hnew
  split
  · rename_i e he
    rw [he] at hsmall
    exact hsmall
  rename_i t ht
  rw [ht] at hsmall
  have hbuffer : Held (settled (t.provide_buffer o i
      (d.get_copyable_footprints (s.patches i).format (s.patches i).width (s.patches i).height).2)) := by
    unfold provide_buffer
    split
    · exact hsmall
    rename_i hb
    split
    · exact hsmall.fail _
    · exact new_buffer hsmall hb _
  split
  · rename_i e he
    rw [he] at hbuffer
    exact hbuffer
  rename_i u hu
  rw [hu] at hbuffer
  exact set_patch hbuffer ⟨rfl, rfl, fun _ _ => rfl, fun _ ht => ⟨ht, rfl, rfl, rfl⟩⟩

theorem draw_cases (catalog : profiles.Catalog) (o : SlotOutcome) (s : SceneFrameOutput) (i : Fin 8) :
    s.draw catalog o i = .ok s ∨ ∃ error, s.draw catalog o i = .error (s.fail error) := by
  unfold draw
  split
  · split
    · exact .inl rfl
    · exact .inr ⟨_, rfl⟩
  split
  · exact .inl rfl
  · exact .inr ⟨_, rfl⟩

theorem Held.record_copy (h : Held s) (i : Fin 8) : Held (s.record_copy i) :=
  h.same (same_set_patch ⟨rfl, rfl, fun _ _ => rfl, fun _ ht => ⟨ht, rfl, rfl, rfl⟩⟩) rfl rfl rfl
    id (fun _ ht => .inl ht)

/-! ## Recording the patches of one list -/

/-- While a list is recorded: its copies are the ones of the slots recorded so far, and the
slots in `rest` are not. -/
structure Preparing (d : Platform) (s : SceneFrameOutput) (rest : List (Fin 8)) : Prop where
  held : Held s
  shown : ∀ j, Shown d s j
  copies : ∀ c ∈ s.list, (s.patches c.slot).recorded ∧ (s.patches c.slot).view.buffer = c.target
  rest : ∀ i ∈ rest, (s.patches i).recorded = false

theorem drop_texture_others (hj : j ≠ i) : (s.drop_texture i).patches j = s.patches j := by
  unfold drop_texture
  dsimp only
  split
  · split
    · rfl
    rw [set_patch_patches, if_neg hj]
  · rfl

/-- A texture is let go only from a slot without marks. -/
theorem drop_texture_patch (h : Shown d s i) : ((s.drop_texture i).patches i = s.patches i ∧
      ∀ t, (s.patches i).texture = some t →
        (s.patches i).texture_is (s.patches i).format (s.patches i).width (s.patches i).height) ∨
    (s.drop_texture i).patches i = { s.patches i with texture := none } ∧
      (s.patches i).written = false ∧ (s.patches i).recorded = false := by
  unfold drop_texture
  dsimp only
  split
  · rename_i t ht
    split
    · rename_i his
      exact .inl ⟨rfl, fun _ _ => his⟩
    rename_i hnot
    refine .inr ⟨?_, ?_, ?_⟩
    · rw [set_patch_patches, if_pos rfl]
    · by_contra hw
      exact hnot (h.marked (.inl (by simpa using hw))).2
    · by_contra hr
      exact hnot (h.marked (.inr (by simpa using hr))).2
  rename_i hnone
  refine .inl ⟨rfl, fun t ht => ?_⟩
  rw [hnone] at ht
  cases ht

theorem drop_texture_same : (s.drop_texture i).created = s.created ∧
    (s.drop_texture i).list = s.list ∧ (s.drop_texture i).log = s.log ∧ (s.drop_texture i).failed = s.failed := by
  unfold drop_texture
  dsimp only
  split
  · split <;> exact ⟨rfl, rfl, rfl, rfl⟩
  · exact ⟨rfl, rfl, rfl, rfl⟩

theorem Preparing.drop_texture (h : Preparing d s (i :: rest)) : Preparing d (s.drop_texture i) (i :: rest) := by
  obtain ⟨hc, hl, hlog, -⟩ := @drop_texture_same s i
  have hflags : ∀ j, ((s.drop_texture i).patches j).recorded = (s.patches j).recorded ∧
      ((s.drop_texture i).patches j).view = (s.patches j).view := by
    intro j
    by_cases hj : j = i
    · subst hj
      rcases drop_texture_patch (h.shown j) with ⟨he, -⟩ | ⟨he, -⟩ <;> rw [he] <;>
        exact ⟨rfl, rfl⟩
    rw [drop_texture_others hj]
    exact ⟨rfl, rfl⟩
  refine ⟨h.held.drop_texture i, fun j => ?_, fun c hcm => ?_, fun k hk => ?_⟩
  · by_cases hj : j = i
    · subst hj
      rcases drop_texture_patch (h.shown j) with ⟨he, -⟩ | ⟨he, hw, hr⟩
      · exact (h.shown j).frame _ _ he (hc ▸ prefix_refl _) (fun c hcm => hl ▸ hcm)
          (fun c hcm => .inl (hl ▸ hcm)) (hlog.trans (append_nil _).symm) (leaves_nil _)
      refine shown_unmarked ?_ ?_ ?_ ?_ <;> rw [he]
      · exact hw
      · exact hr
      · exact fun _ => rfl
      · intro t ht
        cases ht
    exact (h.shown j).frame _ _ (drop_texture_others hj) (hc ▸ prefix_refl _)
      (fun c hcm => hl ▸ hcm) (fun c hcm => .inl (hl ▸ hcm))
      (hlog.trans (append_nil _).symm) (leaves_nil _)
  · rw [(hflags c.slot).1, (hflags c.slot).2]
    exact h.copies c (hl ▸ hcm)
  · rw [(hflags k).1]
    exact h.rest k hk

/-- A slot of another shape's buffer is left alone by the retirement of one. -/
theorem leaves_retired (h : Held s) (hj : j ≠ i) {more : List Event}
    (hm : more = [] ∨ ∃ b, (s.patches i).view.buffer = some b ∧ more = [Event.retired b]) :
    Leaves j (s.patches j).view.buffer more := by
  rcases hm with rfl | ⟨b, hb, rfl⟩
  · exact leaves_nil _
  refine ⟨by simp, fun c hc hmem => ?_, by simp⟩
  rw [mem_singleton] at hmem
  cases hmem
  exact hj (h.unique j i _ hc hb)

theorem Provided.preparing (h : Preparing d s (i :: rest))
    (hn : (s.patches i).texture = none) (hw : (s.patches i).width ≠ 0) (hp : Provided d s i s')
    (hheld : Held s') : Preparing d s' (i :: rest) := by
  obtain ⟨b, bytes, -, hpatch⟩ := hp.patch
  obtain ⟨more, hlog, hmore⟩ := hp.log
  have hun := (h.shown i).unmarked hn
  refine ⟨hheld, fun j => ?_, fun c hcm => ?_, fun k hk => ?_⟩
  · by_cases hj : j = i
    · subst hj
      refine shown_unmarked ?_ ?_ ?_ ?_ <;> rw [hpatch]
      · exact hun.1
      · exact hun.2
      · exact fun h0 => absurd h0 hw
      · exact fun _ _ => rfl
    exact (h.shown j).frame _ _ (hp.others j hj) hp.created (fun c hcm => hp.list ▸ hcm)
      (fun c hcm => .inl (hp.list ▸ hcm)) hlog (leaves_retired h.held hj hmore)
  · have hold := h.copies c (hp.list ▸ hcm)
    have hne : c.slot ≠ i := by
      intro he
      rw [he, hun.2] at hold
      exact absurd hold.1 (by decide)
    rw [hp.others _ hne]
    exact hold
  · by_cases hki : k = i
    · subst hki
      rw [hpatch]
      exact hun.2
    rw [hp.others k hki]
    exact h.rest k hk

/-- The slot's copy is recorded, from its texture of its shape. -/
theorem Preparing.record_copy (h : Preparing d s (i :: rest)) (hi : i ∉ rest) (ht : (s.patches i).texture ≠ none)
    (his : (s.patches i).texture_is (s.patches i).format (s.patches i).width (s.patches i).height) :
    Preparing d (s.record_copy i) rest := by
  have hpatch : (s.record_copy i).patches i = { s.patches i with recorded := true } := update_self ..
  have hothers : ∀ j, j ≠ i → (s.record_copy i).patches j = s.patches j := fun j hj => update_of_ne hj ..
  obtain ⟨copy, hcopy, hslot, htarget, hfoot, hsource⟩ : ∃ copy : Copy,
      ((s.record_copy i).list = s.list ++ [copy] ∧
        (s.record_copy i).log = s.log ++ [.recorded copy]) ∧ copy.slot = i ∧
      copy.target = (s.patches i).view.buffer ∧ copy.footprint = (s.patches i).view.footprint ∧
      copy.source = (s.patches i).texture := ⟨_, ⟨rfl, rfl⟩, rfl, rfl, rfl, rfl⟩
  have hcreated : (s.record_copy i).created = s.created := rfl
  have hshape : (s.record_copy i).resource copy.source = some (.texture (s.patches i).format
      (s.patches i).width (s.patches i).height) := by
    obtain ⟨t, htex⟩ := Option.ne_none_iff_exists'.mp ht
    have hres := h.held.textured i t htex
    simp only [PatchStorage.texture_is, Bool.and_eq_true, beq_iff_eq] at his
    rw [his.2, his.1.1, his.1.2] at hres
    rw [hsource, htex]
    exact hres
  refine ⟨h.held.record_copy i, fun j => ?_, fun c hcm => ?_, fun k hk => ?_⟩
  · by_cases hj : j = i
    · subst hj
      constructor <;> rw [hpatch]
      · exact (h.shown j).empty
      · exact (h.shown j).layout
      · exact fun _ => ⟨ht, his⟩
      · intro _ b hb
        exact ⟨copy, hcopy.1 ▸ mem_append_right _ mem_cons_self, hslot, htarget.trans hb, hfoot, hshape⟩
      · -- An older copy of this list for the buffer would be one of this slot.
        intro _ b hb c hcm hct
        rw [hcopy.1] at hcm
        rcases mem_append.mp hcm with hold | hnew
        · obtain ⟨hrec, hbuf⟩ := h.copies c hold
          have he := h.held.unique c.slot j b (hbuf.trans hct) hb
          rw [he, h.rest j mem_cons_self] at hrec
          exact absurd hrec (by decide)
        rw [mem_singleton] at hnew
        subst hnew
        exact hshape
      · intro hw b hb
        refine ((h.shown j).wrote hw b hb).frame _ (hcreated ▸ prefix_refl _) hcopy.2 ?_ ?_ ?_
        · simp
        · simp
        · simp
    refine (h.shown j).frame _ _ (hothers j hj) (hcreated ▸ prefix_refl _)
      (fun c hcm => hcopy.1 ▸ mem_append_left _ hcm) (fun c hcm => ?_) hcopy.2
      ⟨by simp, by simp, by simp⟩
    rw [hcopy.1] at hcm
    rcases mem_append.mp hcm with hold | hnew
    · exact .inl hold
    rw [mem_singleton] at hnew
    subst hnew
    refine .inr fun b hb hbj => hj ?_
    exact h.held.unique j i b hbj (htarget.symm.trans hb)
  · rw [hcopy.1] at hcm
    rcases mem_append.mp hcm with hold | hnew
    · have hc := h.copies c hold
      have hne : c.slot ≠ i := by
        intro he
        rw [he, h.rest i mem_cons_self] at hc
        exact absurd hc.1 (by decide)
      rw [hothers _ hne]
      exact hc
    rw [mem_singleton] at hnew
    subst hnew
    rw [hslot, hpatch]
    exact ⟨rfl, htarget.symm⟩
  · rw [hothers k (fun he => hi (he ▸ hk))]
    exact h.rest k (mem_cons_of_mem _ hk)

/-- A call that went wrong leaves the buffers as they should be, and the output failed. -/
structure Broken (s : SceneFrameOutput) : Prop where
  held : Held s
  failed : s.failed = true

theorem broken_fail (h : Held s) (error : String) : Broken (s.fail error) := ⟨h.fail error, rfl⟩

theorem provide_texture_error (h : s.provide_texture d o i = .error s') : s'.failed = true := by
  unfold provide_texture at h
  dsimp only at h
  split at h
  · cases h
  split at h
  · cases h
    rfl
  split at h
  · rename_i e he
    cases h
    unfold retire_small at he
    split at he
    · split at he
      · split at he
        · cases he
          rfl
        · cases he
      · cases he
    · cases he
  split at h
  · rename_i e he
    cases h
    unfold provide_buffer at he
    split at he
    · cases he
    split at he
    · cases he
      rfl
    · cases he
  · cases h

/-- One slot. -/
theorem prepare_patch_preparing (catalog : profiles.Catalog) (slots : Fin 8 → SlotOutcome) (h : Preparing d s (i :: rest)) (hi : i ∉ rest) :
    (∀ e, prepare_patch d catalog slots s i = .error e → Broken e) ∧
      ∀ t, prepare_patch d catalog slots s i = .ok t → Preparing d t rest := by
  unfold prepare_patch
  by_cases hw : (s.patches i).width = 0
  · rw [if_pos hw]
    refine ⟨nofun, fun t ht => ?_⟩
    cases ht
    exact ⟨h.held, h.shown, h.copies, fun k hk => h.rest k (mem_cons_of_mem _ hk)⟩
  rw [if_neg hw]
  have hdrop := h.drop_texture
  have hwd : ((s.drop_texture i).patches i).width ≠ 0 := by
    rcases drop_texture_patch (h.shown i) with ⟨he, -⟩ | ⟨he, -⟩ <;> rw [he] <;> exact hw
  have hheld := hdrop.held.provide_texture (d := d) (slots i) i
  split
  · rename_i e he
    rw [he] at hheld
    refine ⟨fun x hx => ?_, nofun⟩
    cases hx
    exact ⟨hheld, provide_texture_error he⟩
  rename_i u hu
  rw [hu] at hheld
  have hprep : Preparing d u (i :: rest) ∧ (u.patches i).texture ≠ none ∧
      (u.patches i).texture_is (u.patches i).format (u.patches i).width (u.patches i).height := by
    rcases provide_texture_ok hu with ⟨t, ht, rfl⟩ | ⟨hn, hp⟩
    · refine ⟨hdrop, by rw [ht]; exact nofun, ?_⟩
      rcases drop_texture_patch (h.shown i) with ⟨he, his⟩ | ⟨he, -⟩
      · rw [he] at ht ⊢
        exact his t ht
      rw [he] at ht
      cases ht
    obtain ⟨b, bytes, -, hpatch⟩ := hp.patch
    refine ⟨hp.preparing hdrop hn hwd hheld, ?_, ?_⟩
    · rw [hpatch]
      exact nofun
    · rw [hpatch]
      simp [PatchStorage.texture_is]
  obtain ⟨hprep, ht, his⟩ := hprep
  rcases draw_cases catalog (slots i) u i with hd | ⟨error, hd⟩
  · rw [hd]
    refine ⟨nofun, fun t hx => ?_⟩
    cases hx
    exact hprep.record_copy hi ht his
  rw [hd]
  refine ⟨fun e he => ?_, nofun⟩
  cases he
  exact broken_fail hprep.held error

/-- All slots, in order. -/
theorem prepare_patches_preparing (catalog : profiles.Catalog) (slots : Fin 8 → SlotOutcome) (hn : rest.Nodup) (h : Preparing d s rest) :
    (∀ e, rest.foldlM (prepare_patch d catalog slots) s = .error e → Broken e) ∧
      ∀ t, rest.foldlM (prepare_patch d catalog slots) s = .ok t → Preparing d t [] := by
  induction rest generalizing s with
  | nil =>
    refine ⟨nofun, fun t ht => ?_⟩
    cases ht
    exact h
  | cons i rest ih =>
    obtain ⟨hi, hn⟩ := nodup_cons.mp hn
    obtain ⟨herror, hok⟩ := prepare_patch_preparing catalog slots h hi
    rw [foldlM_cons]
    cases hx : prepare_patch d catalog slots s i with
    | error e =>
      refine ⟨fun e' he => ?_, nofun⟩
      cases he
      exact herror e hx
    | ok t => exact ih hn (hok t hx)

end taxi_camera.SceneFrameOutput
