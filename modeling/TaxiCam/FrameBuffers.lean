-- Where the buffers of the frame output are: each one that was created stays
-- in a slot or among the retired ones, no two slots share one, and no two
-- slots hold the same shape.
import TaxiCam.FrameOutput

namespace taxi_camera

open List

namespace SceneFrameOutput

variable {d : Platform} {s s' : SceneFrameOutput} {i j : Fin 8}

@[simp] theorem set_patch_patches (p : PatchStorage) :
    (s.set_patch i p).patches j = if j = i then p else s.patches j := by
  exact Function.update_apply ..

/-! ## Resources -/

theorem getElem?_snoc {α : Type} {l : List α} {x y : α} {n : Nat} :
    (l ++ [x])[n]? = some y ↔ l[n]? = some y ∨ n = l.length ∧ x = y := by
  rcases Nat.lt_trichotomy n l.length with h | h | h
  · rw [getElem?_append_left h]
    constructor
    · exact .inl
    · rintro (hl | ⟨rfl, -⟩)
      · exact hl
      · omega
  · subst h
    simp
  rw [getElem?_eq_none (by simp; omega), getElem?_eq_none (by omega)]
  simp
  omega

/-- What a pointer points to. -/
def resource (s : SceneFrameOutput) (pointer : Option Nat) : Option Resource :=
  pointer.bind fun n => s.created[n]?

theorem resource_mono (hc : s.created <+: s'.created) {pointer : Option Nat} {r : Resource}
    (h : s.resource pointer = some r) : s'.resource pointer = some r := by
  obtain ⟨more, hmore⟩ := hc
  cases pointer with
  | none => cases h
  | some n =>
    have hn : s.created[n]? = some r := h
    have hlt : n < s.created.length := (List.getElem?_eq_some_iff.mp hn).1
    show s'.created[n]? = some r
    rw [← hmore, List.getElem?_append_left hlt]
    exact hn

/-! ## The invariant -/

/-- A slot, the retired ones or the output itself have the buffer. -/
def holds (s : SceneFrameOutput) (b : Nat) : Prop :=
  s.buffer = some b ∨ b ∈ s.retired_buffers ∨ ∃ i, (s.patches i).view.buffer = some b

end SceneFrameOutput

/-- What a slot is for. -/
def PatchStorage.shape (p : PatchStorage) : Nat × Nat × Nat × Rect :=
  (p.format, p.width, p.height, p.content)

namespace SceneFrameOutput

variable {d : Platform} {s s' : SceneFrameOutput} {i j : Fin 8}

/-- Every pointer points to what its slot says, and no buffer is lost. -/
structure Held (s : SceneFrameOutput) : Prop where
  retired_le : s.retired_buffers.length ≤ RetiredBuffers
  kept : ∀ b n, s.created[b]? = some (.buffer n) → s.holds b
  sized : ∀ i b, (s.patches i).view.buffer = some b →
    s.created[b]? = some (.buffer (s.patches i).buffer_bytes)
  textured : ∀ i t, (s.patches i).texture = some t →
    s.created[t]? = some (.texture (s.patches i).texture_format (s.patches i).texture_width
      (s.patches i).texture_height)
  released : ∀ t ∈ s.released, ∃ format width height,
    s.created[t]? = some (.texture format width height)
  unique : ∀ i j b, (s.patches i).view.buffer = some b → (s.patches j).view.buffer = some b → i = j
  distinct : ∀ i j, i ≠ j → (s.patches i).width ≠ 0 → (s.patches i).shape ≠ (s.patches j).shape
  own : s.device = 0 → s.buffer = none

theorem held_empty : Held {} where
  retired_le := Nat.zero_le _
  kept b n h := by simp at h
  sized i b h := by cases h
  textured i t h := by cases h
  released t h := by cases h
  unique i j b h := by cases h
  distinct i j _ h := absurd rfl h
  own _ := rfl

/-- A released resource is a texture. -/
theorem Held.not_released (h : Held s) {b n : Nat} (hb : s.created[b]? = some (.buffer n)) : b ∉ s.released := by
  intro hr
  obtain ⟨format, width, height, ht⟩ := h.released b hr
  rw [hb] at ht
  cases ht

/-- The slot has the same shape and buffer, and no other texture. -/
structure Same (p q : PatchStorage) : Prop where
  shape : q.shape = p.shape
  buffer : q.view.buffer = p.view.buffer
  bytes : ∀ b, q.view.buffer = some b → q.buffer_bytes = p.buffer_bytes
  texture : ∀ t, q.texture = some t → p.texture = some t ∧
    q.texture_format = p.texture_format ∧ q.texture_width = p.texture_width ∧
      q.texture_height = p.texture_height

variable {p : PatchStorage}

theorem Same.width {q : PatchStorage} (h : Same p q) : q.width = p.width := congrArg (fun x => x.2.1) h.shape

theorem same_refl (p : PatchStorage) : Same p p := ⟨rfl, rfl, fun _ _ => rfl, fun _ h => ⟨h, rfl, rfl, rfl⟩⟩

theorem same_set_patch (hp : Same (s.patches i) p) (j : Fin 8) :
    Same (s.patches j) ((s.set_patch i p).patches j) := by
  rw [set_patch_patches]
  split
  · rename_i he
    subst he
    exact hp
  · exact same_refl _

/-- A step that leaves shapes and buffers alone. -/
theorem Held.same (h : Held s) (hp : ∀ j, Same (s.patches j) (s'.patches j))
    (hr : s'.retired_buffers = s.retired_buffers) (hb : s'.buffer = s.buffer)
    (hc : s'.created = s.created) (hdev : s.device ≠ 0 → s'.device ≠ 0)
    (hrel : ∀ t ∈ s'.released, t ∈ s.released ∨ ∃ format width height,
      s.created[t]? = some (.texture format width height)) : Held s' where
  retired_le := hr ▸ h.retired_le
  kept b n hcr := by
    rw [hc] at hcr
    rcases h.kept b n hcr with ho | hret | ⟨k, hk⟩
    · exact .inl (hb.trans ho)
    · exact .inr (.inl (hr ▸ hret))
    · exact .inr (.inr ⟨k, (hp k).buffer.trans hk⟩)
  sized k b hk := by
    rw [hc, (hp k).bytes b hk]
    exact h.sized k b ((hp k).buffer.symm.trans hk)
  textured k t hk := by
    obtain ⟨ht, hf, hw, hh⟩ := (hp k).texture t hk
    rw [hc, hf, hw, hh]
    exact h.textured k t ht
  released t ht := by
    rw [hc]
    rcases hrel t ht with hold | hnew
    · exact h.released t hold
    · exact hnew
  unique k l b hk hl := h.unique k l b ((hp k).buffer.symm.trans hk) ((hp l).buffer.symm.trans hl)
  distinct k l hne hw := by
    rw [(hp k).shape, (hp l).shape]
    exact h.distinct k l hne ((hp k).width ▸ hw)
  own h0 := by
    by_cases hd : s.device = 0
    · rw [hb]
      exact h.own hd
    · exact absurd h0 (hdev hd)

theorem Held.fail (h : Held s) (error : String) : Held (s.fail error) :=
  h.same (fun _ => same_refl _) rfl rfl rfl id (fun _ ht => .inl ht)

theorem Held.set_patch (h : Held s) (hp : Same (s.patches i) p) : Held (s.set_patch i p) :=
  h.same (same_set_patch hp) rfl rfl rfl id (fun _ ht => .inl ht)

/-! ## What moves a buffer or a texture -/

theorem Held.retire (h : Held s) {b : Nat} (hb : (s.patches i).view.buffer = some b)
    (hroom : s.retired_buffers.length < RetiredBuffers) : Held (s.retire i b) := by
  have hpatch : ∀ j, (s.retire i b).patches j =
      if j = i then { s.patches i with view := { (s.patches i).view with buffer := none } }
      else s.patches j := fun j => Function.update_apply ..
  have hbuffer : ∀ j c, ((s.retire i b).patches j).view.buffer = some c →
      j ≠ i ∧ (s.retire i b).patches j = s.patches j := by
    intro j c hc
    rw [hpatch] at hc
    split at hc
    · cases hc
    rename_i hj
    exact ⟨hj, by rw [hpatch, if_neg hj]⟩
  have hshape : ∀ j, ((s.retire i b).patches j).shape = (s.patches j).shape := by
    intro j
    rw [hpatch]
    split
    · rename_i hj
      rw [hj]
      rfl
    · rfl
  refine ⟨?_, ?_, ?_, ?_, h.released, ?_, ?_, h.own⟩
  · show (s.retired_buffers ++ [b]).length ≤ RetiredBuffers
    rw [length_append]
    exact hroom
  · intro c n hc
    rcases h.kept c n hc with ho | hret | ⟨k, hk⟩
    · exact .inl ho
    · exact .inr (.inl (mem_append_left _ hret))
    by_cases hki : k = i
    · subst hki
      rw [hb] at hk
      cases hk
      exact .inr (.inl (mem_append_right _ mem_cons_self))
    refine .inr (.inr ⟨k, ?_⟩)
    rw [hpatch, if_neg hki]
    exact hk
  · intro k c hk
    obtain ⟨-, he⟩ := hbuffer k c hk
    rw [he] at hk ⊢
    exact h.sized k c hk
  · intro k t hk
    rw [hpatch] at hk ⊢
    split at hk
    · rename_i hki
      subst hki
      rw [if_pos rfl]
      exact h.textured k t hk
    rename_i hki
    rw [if_neg hki]
    exact h.textured k t hk
  · intro k l c hk hl
    have ek := (hbuffer k c hk).2
    have el := (hbuffer l c hl).2
    rw [ek] at hk
    rw [el] at hl
    exact h.unique k l c hk hl
  · intro k l hne hw
    rw [hshape, hshape]
    refine h.distinct k l hne ?_
    have := congrArg (fun x => x.2.1) (hshape k)
    exact fun h0 => hw (this.trans h0)

theorem Held.new_texture (h : Held s) (i : Fin 8) : Held (s.new_texture i) := by
  have hpatch : ∀ j, (s.new_texture i).patches j =
      if j = i then { s.patches i with texture := some s.created.length
                                       texture_width := (s.patches i).width
                                       texture_height := (s.patches i).height
                                       texture_format := (s.patches i).format }
      else s.patches j := fun j => Function.update_apply ..
  have hcreated : (s.new_texture i).created = s.created ++
      [.texture (s.patches i).format (s.patches i).width (s.patches i).height] := rfl
  have hsame : ∀ j, ((s.new_texture i).patches j).shape = (s.patches j).shape ∧
      ((s.new_texture i).patches j).view = (s.patches j).view ∧
      ((s.new_texture i).patches j).buffer_bytes = (s.patches j).buffer_bytes := by
    intro j
    rw [hpatch]
    split
    · rename_i hj
      rw [hj]
      exact ⟨rfl, rfl, rfl⟩
    · exact ⟨rfl, rfl, rfl⟩
  refine ⟨h.retired_le, ?_, ?_, ?_, ?_, ?_, ?_, h.own⟩
  · intro b n hb
    rw [hcreated, getElem?_snoc] at hb
    rcases hb with hb | ⟨-, hb⟩
    · rcases h.kept b n hb with ho | hret | ⟨k, hk⟩
      · exact .inl ho
      · exact .inr (.inl hret)
      refine .inr (.inr ⟨k, ?_⟩)
      rw [(hsame k).2.1]
      exact hk
    · cases hb
  · intro k b hk
    rw [(hsame k).2.1] at hk
    rw [(hsame k).2.2, hcreated, getElem?_snoc]
    exact .inl (h.sized k b hk)
  · intro k t hk
    rw [hcreated, getElem?_snoc]
    rw [hpatch] at hk ⊢
    split at hk
    · rename_i hki
      rw [if_pos hki]
      exact .inr ⟨(Option.some.inj hk).symm, rfl⟩
    rename_i hki
    rw [if_neg hki]
    exact .inl (h.textured k t hk)
  · intro t ht
    obtain ⟨format, width, height, hcr⟩ := h.released t ht
    refine ⟨format, width, height, ?_⟩
    rw [hcreated, getElem?_snoc]
    exact .inl hcr
  · intro k l b hk hl
    rw [(hsame k).2.1] at hk
    rw [(hsame l).2.1] at hl
    exact h.unique k l b hk hl
  · intro k l hne hw
    rw [(hsame k).1, (hsame l).1]
    refine h.distinct k l hne ?_
    have := congrArg (fun x => x.2.1) (hsame k).1
    exact fun h0 => hw (this.trans h0)

theorem Held.new_buffer (h : Held s) (hb : (s.patches i).view.buffer = none) (bytes : Nat) :
    Held (s.new_buffer i bytes) := by
  have hpatch : ∀ j, (s.new_buffer i bytes).patches j =
      if j = i then { s.patches i with view := { (s.patches i).view with
                                                  buffer := some s.created.length }
                                       buffer_bytes := bytes }
      else s.patches j := fun j => Function.update_apply ..
  have hcreated : (s.new_buffer i bytes).created = s.created ++ [.buffer bytes] := rfl
  have hbuffer : ∀ j c, ((s.new_buffer i bytes).patches j).view.buffer = some c →
      j = i ∧ c = s.created.length ∧ ((s.new_buffer i bytes).patches j).buffer_bytes = bytes ∨
        c < s.created.length ∧ (s.new_buffer i bytes).patches j = s.patches j := by
    intro j c hc
    rw [hpatch] at hc ⊢
    split at hc
    · rename_i hj
      rw [if_pos hj]
      exact .inl ⟨hj, (Option.some.inj hc).symm, rfl⟩
    rename_i hj
    rw [if_neg hj]
    exact .inr ⟨(List.getElem?_eq_some_iff.mp (h.sized j c hc)).1, rfl⟩
  have hsame : ∀ j, ((s.new_buffer i bytes).patches j).shape = (s.patches j).shape ∧
      ((s.new_buffer i bytes).patches j).texture = (s.patches j).texture ∧
      ((s.new_buffer i bytes).patches j).texture_format = (s.patches j).texture_format ∧
      ((s.new_buffer i bytes).patches j).texture_width = (s.patches j).texture_width ∧
      ((s.new_buffer i bytes).patches j).texture_height = (s.patches j).texture_height := by
    intro j
    rw [hpatch]
    split
    · rename_i hj
      rw [hj]
      exact ⟨rfl, rfl, rfl, rfl, rfl⟩
    · exact ⟨rfl, rfl, rfl, rfl, rfl⟩
  refine ⟨h.retired_le, ?_, ?_, ?_, ?_, ?_, ?_, h.own⟩
  · intro c n hc
    rw [hcreated, getElem?_snoc] at hc
    rcases hc with hc | ⟨rfl, -⟩
    · rcases h.kept c n hc with ho | hret | ⟨k, hk⟩
      · exact .inl ho
      · exact .inr (.inl hret)
      have hki : k ≠ i := by
        intro he
        rw [he, hb] at hk
        cases hk
      refine .inr (.inr ⟨k, ?_⟩)
      rw [hpatch, if_neg hki]
      exact hk
    refine .inr (.inr ⟨i, ?_⟩)
    rw [hpatch, if_pos rfl]
  · intro k c hk
    rw [hcreated, getElem?_snoc]
    rcases hbuffer k c hk with ⟨-, hc, hn⟩ | ⟨-, he⟩
    · exact .inr ⟨hc, by rw [hn]⟩
    rw [he] at hk ⊢
    exact .inl (h.sized k c hk)
  · intro k t hk
    obtain ⟨-, ht, hf, hw, hh⟩ := hsame k
    rw [hcreated, getElem?_snoc, hf, hw, hh]
    exact .inl (h.textured k t (ht ▸ hk))
  · intro t ht
    obtain ⟨format, width, height, hcr⟩ := h.released t ht
    refine ⟨format, width, height, ?_⟩
    rw [hcreated, getElem?_snoc]
    exact .inl hcr
  · intro k l c hk hl
    rcases hbuffer k c hk with ⟨rfl, hck, -⟩ | ⟨hck, ek⟩ <;>
      rcases hbuffer l c hl with ⟨rfl, hcl, -⟩ | ⟨hcl, el⟩
    · rfl
    · omega
    · omega
    · rw [ek] at hk
      rw [el] at hl
      exact h.unique k l c hk hl
  · intro k l hne hw
    rw [(hsame k).1, (hsame l).1]
    refine h.distinct k l hne ?_
    have := congrArg (fun x => x.2.1) (hsame k).1
    exact fun h0 => hw (this.trans h0)

/-- A slot given to a shape that no other slot holds. -/
theorem Held.assign (h : Held s) {format width height : Nat} {content : Rect} (now : Nat)
    (hd : ∀ j, (s.patches j).shape ≠ (format, width, height, content)) :
    Held (s.assign i format width height content now) := by
  have hpatch : ∀ j, (s.assign i format width height content now).patches j =
      if j = i then
        { s.patches i with format, width, height, content
                           drawer := PatchFormats.idxOf format, requested_ms := now }
      else s.patches j := fun j => Function.update_apply ..
  have hsame : ∀ j, ((s.assign i format width height content now).patches j).view = (s.patches j).view ∧
      ((s.assign i format width height content now).patches j).buffer_bytes = (s.patches j).buffer_bytes ∧
      ((s.assign i format width height content now).patches j).texture = (s.patches j).texture ∧
      ((s.assign i format width height content now).patches j).texture_format = (s.patches j).texture_format ∧
      ((s.assign i format width height content now).patches j).texture_width = (s.patches j).texture_width ∧
      ((s.assign i format width height content now).patches j).texture_height = (s.patches j).texture_height := by
    intro j
    rw [hpatch]
    split
    · rename_i hj
      rw [hj]
      exact ⟨rfl, rfl, rfl, rfl, rfl, rfl⟩
    · exact ⟨rfl, rfl, rfl, rfl, rfl, rfl⟩
  refine ⟨h.retired_le, ?_, ?_, ?_, h.released, ?_, ?_, h.own⟩
  · intro b n hb
    rcases h.kept b n hb with ho | hret | ⟨k, hk⟩
    · exact .inl ho
    · exact .inr (.inl hret)
    refine .inr (.inr ⟨k, ?_⟩)
    rw [(hsame k).1]
    exact hk
  · intro k b hk
    rw [(hsame k).1] at hk
    rw [(hsame k).2.1]
    exact h.sized k b hk
  · intro k t hk
    obtain ⟨-, -, ht, hf, hwk, hh⟩ := hsame k
    rw [hf, hwk, hh]
    exact h.textured k t (ht ▸ hk)
  · intro k l b hk hl
    rw [(hsame k).1] at hk
    rw [(hsame l).1] at hl
    exact h.unique k l b hk hl
  · intro k l hne hwk
    rw [hpatch, hpatch]
    by_cases hk : k = i <;> by_cases hl : l = i
    · exact absurd (hk.trans hl.symm) hne
    · rw [if_pos hk, if_neg hl]
      exact fun he => hd l he.symm
    · rw [if_neg hk, if_pos hl]
      exact hd k
    · rw [if_neg hk, if_neg hl]
      rw [hpatch, if_neg hk] at hwk
      exact h.distinct k l hne hwk

/-- The output's own buffer, which is created once. -/
theorem Held.own_buffer (h : Held s) (hn : s.buffer = none) (hd : s.device ≠ 0) (bytes : Nat) :
    Held { s with buffer := some s.created.length, created := s.created ++ [.buffer bytes] } where
  retired_le := h.retired_le
  kept b n hb := by
    rw [getElem?_snoc] at hb
    rcases hb with hb | ⟨rfl, -⟩
    · rcases h.kept b n hb with ho | hr
      · rw [hn] at ho
        cases ho
      · exact .inr hr
    · exact .inl rfl
  sized k b hk := getElem?_snoc.mpr (.inl (h.sized k b hk))
  textured k t hk := getElem?_snoc.mpr (.inl (h.textured k t hk))
  released t ht := by
    obtain ⟨format, width, height, hc⟩ := h.released t ht
    exact ⟨format, width, height, getElem?_snoc.mpr (.inl hc)⟩
  unique := h.unique
  distinct := h.distinct
  own h0 := absurd h0 hd

end SceneFrameOutput

end taxi_camera
