-- A collapsed recording against its raw effects. A draw that `append` counts
-- on an earlier effect only passes effects of other keys, which commute with
-- it, so the recording replays as the sequence that it was built of.
import Mathlib.Data.List.Induction
import TaxiCam.Runs
import TaxiCam.SourceState

namespace taxi_camera.source_state

open Recording List
open Slot (apply key)
open Tracker (apply_effect apply_effects state)

/-! ## The collapsed form -/

/-- The effects after one more, with room for every entry. -/
def collapse (effects : List Effect) (effect : Effect) : List Effect :=
  (folded effects effect).getD (effects ++ [counted effect])

/-- The effects that a recording without a capacity holds. -/
def collapsed (effects : List Effect) : List Effect := effects.foldl collapse []

/-- The effects that `append` writes: each names a source, and a draw stands for a draw. -/
structure Recordable (e : Effect) : Prop where
  valid : valid e.key = true
  counted : e.kind = .draw → 1 ≤ e.draws

variable {e : Effect}

theorem recordable_counted (h : valid e.key = true) : Recordable (counted e) := by
  refine ⟨h, fun hk => ?_⟩
  exact Nat.le_of_eq (if_pos hk).symm

/-! ## The effects on one slot -/

theorem add_draws_add (s n : Nat) (h : 1 ≤ n) :
    add_draws (add_draws s n) 1 = add_draws s (n + if n = UINT32_MAX then 0 else 1) := by
  unfold add_draws
  split_ifs <;> omega

/-- A draw after a draw of the same key is a draw with one more. -/
theorem apply_draw_draw {d : Effect} (he : e.kind = .draw) (hn : 1 ≤ e.draws)
    (hd : d.kind = .draw) (h1 : d.draws = 1) :
    apply d ∘ apply e = apply { e with draws := e.draws + if e.draws = UINT32_MAX then 0 else 1 } := by
  funext slot
  have hne : e.draws ≠ 0 := by omega
  have hbump : (e.draws + if e.draws = UINT32_MAX then 0 else 1) ≠ 0 := by omega
  simp only [Function.comp, apply, he, hd, h1, if_neg hne, if_neg hbump]
  by_cases hrt : render_target_model slot.state.model = true
  · simp [hrt, add_draws_add _ _ hn]
  · simp [hrt]

/-- A change of state that repeats the one before it changes nothing. -/
theorem apply_state_twice (he : e.kind ≠ .draw) : apply e ∘ apply e = apply e := by
  funext slot
  obtain ⟨key, kind, draws⟩ := e
  cases kind with
  | draw => exact absurd rfl he
  | _ => rfl

@[simp] theorem key_apply (e : Effect) (slot : Slot) : (apply e slot).key = slot.key := by
  unfold apply
  split <;> rfl

/-! ## The effects on a tracker -/

section
variable {t : Tracker}
variable {d e : Effect}

theorem apply_effect_comm (h : e.key ≠ d.key) :
    (t.apply_effect e).apply_effect d = (t.apply_effect d).apply_effect e := by
  unfold apply_effect
  congr 1
  exact keyed.modify_comm h (key_apply e) (key_apply d) t.sources

theorem apply_effect_twice (h : e.key = d.key) : (t.apply_effect e).apply_effect d =
      ⟨keyed.modify key e.key (apply d ∘ apply e) t.sources⟩ := by
  unfold apply_effect
  rw [← h, keyed.modify_modify (key_apply e)]

/-- The loop of `fold_draw` moves a draw in front of the effects of other keys only. -/
theorem fold_draw_replay {key : Key} (hd : d.kind = .draw) (h1 : d.draws = 1)
    (hkey : d.key = key) {l l' : List Effect} (hl : ∀ e ∈ l, Recordable e)
    (h : fold_draw key l = some l') :
    l'.foldr (fun e t => t.apply_effect e) t = (l.foldr (fun e t => t.apply_effect e) t).apply_effect d := by
  induction l generalizing l' with
  | nil => cases h
  | cons e rest ih =>
    unfold fold_draw at h
    split at h
    · rename_i hne
      obtain ⟨folded, hf, rfl⟩ := Option.map_eq_some_iff.mp h
      have hrest := ih (fun x hx => hl x (mem_cons_of_mem _ hx)) hf
      rw [foldr_cons, foldr_cons, hrest]
      exact apply_effect_comm (by rw [hkey]; exact Ne.symm hne)
    rename_i hk
    have hk : e.key = key := not_not.mp hk
    split at h
    · rename_i hdraw
      injection h with h
      subst h
      have hn := (hl e mem_cons_self).counted hdraw
      rw [foldr_cons, foldr_cons, apply_effect_twice (hk.trans hkey.symm), apply_draw_draw hdraw hn hd h1]
      rfl
    · cases h

end

theorem fold_draw_recordable {key : Key} {l l' : List Effect} (hl : ∀ e ∈ l, Recordable e)
    (h : fold_draw key l = some l') : l'.length = l.length ∧ ∀ e ∈ l', Recordable e := by
  induction l generalizing l' with
  | nil => cases h
  | cons e rest ih =>
    have he := hl e mem_cons_self
    have hrest : ∀ x ∈ rest, Recordable x := fun x hx => hl x (mem_cons_of_mem _ hx)
    unfold fold_draw at h
    split at h
    · obtain ⟨folded, hf, rfl⟩ := Option.map_eq_some_iff.mp h
      obtain ⟨hlen, hgood⟩ := ih hrest hf
      refine ⟨by simp [hlen], fun x hx => ?_⟩
      rcases mem_cons.mp hx with rfl | hx
      · exact he
      · exact hgood x hx
    split at h
    · injection h with h
      subst h
      refine ⟨rfl, fun x hx => ?_⟩
      rcases mem_cons.mp hx with rfl | hx
      · exact ⟨he.valid, fun hk => Nat.le_add_right_of_le (he.counted hk)⟩
      · exact hrest x hx
    · cases h

/-! ## One more effect -/

section
variable {effects : List Effect} {e : Effect}
variable {l : List Effect}

theorem folded_recordable (hl : ∀ x ∈ effects, Recordable x)
    (h : folded effects e = some l) : l.length = effects.length ∧ ∀ x ∈ l, Recordable x := by
  unfold folded at h
  split at h
  · obtain ⟨back, hb, rfl⟩ := Option.map_eq_some_iff.mp h
    have := fold_draw_recordable (fun x hx => hl x (mem_reverse.mp hx)) hb
    exact ⟨by simpa using this.1, fun x hx => this.2 x (mem_reverse.mp hx)⟩
  split at h
  · injection h with h
    exact h ▸ ⟨rfl, hl⟩
  · cases h

theorem folded_replay (t : Tracker) (hl : ∀ x ∈ effects, Recordable x) (h : folded effects e = some l) :
    runs.run apply_effect t l = (runs.run apply_effect t effects).apply_effect (counted e) := by
  unfold folded at h
  split at h
  · rename_i hdraw
    obtain ⟨back, hb, rfl⟩ := Option.map_eq_some_iff.mp h
    have := fold_draw_replay (d := counted e) (t := t) hdraw (by simp [counted, hdraw]) rfl
      (fun x hx => hl x (mem_reverse.mp hx)) hb
    simpa only [runs.run, foldl_eq_foldr_reverse, reverse_reverse] using this
  rename_i hstate
  split at h
  · rename_i hlast
    injection h with h
    subst h
    obtain ⟨front, rfl⟩ := List.getLast?_eq_some_iff.mp hlast
    have hkind : (counted e).kind ≠ .draw := hstate
    rw [runs.run_snoc, apply_effect_twice rfl, apply_state_twice hkind]
    rfl
  · cases h

theorem collapse_recordable (hl : ∀ x ∈ effects, Recordable x) (he : valid e.key = true) :
    effects.length ≤ (collapse effects e).length ∧ ∀ x ∈ collapse effects e, Recordable x := by
  unfold collapse
  rcases h : folded effects e with _ | l
  · refine ⟨by simp, fun x hx => ?_⟩
    rcases mem_append.mp hx with hx | hx
    · exact hl x hx
    · exact mem_singleton.mp hx ▸ recordable_counted he
  have := folded_recordable hl h
  exact ⟨by simp [this.1], this.2⟩

theorem collapse_replay (t : Tracker) (hl : ∀ x ∈ effects, Recordable x) :
    runs.run apply_effect t (collapse effects e) = (runs.run apply_effect t effects).apply_effect (counted e) := by
  unfold collapse
  rcases h : folded effects e with _ | l
  · simp
  · exact folded_replay t hl h

end

/-! ## A whole sequence of effects -/

theorem collapsed_snoc (effects : List Effect) (e : Effect) :
    collapsed (effects ++ [e]) = collapse (collapsed effects) e := by
  simp [collapsed]

theorem recorded_snoc (effects : List Effect) (e : Effect) :
    recorded (effects ++ [e]) = ((recorded effects).append e).1 := by
  simp [recorded]

theorem collapsed_recordable (effects : List Effect) (h : ∀ e ∈ effects, valid e.key = true) :
    ∀ e ∈ collapsed effects, Recordable e := by
  induction effects using List.reverseRecOn with
  | nil => nofun
  | append_singleton front e ih =>
    rw [collapsed_snoc]
    exact (collapse_recordable (ih fun x hx => h x (mem_append_left _ hx)) (h e (by simp))).2

theorem collapsed_replay (t : Tracker) (effects : List Effect) (h : ∀ e ∈ effects, valid e.key = true) :
    runs.run apply_effect t (collapsed effects) = runs.run apply_effect t (effects.map counted) := by
  induction effects using List.reverseRecOn with
  | nil => rfl
  | append_singleton front e ih =>
    have hfront : ∀ x ∈ front, valid x.key = true := fun x hx => h x (mem_append_left _ hx)
    rw [collapsed_snoc, collapse_replay t (collapsed_recordable front hfront), ih hfront]
    simp

/-- A recording is the collapsed form, as long as that fits, and else it is overflowed. -/
theorem recorded_eq (effects : List Effect) (h : ∀ e ∈ effects, valid e.key = true) :
    ((collapsed effects).length ≤ capacity ∧ recorded effects = ⟨collapsed effects, false, false⟩) ∨
      (capacity < (collapsed effects).length ∧ (recorded effects).overflowed = true ∧
        (recorded effects).invalid = true) := by
  induction effects using List.reverseRecOn with
  | nil => exact .inl ⟨Nat.zero_le _, rfl⟩
  | append_singleton front e ih =>
    have hfront : ∀ x ∈ front, valid x.key = true := fun x hx => h x (mem_append_left _ hx)
    have he : valid e.key = true := h e (by simp)
    have hgood := collapsed_recordable front hfront
    have hgrow := (collapse_recordable hgood he).1
    rw [collapsed_snoc, recorded_snoc]
    rcases ih hfront with ⟨hfits, hr⟩ | ⟨hover, ho, hi⟩
    · rw [hr]
      have hlong : ¬ capacity < (collapsed front).length := by omega
      simp only [append, Bool.false_eq_true, if_false, gt_iff_lt, hlong, decide_false, he,
        Bool.not_true, Bool.or_self, collapse]
      rcases hf : folded (collapsed front) e with _ | l
      · simp only [Option.getD_none, length_append, length_singleton]
        by_cases hfull : (collapsed front).length = capacity
        · rw [if_pos hfull]
          exact .inr ⟨by omega, rfl, rfl⟩
        rw [if_neg hfull]
        exact .inl ⟨by omega, rfl⟩
      have hlen := (folded_recordable hgood hf).1
      exact .inl ⟨by simpa [hlen] using hfits, rfl⟩
    refine .inr ⟨by omega, ?_⟩
    simp [append, hi, ho]

/-- A recording of one effect is its raw replay. -/
theorem apply_alone (t : Tracker) (he : valid e.key = true) :
    t.apply (recorded [e]) = (t.apply_effect (counted e), true) := by
  have hone : recorded [e] = ⟨[counted e], false, false⟩ := by
    simp [recorded, append, folded, fold_draw, he, capacity]
  have hcounted : valid (counted e).key = true := he
  simp [hone, Tracker.apply, apply_effects, hcounted, capacity]

theorem apply_effects_of_valid (t : Tracker) (effects : List Effect) (h : ∀ e ∈ effects, valid e.key = true) :
    t.apply_effects effects = (runs.run apply_effect t effects, true) := by
  induction effects generalizing t with
  | nil => rfl
  | cons e rest ih =>
    unfold apply_effects
    rw [if_pos (h e mem_cons_self), ih _ fun x hx => h x (mem_cons_of_mem _ hx)]
    rfl

theorem state_of_invalidated (t : Tracker) (key : Key) : t.invalidate_all.state key = {} := by
  unfold state Tracker.invalidate_all
  split
  · split
    · rename_i slot hslot
      obtain ⟨x, -, rfl⟩ := mem_map.mp (mem_of_find?_eq_some hslot)
      rfl
    · rfl
  · rfl

end taxi_camera.source_state
