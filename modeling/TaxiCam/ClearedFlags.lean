-- The cleared flags of the observer: a view that the bridge prepared stays in the
-- ledger while its pool shows it, and the pool admits no creation that would take
-- it. The parts of src/camera/probe.cpp that clear a flag, give it back and admit
-- a creation; they come in any order.
import TaxiCam.ViewAa
import TaxiCam.Histories
import TaxiCam.Runs

namespace taxi_camera.cleared_flags

open engine_camera native_camera histories runs
open Bool (and_eq_true not_eq_true' of_not_eq_false or_eq_true)

/-! ## The observer -/

/-- What is told of the flags: a flag may be cleared, it is given back, the pool of a renderer is
read, a creation that takes the first slots of a pool is admitted. -/
inductive Event
  | cleared (renderer view : Nat)
  | restored (renderer view : Nat)
  | looked (renderer : Nat) (pool : ViewPoolSnapshot)
  | admitted (renderer required : Nat) (pool : ViewPoolSnapshot)

structure Runtime where
  renderer : Nat := 0
  cleared_aa : ClearedAaLedger := {}
  aa_restores : Nat := 0
  aa_restore_failures : Nat := 0
  retired_views : RetiredViewPool := {}
  retirement_waiting : Bool := false
  retirement_status : String := "not_inspected"
  retirement_deferrals : Nat := 0
  stage_error : String := ""
  told : List Event := []

namespace Runtime

variable (s : Runtime)

def tell (e : Event) : Runtime := { s with told := s.told ++ [e] }

/-- What became of the view after the flag was cleared is what was to become of it. -/
def confirms (view confirmed : OwnedViewSnapshot) : Bool :=
  confirmed.complete && confirmed.ready && confirmed.mode == 2 &&
    confirmed.view_address == view.view_address && confirmed.node_address == view.node_address &&
    confirmed.camera_address == view.camera_address &&
    confirmed.resource_address == view.resource_address && confirmed.dimensions == view.dimensions &&
    confirmed.output_dimensions == view.output_dimensions &&
    confirmed.flags == (view.flags.1 &&& ~~~kViewAaFlag, view.flags.2)

/-- A clear whose write was attempted may have landed: the view is noted, also where it failed. -/
def prepare_owned_view_aa (allowed : Bool) (layout : CameraImageLayout) (view : OwnedViewSnapshot)
    (memory : FlagMemory) (confirmed : OwnedViewSnapshot) : Runtime × Bool :=
  if !allowed then (s, false)
  else
    let result := disable_owned_view_aa view layout memory
    let s :=
      if result.write_attempted then
        { s with cleared_aa := (s.cleared_aa.note s.renderer view.view_address).1 }.tell
          (.cleared s.renderer view.view_address)
      else s
    if !result.complete then ({ s with stage_error := result.error }, false)
    else if result.write_attempted && !confirms view confirmed then
      ({ s with
          stage_error :=
            "Owned camera identity changed while disabling its AA; render gate stays closed." }, false)
    else (s, true)

/-- A view is handed back with the flag that the bridge found; where this is refused it stays in the
ledger. -/
def restore_view (memory : FlagMemory) (view : Nat) : Runtime :=
  let result := restore_view_aa_flag view memory
  if result.complete then
    { s with
      cleared_aa := s.cleared_aa.forget view
      aa_restores := if result.write_attempted then s.aa_restores + 1 else s.aa_restores }.tell
      (.restored s.renderer view)
  else { s with aa_restore_failures := s.aa_restore_failures + 1 }

/-- `native_erase`, from the retention of its view on. -/
def erase (view : Nat) (memory : FlagMemory) : Runtime :=
  let retained := s.retired_views.retain s.renderer view
  if !retained.2 then s
  else
    let s := { s with retired_views := retained.1 }
    if s.cleared_aa.contains s.renderer view then s.restore_view memory view else s

def creation_pool (pool : ViewPoolSnapshot) : Runtime :=
  let observed := s.retired_views.observe s.renderer pool
  { s with
    retired_views := observed.1
    retirement_waiting := !pool.valid || !observed.2
    retirement_status :=
      if !pool.valid then "unavailable"
      else if !observed.2 then "retired_views_pending"
      else "complete" }.tell (.looked s.renderer pool)

end Runtime

/-- The last slot of a view. -/
def slot_of (pool : ViewPoolSnapshot) (view : Nat) : Option ViewSlot :=
  pool.slots.toList.reverse.find? (·.view_address == view)

/-- The slot can be taken, and the engine is done with its view. -/
def unused (slot : ViewSlot) : Bool := slot.free && !slot.release_pending && !slot.release_queued

namespace Runtime

variable (s : Runtime)

/-- One view of the ledger: the pool does not show it, or it is unused and handed back. -/
def restore_cleared (pool : ViewPoolSnapshot) (memory : Nat → FlagMemory) (view : Nat) : Runtime :=
  if view = 0 then s
  else
    match slot_of pool view with
    | none => { s with cleared_aa := s.cleared_aa.forget view }
    | some slot => if unused slot then s.restore_view (memory view) view else s

def restore_cleared_aa (pool : ViewPoolSnapshot) (memory : Nat → FlagMemory) : Runtime :=
  if !s.cleared_aa.pending then s
  else if !pool.valid || !pool.release_checked || s.cleared_aa.renderer != s.renderer then s
  else s.cleared_aa.views.foldl (fun s view => s.restore_cleared pool memory view) s

/-- `again` is the pool after the flags were given back. -/
def creation_capacity (required : Nat) (pool again : ViewPoolSnapshot) (memory : Nat → FlagMemory) :
    Runtime × Bool :=
  let first := s.creation_pool pool
  let restores := pool.valid && !first.retirement_waiting && first.cleared_aa.pending
  let s := if restores then (first.restore_cleared_aa pool memory).creation_pool again else first
  let pool := if restores then again else pool
  if !s.retirement_waiting && pool.creation_available required then
    (s.tell (.admitted s.renderer required pool), true)
  else
    ({ s with
        retirement_waiting := true
        retirement_deferrals := s.retirement_deferrals + 1
        retirement_status :=
          if !pool.valid || s.retirement_status != "complete" then s.retirement_status
          else if pool.free_count < required then "capacity_pending"
          else "first_free_pending"
        stage_error := "Waiting for native pooled-view retirement before camera creation." }, false)

end Runtime

/-! ## Runs -/

/-- What the observer does: the manager's inspection finds a renderer, an owned view is prepared, an
entry is erased, a view is retired, the pool is read, a creation asks for room. -/
inductive Op
  | manager_context (renderer : Nat)
  | prepare (allowed : Bool) (layout : CameraImageLayout) (view : OwnedViewSnapshot)
      (memory : FlagMemory) (confirmed : OwnedViewSnapshot)
  | erase (view : Nat) (memory : FlagMemory)
  | retain (renderer view : Nat)
  | creation_pool (pool : ViewPoolSnapshot)
  | creation_capacity (required : Nat) (pool again : ViewPoolSnapshot) (memory : Nat → FlagMemory)

/-- An inspection refuses a manager without a renderer, and nothing is prepared before one passed. -/
def Runtime.step (s : Runtime) : Op → Runtime
  | .manager_context renderer => if renderer = 0 then s else { s with renderer }
  | .prepare allowed layout view memory confirmed =>
    if s.renderer = 0 then s else (s.prepare_owned_view_aa allowed layout view memory confirmed).1
  | .erase view memory => s.erase view memory
  | .retain renderer view => { s with retired_views := (s.retired_views.retain renderer view).1 }
  | .creation_pool pool => s.creation_pool pool
  | .creation_capacity required pool again memory =>
    (s.creation_capacity required pool again memory).1

/-! ## What is owed -/

/-- The flag of a view is owed to the pool from the clear of it on, as long as it is not given back
and a valid reading of the pool shows the view. -/
def owed_after (renderer view : Nat) (owed : Bool) : Event → Bool
  | .cleared r v => owed || (r == renderer && v == view)
  | .restored r v => owed && !(r == renderer && v == view)
  | .looked r pool => owed && !(r == renderer && pool.valid && (slot_of pool view).isNone)
  | .admitted .. => owed

def owed (renderer view : Nat) (told : List Event) : Bool :=
  told.foldl (owed_after renderer view) false

@[simp] theorem owed_snoc (renderer view : Nat) (told : List Event) (e : Event) :
    owed renderer view (told ++ [e]) = owed_after renderer view (owed renderer view told) e := by
  simp [owed]

/-- A creation takes no view whose flag is owed. -/
def Allowed (past : List Event) : Event → Prop
  | .admitted renderer required pool =>
    ∀ index ∈ pool.first_free_indices.toList.take required, ∀ slot, pool.slot index = some slot →
      owed renderer slot.view_address past = false
  | _ => True

namespace Runtime

structure Kept (s : Runtime) : Prop where
  ledger : ∀ r v, owed r v s.told = true → s.cleared_aa.contains r v = true
  admissions : Explained Allowed s.told

section
variable {s : Runtime}
variable {r view : Nat} {memory : Nat → FlagMemory} {t : Runtime} {pool : ViewPoolSnapshot}

theorem Kept.clear (h : s.Kept) (hrenderer : s.renderer ≠ 0) (hview : view ≠ 0)
    (hroom : s.cleared_aa.takes s.renderer view = true) :
    ({ s with cleared_aa := (s.cleared_aa.note s.renderer view).1 }.tell
      (.cleared s.renderer view) : Runtime).Kept := by
  refine ⟨fun r v howed => ?_, explained_snoc h.admissions trivial⟩
  change owed r v (s.told ++ [_]) = true at howed
  rw [owed_snoc] at howed
  simp only [owed_after, or_eq_true, and_eq_true, beq_iff_eq] at howed
  apply ClearedAaLedger.contains_note hrenderer hview hroom
  rcases howed with hbefore | ⟨hr, hv⟩
  · exact .inl (h.ledger r v hbefore)
  · exact .inr ⟨hr.symm, hv.symm⟩

/-- The view leaves the ledger where its flag is given back. -/
theorem Kept.restore_view (h : s.Kept) (hsame : s.cleared_aa.renderer = s.renderer)
    (memory : FlagMemory) (view : Nat) : (s.restore_view memory view).Kept := by
  unfold Runtime.restore_view
  dsimp only
  split
  · refine ⟨fun r v howed => ?_, explained_snoc h.admissions trivial⟩
    change owed r v (s.told ++ [_]) = true at howed
    rw [owed_snoc] at howed
    simp only [owed_after, and_eq_true, not_eq_true', Bool.and_eq_false_iff, beq_eq_false_iff_ne] at howed
    obtain ⟨hbefore, hother⟩ := howed
    have hin := h.ledger r v hbefore
    change (s.cleared_aa.forget view).contains r v = true
    rw [ClearedAaLedger.contains_forget, hin, Bool.true_and, bne_iff_ne]
    rintro rfl
    rcases hother with hr | hv
    · exact hr (hsame.symm.trans (ClearedAaLedger.contains_iff.mp hin).1)
    · exact hv rfl
  · exact ⟨h.ledger, h.admissions⟩

theorem Kept.erase (h : s.Kept) (view : Nat) (memory : FlagMemory) : (s.erase view memory).Kept := by
  unfold Runtime.erase
  dsimp only
  split
  · exact h
  split
  · rename_i hin
    have hretained : ({ s with retired_views := (s.retired_views.retain s.renderer view).1 } :
        Runtime).Kept := ⟨h.ledger, h.admissions⟩
    exact hretained.restore_view (ClearedAaLedger.contains_iff.mp hin).1 memory view
  · exact ⟨h.ledger, h.admissions⟩

theorem Kept.prepare (h : s.Kept) (hrenderer : s.renderer ≠ 0) (allowed : Bool)
    (layout : CameraImageLayout) (view : OwnedViewSnapshot) (memory : FlagMemory)
    (confirmed : OwnedViewSnapshot)
    (hroom : allowed = true → view.flags.1 &&& kViewAaFlag ≠ 0 →
      s.cleared_aa.takes s.renderer view.view_address = true) :
    (s.prepare_owned_view_aa allowed layout view memory confirmed).1.Kept := by
  unfold prepare_owned_view_aa
  dsimp only
  split
  · exact h
  rename_i hallowed
  have hnoted : ∀ t, t = (if (disable_owned_view_aa view layout memory).write_attempted then
      { s with cleared_aa := (s.cleared_aa.note s.renderer view.view_address).1 }.tell
        (.cleared s.renderer view.view_address)
      else s) → t.Kept := by
    rintro t rfl
    split
    · rename_i hattempted
      obtain ⟨hflag, hshape⟩ := disable_write_attempted hattempted
      have hview : view.view_address ≠ 0 := by
        simp only [view_shaped, and_eq_true, bne_iff_ne] at hshape
        exact hshape.1.1
      exact h.clear hrenderer hview (hroom (by simpa using hallowed) hflag)
    · exact h
  generalize hnext : (if (disable_owned_view_aa view layout memory).write_attempted then
      { s with cleared_aa := (s.cleared_aa.note s.renderer view.view_address).1 }.tell
        (.cleared s.renderer view.view_address)
      else s) = next
  have hkept := hnoted next hnext.symm
  split
  · exact ⟨hkept.ledger, hkept.admissions⟩
  split
  · exact ⟨hkept.ledger, hkept.admissions⟩
  · exact hkept

/-! ## The pool -/

theorem Kept.creation_pool (h : s.Kept) (pool : ViewPoolSnapshot) : (s.creation_pool pool).Kept := by
  refine ⟨fun r v howed => ?_, explained_snoc h.admissions trivial⟩
  change owed r v (s.told ++ [_]) = true at howed
  rw [owed_snoc] at howed
  exact h.ledger r v (Bool.and_eq_true_iff.mp howed).1

/-- A valid reading ends what is owed for the views that it does not show. -/
theorem creation_pool_seen (hvalid : pool.valid = true) (hgone : slot_of pool view = none) :
    owed s.renderer view (s.creation_pool pool).told = false := by
  change owed s.renderer view (s.told ++ [_]) = false
  rw [owed_snoc]
  simp [owed_after, hvalid, hgone]

/-- What holds while the ledger is gone through: nothing is owed for a view that the pool does not
show, and views only leave the ledger. -/
structure Returning (pool : ViewPoolSnapshot) (s t : Runtime) : Prop where
  kept : t.Kept
  renderer : t.renderer = s.renderer
  same : t.cleared_aa.renderer = t.renderer
  seen : ∀ view, slot_of pool view = none → owed t.renderer view t.told = false
  shrinks : ∀ r v, t.cleared_aa.contains r v = true → s.cleared_aa.contains r v = true

/-- A view of the ledger that the pool does not show unused stays, any other leaves it where its flag
is taken back. -/
def returns (pool : ViewPoolSnapshot) (memory : Nat → FlagMemory) (view : Nat) : Bool :=
  match slot_of pool view with
  | none => true
  | some slot => unused slot && (memory view).takes_back view

theorem restore_view_shrinks {memory : FlagMemory} {v : Nat}
    (h : (s.restore_view memory view).cleared_aa.contains r v = true) :
    s.cleared_aa.contains r v = true := by
  unfold restore_view at h
  dsimp only at h
  split at h
  · change (s.cleared_aa.forget view).contains r v = true at h
    rw [ClearedAaLedger.contains_forget] at h
    exact (Bool.and_eq_true_iff.mp h).1
  · exact h

theorem Returning.restore_view (h : Returning pool s t)
    (memory : FlagMemory) (view : Nat) : Returning pool s (t.restore_view memory view) := by
  refine ⟨h.kept.restore_view h.same memory view, ?_, ?_, fun v hgone => ?_, fun r v hin =>
    h.shrinks r v (restore_view_shrinks hin)⟩
  · unfold Runtime.restore_view
    dsimp only
    split <;> exact h.renderer
  · unfold Runtime.restore_view
    dsimp only
    split <;> exact h.same
  · unfold Runtime.restore_view
    dsimp only
    split
    · change owed t.renderer v (t.told ++ [_]) = false
      rw [owed_snoc]
      simp [owed_after, h.seen v hgone]
    · exact h.seen v hgone

theorem Returning.restore_cleared (h : Returning pool s t) (memory : Nat → FlagMemory) (view : Nat) :
    Returning pool s (t.restore_cleared pool memory view) := by
  unfold Runtime.restore_cleared
  split
  · exact h
  split
  · rename_i hgone
    -- What the pool does not show is not owed, so the ledger may forget it.
    refine ⟨⟨fun r v howed => ?_, h.kept.admissions⟩, h.renderer, h.same, h.seen, fun r v hin => ?_⟩
    · have hin := h.kept.ledger r v howed
      rw [ClearedAaLedger.contains_forget, hin, Bool.true_and, bne_iff_ne]
      rintro rfl
      have hr : t.renderer = r := h.same.symm.trans (ClearedAaLedger.contains_iff.mp hin).1
      have hnone := h.seen v hgone
      rw [hr, howed] at hnone
      cases hnone
    · rw [ClearedAaLedger.contains_forget] at hin
      exact h.shrinks r v (Bool.and_eq_true_iff.mp hin).1
  split
  · exact h.restore_view (memory view) view
  · exact h

theorem restore_cleared_leaves (hview : view ≠ 0) (hreturns : returns pool memory view = true) :
    (s.restore_cleared pool memory view).cleared_aa.contains r view = false := by
  have hforget : (s.cleared_aa.forget view).contains r view = false := by
    rw [ClearedAaLedger.contains_forget]
    simp
  unfold returns at hreturns
  unfold restore_cleared
  rw [if_neg hview]
  split at hreturns
  · exact hforget
  obtain ⟨hunused, htakes⟩ := Bool.and_eq_true_iff.mp hreturns
  rw [if_pos hunused]
  unfold restore_view
  rw [if_pos (restore_complete.trans htakes)]
  exact hforget

theorem Returning.restore_all (h : Returning pool s t) (views : List Nat) :
    Returning pool s (views.foldl (fun t view => t.restore_cleared pool memory view) t) :=
  invariant (fun _ view ht => ht.restore_cleared memory view) views h

/-- A view of the ledger that can be returned is not in it after its turn. -/
theorem restore_all_leaves (hview : view ≠ 0) (hreturns : returns pool memory view = true)
    (h : Returning pool s t) {views : List Nat} (hmem : view ∈ views) :
    (views.foldl (fun t v => t.restore_cleared pool memory v) t).cleared_aa.contains r view = false := by
  induction views generalizing t with
  | nil => exact absurd hmem List.not_mem_nil
  | cons first rest ih =>
    have hnext := h.restore_cleared memory first
    rw [List.foldl_cons]
    by_cases hrest : view ∈ rest
    · exact ih hnext hrest
    obtain rfl : view = first := (List.mem_cons.mp hmem).resolve_right hrest
    -- After its turn the ledger only shrinks.
    have hfrom : Returning pool (t.restore_cleared pool memory view)
        (t.restore_cleared pool memory view) := ⟨hnext.kept, rfl, hnext.same, hnext.seen, fun _ _ hin => hin⟩
    by_contra hin
    have hafter := (hfrom.restore_all rest).shrinks r view (of_not_eq_false hin)
    rw [restore_cleared_leaves hview hreturns] at hafter
    cases hafter

/-- Every view of the ledger that the creation would take is returned before. -/
def returnable (s : Runtime) (required : Nat) (pool again : ViewPoolSnapshot)
    (memory : Nat → FlagMemory) : Bool :=
  !again.creation_available required ||
    (again.first_free_indices.toList.take required).all fun index =>
      (again.slot index).all fun slot =>
        !s.cleared_aa.contains s.renderer slot.view_address ||
          (pool.release_checked && returns pool memory slot.view_address)

/-- After the flags were given back, the ledger has no view that the creation takes. -/
theorem restore_cleared_aa_returning (h : s.Kept) (hvalid : pool.valid = true) (memory : Nat → FlagMemory) :
    ((s.creation_pool pool).restore_cleared_aa pool memory).Kept ∧
      ((s.creation_pool pool).restore_cleared_aa pool memory).renderer = s.renderer ∧
        ∀ view, (!s.cleared_aa.contains s.renderer view ||
            (pool.release_checked && returns pool memory view)) = true →
          ((s.creation_pool pool).restore_cleared_aa pool memory).cleared_aa.contains s.renderer view =
            false := by
  have hlooked := h.creation_pool pool
  unfold restore_cleared_aa
  split
  · rename_i hnone
    refine ⟨hlooked, rfl, fun view _ => ?_⟩
    by_contra hin
    have hpending := ClearedAaLedger.pending_of_contains (of_not_eq_false hin)
    rw [hpending] at hnone
    cases hnone
  split
  · rename_i hrefused
    refine ⟨hlooked, rfl, fun view hreturns => ?_⟩
    by_contra hin
    have hin' : s.cleared_aa.contains s.renderer view = true := of_not_eq_false hin
    have hsame : s.cleared_aa.renderer = s.renderer := (ClearedAaLedger.contains_iff.mp hin').1
    rw [hin', Bool.not_true, Bool.false_or] at hreturns
    have hchecked := (Bool.and_eq_true_iff.mp hreturns).1
    change (!pool.valid || !pool.release_checked || s.cleared_aa.renderer != s.renderer) = true at hrefused
    rw [hvalid, hchecked, hsame] at hrefused
    simp at hrefused
  rename_i hgoing
  simp only [or_eq_true, not_eq_true', not_or, bne_iff_ne, ne_eq, not_not] at hgoing
  have hstart : Returning pool (s.creation_pool pool) (s.creation_pool pool) :=
    ⟨hlooked, rfl, hgoing.2, fun view hgone => creation_pool_seen (s := s) hvalid hgone, fun _ _ hin => hin⟩
  have hall : Returning pool (s.creation_pool pool)
      (s.cleared_aa.views.foldl (fun t view => t.restore_cleared pool memory view)
        (s.creation_pool pool)) := hstart.restore_all s.cleared_aa.views
  refine ⟨hall.kept, hall.renderer, fun view hreturns => ?_⟩
  by_contra hin
  have hin' : s.cleared_aa.contains s.renderer view = true := hall.shrinks s.renderer view (of_not_eq_false hin)
  obtain ⟨-, hview, hmem⟩ := ClearedAaLedger.contains_iff.mp hin'
  rw [hin', Bool.not_true, Bool.false_or] at hreturns
  exact hin (restore_all_leaves hview (Bool.and_eq_true_iff.mp hreturns).2 hstart hmem)

theorem Kept.creation_capacity (h : s.Kept) {required : Nat} {again : ViewPoolSnapshot} (hreturnable : s.returnable required pool again memory = true) :
    (s.creation_capacity required pool again memory).1.Kept := by
  have hlooked := h.creation_pool pool
  unfold Runtime.creation_capacity
  dsimp only
  generalize hrestores : (pool.valid && !(s.creation_pool pool).retirement_waiting &&
    (s.creation_pool pool).cleared_aa.pending) = restores
  cases restores with
  | false =>
    rw [if_neg Bool.false_ne_true, if_neg Bool.false_ne_true]
    split
    · rename_i hadmitted
      simp only [and_eq_true, not_eq_true', ViewPoolSnapshot.creation_available] at hadmitted
      refine ⟨fun r v howed => ?_, explained_snoc hlooked.admissions fun index _ slot _ => ?_⟩
      · change owed r v ((s.creation_pool pool).told ++ [_]) = true at howed
        rw [owed_snoc] at howed
        exact hlooked.ledger r v howed
      · -- A ledger with a view would have been gone through.
        by_contra howed
        have hin := hlooked.ledger _ _ (of_not_eq_false howed)
        rw [hadmitted.1, ClearedAaLedger.pending_of_contains hin] at hrestores
        simp [hadmitted.2.1.1.1.1.1] at hrestores
    · exact ⟨hlooked.ledger, hlooked.admissions⟩
  | true =>
    rw [if_pos rfl, if_pos rfl]
    have hvalid : pool.valid = true := by
      simp only [and_eq_true] at hrestores
      exact hrestores.1.1
    obtain ⟨hreturned, hrenderer, hleft⟩ := restore_cleared_aa_returning h hvalid memory
    have hagain := hreturned.creation_pool again
    split
    · rename_i hadmitted
      obtain ⟨-, havailable⟩ := Bool.and_eq_true_iff.mp hadmitted
      refine ⟨fun r v howed => ?_, explained_snoc hagain.admissions fun index hindex slot hslot => ?_⟩
      · change owed r v (_ ++ [_]) = true at howed
        rw [owed_snoc] at howed
        exact hagain.ledger r v howed
      · by_contra howed
        have hin := hagain.ledger _ _ (of_not_eq_false howed)
        unfold returnable at hreturnable
        rw [havailable, Bool.not_true, Bool.false_or, List.all_eq_true] at hreturnable
        have hslots := hreturnable index hindex
        rw [hslot, Option.all_some] at hslots
        have hnone := hleft slot.view_address hslots
        change ((s.creation_pool pool).restore_cleared_aa pool memory).cleared_aa.contains
          ((s.creation_pool pool).restore_cleared_aa pool memory).renderer slot.view_address = true at hin
        rw [hrenderer, hnone] at hin
        cases hin
    · exact ⟨hagain.ledger, hagain.admissions⟩

end

/-! ## Every run -/

/-- The ledger has room for a view that is prepared with its flag, for the same renderer; and before a
creation that the pool has room for, every view of the ledger that it would take is returned. -/
def orderly (s : Runtime) : Op → Bool
  | .prepare allowed _ view _ _ =>
    !allowed || s.renderer == 0 || view.flags.1 &&& kViewAaFlag == 0 ||
      s.cleared_aa.takes s.renderer view.view_address
  | .creation_capacity required pool again memory => s.returnable required pool again memory
  | _ => true

theorem Kept.step {s : Runtime} (h : s.Kept) {op : Op} (horderly : s.orderly op = true) : (s.step op).Kept := by
  cases op with
  | manager_context renderer =>
    unfold Runtime.step
    dsimp only
    split
    · exact h
    · exact ⟨h.ledger, h.admissions⟩
  | prepare allowed layout view memory confirmed =>
    unfold Runtime.step
    dsimp only
    split
    · exact h
    rename_i hrenderer
    refine h.prepare hrenderer allowed layout view memory confirmed fun hallowed hflag => ?_
    simp only [orderly, or_eq_true, not_eq_true', beq_iff_eq] at horderly
    rcases horderly with ((hno | hno) | hno) | hroom
    · rw [hallowed] at hno
      cases hno
    · exact absurd hno hrenderer
    · exact absurd hno hflag
    · exact hroom
  | erase view memory => exact h.erase view memory
  | retain renderer view => exact ⟨h.ledger, h.admissions⟩
  | creation_pool pool => exact h.creation_pool pool
  | creation_capacity required pool again memory => exact h.creation_capacity horderly

/-- In an orderly run every view whose flag is owed is in the ledger of its renderer, and no creation
was admitted that takes one. -/
theorem owed_flags_are_kept (ops : List Op)
    (horderly : Guarded Runtime.step (fun s op => s.orderly op = true) {} ops) :
    (run Runtime.step {} ops).Kept :=
  @guarded_invariant _ _ Runtime.step (fun s op => s.orderly op = true) {} Runtime.Kept
    (fun _ _ h hop => h.step hop) ops ⟨nofun, explained_nil⟩ horderly

/-! ## A refused restoration -/

def sample_layout : CameraImageLayout where
  view_flag_clear_override := 8
  view_flag_set_override := 16

/-- A view with its gate closed, and its flag. -/
def sample_view : OwnedViewSnapshot where
  complete := true
  ready := true
  status := .ready
  mode := 2
  view_address := 8
  flags := (1 ||| kViewAaFlag, 0)

def clearing_memory : FlagMemory where
  current := some (1 ||| kViewAaFlag, 0)
  overrides := some (0, 0)
  again := some (1, 0)
  overrides_again := some (0, 0)

/-- The view stands unused in the first slot. -/
def unused_pool : ViewPoolSnapshot where
  valid := true
  slots := (Vector.replicate 8 {}).set 0 { view_address := 8, free := true }
  free_count := 1
  first_free_indices := (Vector.replicate 4 (-1)).set 0 0
  release_checked := true

/-- The flag of a view is cleared, and a creation asks for the slot of the view. -/
def reused (memory : FlagMemory) : List Op :=
  [.manager_context 1, .prepare true sample_layout sample_view clearing_memory
      { sample_view with flags := (1, 0) },
    .creation_capacity 1 unused_pool unused_pool fun _ => memory]

/-- A creation was admitted that takes a view whose flag is owed. -/
def takes_an_owed_view (past : List Event) : Event → Bool
  | .admitted renderer required pool =>
    (pool.first_free_indices.toList.take required).any fun index =>
      (pool.slot index).any fun slot => owed renderer slot.view_address past
  | _ => false

theorem not_takes_an_owed_view {past : List Event} {e : Event} (h : Allowed past e) :
    takes_an_owed_view past e = false := by
  cases e with
  | admitted renderer required pool =>
    by_contra hany
    obtain ⟨index, hindex, htakes⟩ := List.any_eq_true.mp (of_not_eq_false hany)
    rcases hslot : pool.slot index with _ | slot
    · rw [hslot] at htakes
      cases htakes
    rw [hslot, Option.any_some, h index hindex slot hslot] at htakes
    cases htakes
  | cleared renderer view | restored renderer view | looked renderer pool => rfl

/-- The memory of the view refuses the flag, and the pool admits the creation that takes it. -/
theorem refused_restoration_admits_its_view :
    (¬∀ ops, (run Runtime.step {} ops).Kept) ∧ ¬(run Runtime.step {} (reused { writable := false })).Kept := by
  have hout : ¬(run Runtime.step {} (reused { writable := false })).Kept := by
    intro h
    have hlast : ∃ past e, (run Runtime.step {} (reused { writable := false })).told = past ++ [e] ∧
        takes_an_owed_view past e = true :=
      ⟨_, _, (List.dropLast_append_getLast (by decide +kernel)).symm, by decide +kernel⟩
    obtain ⟨past, e, htold, htakes⟩ := hlast
    rw [not_takes_an_owed_view (h.admissions past e [] htold)] at htakes
    cases htakes
  exact ⟨fun hall => hout (hall _), hout⟩

/-- The flag is given back before the creation is admitted. -/
theorem returned_flag_admits_its_view :
    (run Runtime.step {} (reused { current := some (1, 0), again := some (1 ||| kViewAaFlag, 0) })).Kept :=
  owed_flags_are_kept _ ⟨by decide +kernel, by decide +kernel, by decide +kernel, trivial⟩

end Runtime

end taxi_camera.cleared_flags
