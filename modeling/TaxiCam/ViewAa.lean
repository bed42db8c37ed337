-- The AA flag of an owned view: it is cleared before the view renders, and given
-- back before the pool reuses the view; and the ledger of the views whose flag is
-- not given back yet. src/camera/view_aa.hpp and view_aa.cpp. A call reads memory
-- several times, and each read and write may fail.
import TaxiCam.ViewPool

namespace taxi_camera.engine_camera

inductive OwnedViewStatus
  | not_inspected | pending | ready | invalid_request | invalid_pool | invalid_pointer | id_mismatch
  | invalid_ready_byte | invalid_view_index | pool_changed | node_unavailable | node_mismatch
  | wrong_camera_type | invalid_fov | material_mismatch | read_failed | changed | read_budget_exhausted
deriving DecidableEq

structure OwnedViewSnapshot where
  complete : Bool := false
  ready : Bool := false
  status : OwnedViewStatus := .not_inspected
  error : String := ""
  read_failures : Nat := 0
  mode : Nat := 0
  view_address : Nat := 0
  node_address : Nat := 0
  camera_address : Nat := 0
  resource_address : Nat := 0
  dimensions : Vector (Int × Int) 3 := Vector.replicate 3 (0, 0)
  output_dimensions : Int × Int := (0, 0)
  flags : UInt64 × UInt64 := (0, 0)
deriving DecidableEq

end taxi_camera.engine_camera

namespace taxi_camera.native_camera

open engine_camera

def kViewAaFlag : UInt64 := (1 : UInt64) <<< 31

/-- The fields of the layout that the flag needs. -/
structure CameraImageLayout where
  view_flag_clear_override : Nat
  view_flag_set_override : Nat

/-- `camera_layout_detail::image_rva`. -/
def image_rva (rva bytes alignment : Nat) : Bool :=
  rva != 0 && decide (rva < 0x80000000) && bytes != 0 && decide (bytes ≤ 0x80000000 - rva) &&
    alignment != 0 && rva % alignment == 0

structure ViewAaResult where
  complete : Bool := false
  write_attempted : Bool := false
  error : String := "not_attempted"
deriving DecidableEq

/-- What the calls on one view find: whether its span is writable, the two flag words and the two
overrides at each of two reads, and whether the write lands. -/
structure FlagMemory where
  writable : Bool := true
  current : Option (UInt64 × UInt64) := none
  overrides : Option (UInt64 × UInt64) := none
  wrote : Bool := true
  again : Option (UInt64 × UInt64) := none
  overrides_again : Option (UInt64 × UInt64) := none

def UINTPTR_MAX : Nat := 0xffffffffffffffff

/-- An address that can be a view's. -/
def view_shaped (address : Nat) : Bool :=
  address != 0 && address % 8 == 0 && decide (address ≤ UINTPTR_MAX - 64)

/-! ## The flag -/

/-- After the flag is in place, it is read again. -/
def recheck (same : Option Bool) (write_attempted : Bool) : ViewAaResult :=
  match same with
  | none => { write_attempted, error := "aa_recheck_failed" }
  | some false => { write_attempted, error := "aa_changed_during_update" }
  | some true => { complete := true, write_attempted, error := "" }

def disable_owned_view_aa (view : OwnedViewSnapshot) (layout : CameraImageLayout) (memory : FlagMemory) :
    ViewAaResult :=
  let fail (error : String) : ViewAaResult := { error }
  if !image_rva layout.view_flag_clear_override 8 8 || !image_rva layout.view_flag_set_override 8 8 ||
      layout.view_flag_clear_override == layout.view_flag_set_override then fail "aa_invalid_image_layout"
  else if !view.complete || !view.ready || view.mode != 2 || view.status != .ready ||
      view.read_failures != 0 || view.error != "" || !view_shaped view.view_address then
    fail "aa_invalid_owned_view"
  -- An open gate is accepted only where nothing is to be written.
  else if view.flags.1 &&& 1 == 0 && view.flags.1 &&& kViewAaFlag != 0 then fail "aa_gate_open"
  else if !memory.writable then fail "aa_flags_not_writable"
  else
    match memory.current, memory.overrides with
    | some current, some overrides =>
      if current != view.flags then fail "aa_snapshot_changed"
      else if overrides.2 &&& ~~~overrides.1 &&& kViewAaFlag != 0 then fail "aa_forced_by_global_override"
      else
        let desired := (current.1 &&& ~~~kViewAaFlag, current.2)
        if desired != current && !memory.wrote then
          { write_attempted := true, error := "aa_write_failed" }
        else
          recheck (memory.again.bind fun again =>
            memory.overrides_again.map fun overrides_again =>
              again == desired && overrides_again == overrides) (desired != current)
    | _, _ => fail "aa_read_failed"

def restore_view_aa_flag (view_address : Nat) (memory : FlagMemory) : ViewAaResult :=
  let fail (error : String) : ViewAaResult := { error }
  if !view_shaped view_address then fail "aa_invalid_view_address"
  else if !memory.writable then fail "aa_flags_not_writable"
  else
    match memory.current with
    | none => fail "aa_read_failed"
    | some current =>
      if current.1 &&& 1 == 0 then fail "aa_gate_open"
      else
        let desired := (current.1 ||| kViewAaFlag, current.2)
        if desired != current && !memory.wrote then
          { write_attempted := true, error := "aa_write_failed" }
        else recheck (memory.again.map fun again => again == desired) (desired != current)

/-- The memory of a view takes the flag back: it can be written, its gate is closed, the write lands
where one is needed, and nothing else changed the words. -/
def FlagMemory.takes_back (memory : FlagMemory) (view_address : Nat) : Bool :=
  view_shaped view_address && memory.writable &&
    memory.current.any fun current =>
      current.1 &&& 1 != 0 && (current.1 ||| kViewAaFlag == current.1 || memory.wrote) &&
        memory.again == some (current.1 ||| kViewAaFlag, current.2)

/-- What has none of the bits of a mask is the same without them. -/
theorem and_not_self {x k : UInt64} (h : x &&& k = 0) : x &&& ~~~k = x := by
  have hbits : x &&& ~~~k ||| x &&& k = x := by
    rw [← UInt64.toBitVec_inj]
    ext i
    simp only [UInt64.toBitVec_or, UInt64.toBitVec_and, UInt64.toBitVec_not, BitVec.getElem_or,
      BitVec.getElem_and, BitVec.getElem_not]
    cases x.toBitVec[i] <;> simp
  rwa [h, UInt64.or_zero] at hbits

variable {write_attempted : Bool} {memory : FlagMemory} {same : Option Bool}

theorem recheck_complete : (recheck same write_attempted).complete = true ↔ same = some true := by
  unfold recheck
  split <;> simp

theorem recheck_write_attempted : (recheck same write_attempted).write_attempted = write_attempted := by
  unfold recheck
  split <;> rfl

/-- A flag is given back exactly where memory takes it back. -/
theorem restore_complete {view_address : Nat} :
    (restore_view_aa_flag view_address memory).complete = memory.takes_back view_address := by
  unfold restore_view_aa_flag FlagMemory.takes_back
  cases hshape : view_shaped view_address with
  | false => rfl
  | true =>
    cases hwritable : memory.writable with
    | false => rfl
    | true =>
      rcases hcurrent : memory.current with _ | current
      · rfl
      simp only [Bool.not_true, Bool.false_eq_true, if_false, Bool.true_and, Option.any_some]
      by_cases hgate : current.1 &&& 1 = 0
      · simp [hgate]
      -- The words change exactly where the flag is not set.
      have hsame : ((current.1 ||| kViewAaFlag, current.2) != current) =
          !(current.1 ||| kViewAaFlag == current.1) := by
        rw [Bool.eq_iff_iff]
        simp [Prod.ext_iff]
      have hopen : (current.1 &&& 1 != 0) = true := bne_iff_ne.mpr hgate
      rw [hsame, hopen, if_neg (by simpa using hgate)]
      split
      · rename_i hlost
        simp only [Bool.and_eq_true, Bool.not_eq_true'] at hlost
        simp [hlost.1, hlost.2]
      rename_i hlands
      have hkept : (current.1 ||| kViewAaFlag == current.1 || memory.wrote) = true := by
        revert hlands
        cases current.1 ||| kViewAaFlag == current.1 <;> simp
      rw [hkept, Bool.eq_iff_iff, recheck_complete]
      simp

/-- A write is attempted only where the snapshot has the flag. -/
theorem disable_write_attempted {view : OwnedViewSnapshot} {layout : CameraImageLayout} (h : (disable_owned_view_aa view layout memory).write_attempted = true) :
    view.flags.1 &&& kViewAaFlag ≠ 0 ∧ view_shaped view.view_address = true := by
  unfold disable_owned_view_aa at h
  dsimp only at h
  split at h
  · cases h
  split at h
  · cases h
  rename_i hview
  simp only [Bool.or_eq_true, Bool.not_eq_true', not_or, Bool.not_eq_false] at hview
  refine ⟨fun hclear => ?_, hview.2⟩
  split at h
  · cases h
  split at h
  · cases h
  split at h
  · split at h
    · cases h
    split at h
    · cases h
    rename_i current overrides _ _ hsnapshot _
    obtain rfl : current = view.flags := by simpa using hsnapshot
    have hsame : ((view.flags.1 &&& ~~~kViewAaFlag, view.flags.2) != view.flags) = false := by
      simp [and_not_self hclear]
    rw [hsame, Bool.false_and, if_neg Bool.false_ne_true, recheck_write_attempted] at h
    cases h
  · cases h

/-! ## The ledger -/

/-- The views of one renderer whose flag the bridge cleared and did not give back. -/
structure ClearedAaLedger where
  renderer : Nat := 0
  views : List Nat := List.replicate 4 0

namespace ClearedAaLedger

variable (s : ClearedAaLedger) (renderer view : Nat)

/-- The ledger as it stands for a renderer: the views of another are dropped. -/
def turn_to : ClearedAaLedger :=
  if s.renderer = renderer then s else { renderer }

def note : ClearedAaLedger × Bool :=
  if renderer = 0 ∨ view = 0 then (s, false)
  else
    let s := s.turn_to renderer
    if view ∈ s.views then (s, true)
    else if 0 ∈ s.views then ({ s with views := RetiredViewPool.occupy view s.views }, true)
    else (s, false)

def contains : Bool := renderer == s.renderer && view != 0 && s.views.contains view

def forget : ClearedAaLedger := { s with views := s.views.map fun old => if old = view then 0 else old }

def pending : Bool := s.views.any (· != 0)

/-- A note drops no view, and finds room. -/
def takes : Bool :=
  if s.renderer = renderer then s.views.contains view || s.views.contains 0 else !s.pending

section
variable {s : ClearedAaLedger} {renderer view r v : Nat}

theorem contains_iff : s.contains r v = true ↔ s.renderer = r ∧ v ≠ 0 ∧ v ∈ s.views := by
  simp only [contains, Bool.and_eq_true, beq_iff_eq, bne_iff_ne, List.contains_iff_mem, and_assoc]
  rw [eq_comm]

theorem pending_of_contains (h : s.contains r v = true) : s.pending = true := by
  obtain ⟨-, hv, hmem⟩ := contains_iff.mp h
  exact List.any_eq_true.mpr ⟨v, hmem, by simpa using hv⟩

/-- A note that the ledger takes keeps what it contains, and adds its view. -/
theorem contains_note (hrenderer : renderer ≠ 0) (hview : view ≠ 0) (hroom : s.takes renderer view = true)
    (hv : s.contains r v = true ∨ (r = renderer ∧ v = view)) :
    (s.note renderer view).1.contains r v = true := by
  unfold takes at hroom
  unfold note
  rw [if_neg (not_or.mpr ⟨hrenderer, hview⟩)]
  dsimp only
  by_cases hsame : s.renderer = renderer
  · rw [if_pos hsame] at hroom
    have hturn : s.turn_to renderer = s := if_pos hsame
    rw [hturn]
    split
    · rename_i hmem
      rcases hv with hv | ⟨rfl, rfl⟩
      · exact hv
      · exact contains_iff.mpr ⟨hsame, hview, hmem⟩
    rename_i hnot
    have hzero : 0 ∈ s.views := by simpa [hnot] using hroom
    rw [if_pos hzero]
    rcases hv with hv | ⟨rfl, rfl⟩
    · obtain ⟨hr, hne, hmem⟩ := contains_iff.mp hv
      exact contains_iff.mpr ⟨hr, hne, RetiredViewPool.mem_occupy_of_mem hne hmem⟩
    · exact contains_iff.mpr ⟨hsame, hview, RetiredViewPool.mem_occupy hzero⟩
  rw [if_neg hsame, Bool.not_eq_true'] at hroom
  rcases hv with hv | ⟨rfl, rfl⟩
  · rw [pending_of_contains hv] at hroom
    cases hroom
  have hturn : s.turn_to r = { renderer := r } := if_neg hsame
  have hnot : v ∉ ({ renderer := r } : ClearedAaLedger).views := by simpa using hview
  have hzero : 0 ∈ ({ renderer := r } : ClearedAaLedger).views := by simp
  rw [hturn, if_neg hnot, if_pos hzero]
  exact contains_iff.mpr ⟨rfl, hview, RetiredViewPool.mem_occupy hzero⟩

/-- Only the view itself is forgotten. -/
theorem contains_forget : (s.forget view).contains r v = (s.contains r v && v != view) := by
  rw [Bool.eq_iff_iff, Bool.and_eq_true, contains_iff, contains_iff]
  simp only [forget, List.mem_map, bne_iff_ne]
  constructor
  · rintro ⟨hr, hv, old, hold, hkept⟩
    split at hkept
    · exact absurd hkept.symm hv
    rename_i hother
    subst hkept
    exact ⟨⟨hr, hv, hold⟩, hother⟩
  · rintro ⟨⟨hr, hv, hmem⟩, hother⟩
    exact ⟨hr, hv, v, hmem, if_neg hother⟩

end

end ClearedAaLedger

end taxi_camera.native_camera
