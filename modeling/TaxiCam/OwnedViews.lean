-- What an inspection of an owned view publishes, and which places of a set are
-- owned. src/camera/owned_view.hpp and entry_pair.hpp.
import TaxiCam.SceneObserver
import TaxiCam.StampNative
import TaxiCam.ViewAa

namespace taxi_camera.engine_camera

structure OutputSlotObservation where
  bitmap : Bool := false
  texture : Bool := false
  render_target_record : Bool := false
deriving DecidableEq

/-- `OwnedViewSnapshot` with all that an inspection publishes in it. -/
structure InspectedView extends OwnedViewSnapshot where
  view_index : Int := -1
  fov : Float32 := 0
  resource_present : Bool := false
  output_slots : Vector OutputSlotObservation 3 := Vector.replicate 3 {}
  diagnostic_slots_observed : Bool := false
deriving DecidableEq

/-- Bit 0 of the first flag word closes the gate. -/
def InspectedView.closed (view : InspectedView) : Bool := view.flags.1 &&& 1 != 0

/-- `fov > 0`, of a number that is finite. -/
def positive (f : Float32) : Bool := f.toNat != 0 && f.toNat < 2147483648

/-! ## The owned places -/

def owned_count (ids : OwnedIds) : Nat := ((List.finRange kMaxOwnedViews).takeWhile fun k => ids k != 0).length

/-- The set's views are created in order, so its owned IDs come first. -/
def Ordered (ids : OwnedIds) : Prop := ∀ i j : View, i < j → ids i = 0 → ids j = 0

/-- The places that a pair is judged by. -/
def feeds (ids : OwnedIds) : Nat := max 2 (owned_count ids)

section
variable {ids : OwnedIds} {k : View}

theorem owned_in_count (h : Ordered ids) (hk : ids k ≠ 0) : k.val < owned_count ids := by
  have hbefore : ∀ j : View, j ≤ k → (ids j != 0) = true := by
    intro j hj
    rw [bne_iff_ne]
    intro hnone
    rcases Fin.lt_or_eq_of_le hj with hlt | rfl
    · exact hk (h j k hlt hnone)
    · exact hk hnone
  have hplaces : List.finRange kMaxOwnedViews = (List.finRange kMaxOwnedViews).take (k.val + 1) ++
      (List.finRange kMaxOwnedViews).drop (k.val + 1) := (List.take_append_drop _ _).symm
  have hall : ∀ j ∈ (List.finRange kMaxOwnedViews).take (k.val + 1), (ids j != 0) = true := by
    intro j hj
    obtain ⟨n, hn, rfl⟩ := List.getElem_of_mem hj
    have hlt := Nat.lt_of_lt_of_le hn (List.length_take_le _ _)
    apply hbefore
    rw [List.getElem_take, List.getElem_finRange]
    exact Nat.le_of_lt_succ hlt
  unfold owned_count
  rw [hplaces, List.takeWhile_append_of_pos hall, List.length_append, List.length_take, List.length_finRange]
  omega

theorem owned_in_feeds (h : Ordered ids) (hk : ids k ≠ 0) : k.val < feeds ids :=
  Nat.lt_of_lt_of_le (owned_in_count h hk) (Nat.le_max_right _ _)

end

end taxi_camera.engine_camera
