-- One update that opens cameras: the feeds are placed on the pose that it
-- captured, and their gates are opened. `place_feeds`, `apply_pose` and
-- `apply_gates` of src/camera/probe.cpp. What the session and the reads answer
-- in the update is a record of its own.
import TaxiCam.NodeMounts
import Mathlib.Data.List.FinRange

namespace taxi_camera.native_camera.feed_placement

open node_mount List

variable {π : Type}

/-- What is read for one feed, and whether the session allows work when it is placed, when its gate is opened, and when
it was not. -/
structure FeedReads where
  attach : AttachReads := {}
  sight : Sight := {}
  given_back : Bool := false
  mount : MountReads := {}
  mounted : Bool := false
  pose_allowed : Bool := true
  open_allowed : Bool := true
  kept_allowed : Bool := true

/-- The update behind its capture of the pose: `desired` are the feeds that it opens, `scene` is the scene of this
update, if it has one, `session` what `mounting_allowed` asks of the session. `fused` is the feed and the mount that the
fused inspection found, where nothing was called since. -/
structure Update (π : Type) where
  ids : Fin 4 → Nat
  nodes : Fin 4 → Nat
  desired : Fin 4 → Bool
  mounts : Fin 4 → FeedMount
  mounted_poses : Fin 4 → π
  available : Bool := true
  session : Bool := true
  scene : Option AircraftScene
  fused : Option (Fin 4 × FeedMount) := none
  reads : Fin 4 → FeedReads
  gates_allowed : Bool := true
  gates : Fin 4 → Bool := fun _ => false
  observed_active : Fin 4 → Bool := fun _ => false
  initialize_gates : Bool := false

namespace Update

variable (far_aim : π → π) (x : Update π)

def mounting : Bool := x.available && x.session && x.scene.any fun scene => scene.complete

def fused_for (i : Fin 4) : Option FeedMount := x.fused.bind fun found => if found.1 = i then some found.2 else none

/-! ## Placing -/

/-- A feed is placed with a pose; `allowed` is whether the session allows what `apply_pose` calls. -/
structure Applied (π : Type) where
  feed : Fin 4
  pose : π
  allowed : Bool

/-- `mounted`, as the mount is found. -/
def found (i : Fin 4) (scene_fresh : Bool) : MountState × FeedMount :=
  let reads := x.reads i
  let mount := x.mounts i
  if x.mounting then
    let current := current_mount x.available mount (x.nodes i)
      (attached mount scene_fresh (x.fused_for i) x.scene reads.attach) reads.sight reads.given_back
    (current.1, current.2.1)
  else (if mount.node ≠ 0 ∧ mount.node = x.nodes i then .lost else .none, mount)

/-- `mounted`, behind the attempt to mount the feed. -/
def mounted (i : Fin 4) (scene_fresh : Bool) : MountState × FeedMount :=
  let reads := x.reads i
  let found := x.found i scene_fresh
  if found.1 = .none && x.mounting then
    let answer := mount_on_aircraft x.available found.2 (x.ids i) (x.nodes i) (x.scene.getD {}) reads.mount reads.mounted
    (if answer.1 then .attached else .none, answer.2.1)
  else found

def passed_over (state : MountState × FeedMount) : Bool :=
  state.1 = .lost || state.1 = .attached && state.2.parent ≠ (x.scene.getD {}).node

/-- The body of the loop of `place_feeds` for a feed that is desired. -/
def place (i : Fin 4) (scene_fresh : Bool) : Option (Applied π) :=
  let state := x.mounted i scene_fresh
  if x.passed_over state then none
  else
    some ⟨i, if state.1 = .attached then far_aim (x.mounted_poses i) else x.mounted_poses i, (x.reads i).pose_allowed⟩

/-- The loop over the feeds: the first that is desired finds the scene as it was captured. -/
def place_from : Bool → List (Fin 4) → List (Applied π)
  | _, [] => []
  | scene_fresh, i :: rest =>
    if x.desired i then (x.place far_aim i scene_fresh).toList ++ place_from false rest else place_from scene_fresh rest

def place_feeds : List (Applied π) := x.place_from far_aim true (List.finRange 4)

/-! ## The gates -/

/-- A call of `activate_owned_entry`. -/
structure Activation where
  feed : Fin 4
  active : Bool
deriving DecidableEq

/-- `allowed`, when the gates are applied. -/
def allowed (i : Fin 4) : Bool := x.gates_allowed && x.desired i

def close_gate (i : Fin 4) : Option Activation :=
  if x.ids i = 0 then none
  else if x.initialize_gates || !x.allowed i && (x.gates i || x.observed_active i) then some ⟨i, false⟩ else none

def open_gate (i : Fin 4) : Option Activation :=
  if x.ids i = 0 then none
  else if x.allowed i && (x.reads i).open_allowed && (x.initialize_gates || !x.gates i || !x.observed_active i) then
    some ⟨i, true⟩
  else if x.allowed i && !(x.reads i).kept_allowed then some ⟨i, false⟩
  else none

/-- Gates are closed before one is opened. -/
def apply_gates : List Activation :=
  (List.finRange 4).filterMap x.close_gate ++ (List.finRange 4).filterMap x.open_gate

/-! ## The feeds that are passed over -/

/-- No feed before this one is desired. -/
def fresh (i : Fin 4) : Bool := ((List.finRange 4).takeWhile fun j => j ≠ i).all fun j => !x.desired j

/-- The feed's camera Node is on a mount. -/
def carried (i : Fin 4) : Prop := (x.mounts i).node ≠ 0 ∧ (x.mounts i).node = x.nodes i

/-- A mount that is not attached any more cannot be given back. -/
def stuck (i : Fin 4) : Prop := (give_back x.available (x.mounts i) (x.reads i).sight (x.reads i).given_back).outcome = .held

/-- The camera Node of a feed is on a mount on which it is not placed: mounting is not allowed, the mount is lost, it
is attached to another Node than the aircraft's, or it is not attached and cannot be given back. -/
def Stranded (i : Fin 4) : Prop :=
  x.carried i ∧ (x.mounting = true → (x.mounts i).lost = false →
    if attached (x.mounts i) (x.fresh i) (x.fused_for i) x.scene (x.reads i).attach then
      (x.mounts i).parent ≠ (x.scene.getD {}).node
    else x.stuck i)

/-- The gate of a feed is one that is opened. -/
def opens (i : Fin 4) : Prop :=
  x.ids i ≠ 0 ∧ x.allowed i = true ∧ (x.reads i).open_allowed = true ∧
    (x.initialize_gates = true ∨ x.gates i = false ∨ x.observed_active i = false)

/-- `apply_pose` was called for a feed, with the pose that the update captured. -/
def PlacedWith (i : Fin 4) (a : Applied π) : Prop :=
  a.feed = i ∧ (a.pose = x.mounted_poses i ∨ a.pose = far_aim (x.mounted_poses i))

/-! ## What the loops do for one feed -/

section
variable {far_aim : π → π} {x : Update π} {i : Fin 4}

theorem opened_iff : ⟨i, true⟩ ∈ x.apply_gates ↔ x.opens i := by
  have hclose (j : Fin 4) : x.close_gate j ≠ some ⟨i, true⟩ := by
    unfold close_gate
    split
    · nofun
    · split <;> simp
  have hopen (j : Fin 4) : x.open_gate j = some ⟨i, true⟩ ↔ j = i ∧ x.opens j := by
    unfold open_gate opens
    split
    · rename_i hnone
      simp [hnone]
    rename_i hid
    split
    · rename_i hopens
      simp only [Bool.and_eq_true, Bool.or_eq_true, Bool.not_eq_true', or_assoc] at hopens
      simp [hid, hopens]
    rename_i hopens
    simp only [Bool.and_eq_true, Bool.or_eq_true, Bool.not_eq_true', or_assoc] at hopens
    split <;> simp only [Option.some.injEq, Activation.mk.injEq, reduceCtorEq, and_false, false_iff, not_and] <;>
      exact fun _ _ hallowed hopen => fun hgate => hopens ⟨⟨hallowed, hopen⟩, hgate⟩
  unfold apply_gates
  simp only [mem_append, mem_filterMap, mem_finRange, true_and, hclose, exists_false, false_or, hopen]
  constructor
  · rintro ⟨j, rfl, h⟩
    exact h
  · exact fun h => ⟨i, rfl, h⟩

variable {a : Applied π} {b : Bool}

theorem place_feed (h : x.place far_aim i b = some a) :
    x.PlacedWith far_aim i a ∧ a.allowed = (x.reads i).pose_allowed := by
  unfold place at h
  dsimp only at h
  split at h
  · cases h
  obtain rfl := Option.some.inj h
  refine ⟨⟨rfl, ?_⟩, rfl⟩
  split
  · exact .inr rfl
  · exact .inl rfl

/-- A feed that is desired is placed as the loop finds it: with the captured scene where none before it was desired. -/
theorem mem_place_from {l : List (Fin 4)} (hl : l.Nodup) (hi : i ∈ l) (ha : a.feed = i) :
    a ∈ x.place_from far_aim b l ↔ x.desired i = true ∧
      x.place far_aim i (b && (l.takeWhile fun j => j ≠ i).all fun j => !x.desired j) = some a := by
  have hother {c : Bool} {l : List (Fin 4)} (hno : i ∉ l) : a ∉ x.place_from far_aim c l := by
    induction l generalizing c with
    | nil => exact not_mem_nil
    | cons j l ih =>
      obtain ⟨hj, hno⟩ := not_or.mp (mt mem_cons.mpr hno)
      unfold place_from
      split
      · rw [mem_append, not_or, Option.mem_toList]
        refine ⟨fun hplace => hj ?_, ih hno⟩
        rw [← ha, (place_feed hplace).1.1]
      · exact ih hno
  induction l generalizing b with
  | nil => cases hi
  | cons j l ih =>
    obtain ⟨hj, hl⟩ := nodup_cons.mp hl
    unfold place_from
    by_cases hji : j = i
    · subst hji
      rw [takeWhile_cons_of_neg (by simp), all_nil, Bool.and_true]
      split
      · rename_i hdesired
        rw [mem_append, Option.mem_toList, or_iff_left (hother hj)]
        exact (and_iff_right hdesired).symm
      rename_i hdesired
      exact iff_of_false (hother hj) fun h => hdesired h.1
    have hmem : i ∈ l := (mem_cons.mp hi).resolve_left (Ne.symm hji)
    rw [takeWhile_cons_of_pos (by simpa using hji), all_cons]
    split
    · rename_i hdesired
      have hnot : a ∉ (x.place far_aim j b).toList := by
        rw [Option.mem_toList]
        intro hplace
        exact hji (by rw [← ha, (place_feed hplace).1.1])
      rw [mem_append, or_iff_right hnot]
      refine (ih hl hmem).trans ?_
      simp [hdesired]
    rename_i hdesired
    refine (ih hl hmem).trans ?_
    simp [hdesired]

theorem mem_place_feeds (ha : a.feed = i) :
    a ∈ x.place_feeds far_aim ↔ x.desired i = true ∧ x.place far_aim i (x.fresh i) = some a :=
  mem_place_from (nodup_finRange 4) (mem_finRange i) ha

theorem mounted_parent {available : Bool} {mount : FeedMount} {entry node : Nat} {scene : AircraftScene}
    {reads : MountReads} {confirmed : Bool} (h : (mount_on_aircraft available mount entry node scene reads confirmed).1 = true) :
    (mount_on_aircraft available mount entry node scene reads confirmed).2.1.parent = scene.node := by
  unfold mount_on_aircraft at h ⊢
  dsimp only at h ⊢
  split at h
  · cases h
  rename_i havailable
  rw [if_neg havailable]
  split at h
  · cases h
  · rfl

/-- A feed without a mount is placed, whether it could be mounted or not. -/
theorem not_passed_over (hmounting : x.mounting = true) (hfound : (x.found i b).1 = .none) :
    x.passed_over (x.mounted i b) = false := by
  have hunmounted : ((x.found i b).1 = .none && x.mounting) = true := by simp [hfound, hmounting]
  unfold mounted passed_over
  rw [if_pos hunmounted]
  dsimp only
  split
  · rename_i hanswer
    simp [mounted_parent hanswer]
  · simp

theorem mounted_found (hfound : (x.found i b).1 ≠ .none) : x.mounted i b = x.found i b := by
  unfold mounted
  rw [if_neg (by simp [hfound])]

/-- A feed is passed over where its camera Node is stranded on its mount. -/
theorem passed_over_iff : x.passed_over (x.mounted i (x.fresh i)) = true ↔ x.Stranded i := by
  cases hmounting : x.mounting with
  | false =>
    have hstate : x.found i (x.fresh i) = (if (x.mounts i).node ≠ 0 ∧ (x.mounts i).node = x.nodes i then .lost else .none, x.mounts i) := by
      unfold found
      rw [hmounting]
      rfl
    have hsame : x.mounted i (x.fresh i) = x.found i (x.fresh i) := by
      unfold mounted
      dsimp only
      rw [hmounting, Bool.and_false, if_neg Bool.false_ne_true]
    unfold Stranded carried
    rw [hsame, hstate, hmounting]
    by_cases hcarried : (x.mounts i).node ≠ 0 ∧ (x.mounts i).node = x.nodes i
    · have hnode : x.nodes i ≠ 0 := hcarried.2 ▸ hcarried.1
      simp [passed_over, hcarried, hnode]
    simp [passed_over, hcarried]
  | true =>
    by_cases hcarried : x.carried i
    · have hnode : ((x.mounts i).node = 0 || decide ((x.mounts i).node ≠ x.nodes i)) = false := by
        simpa [carried] using hcarried
      cases hlost : (x.mounts i).lost with
      | true =>
        have hfound : x.found i (x.fresh i) = (.lost, x.mounts i) := by
          simp only [found, hmounting, if_true, current_mount, hnode, hlost, Bool.false_eq_true, if_false]
        rw [mounted_found (by rw [hfound]; nofun), hfound]
        unfold Stranded
        simp [passed_over, hcarried, hlost]
      | false =>
        cases hstill : attached (x.mounts i) (x.fresh i) (x.fused_for i) x.scene (x.reads i).attach with
        | true =>
          have hfound : x.found i (x.fresh i) = (.attached, x.mounts i) := by
            simp only [found, hmounting, if_true, current_mount, hnode, hlost, hstill, Bool.false_eq_true, if_false]
          rw [mounted_found (by rw [hfound]; nofun), hfound]
          unfold Stranded
          simp [passed_over, hcarried, hlost, hmounting, hstill]
        | false =>
          have hfound : (x.found i (x.fresh i)).1 = if (give_back x.available (x.mounts i) (x.reads i).sight
              (x.reads i).given_back).outcome = .held then .lost else .none := by
            simp only [found, hmounting, if_true, current_mount, hnode, hlost, hstill, Bool.false_eq_true, if_false]
          unfold Stranded stuck
          simp only [hcarried, hmounting, hlost, hstill, true_and, true_implies, Bool.false_eq_true, if_false]
          by_cases hheld : (give_back x.available (x.mounts i) (x.reads i).sight (x.reads i).given_back).outcome = .held
          · rw [if_pos hheld] at hfound
            rw [mounted_found (by rw [hfound]; nofun)]
            simp [passed_over, hfound, hheld]
          rw [if_neg hheld] at hfound
          rw [not_passed_over hmounting hfound]
          simpa using hheld
    · have hfound : (x.found i (x.fresh i)).1 = .none := by
        have hnode : ((x.mounts i).node = 0 || decide ((x.mounts i).node ≠ x.nodes i)) = true := by
          unfold carried at hcarried
          simpa [or_iff_not_imp_left] using hcarried
        simp only [found, hmounting, if_true, current_mount, hnode]
      rw [not_passed_over hmounting hfound]
      unfold Stranded
      simp [hcarried]

theorem place_iff : (∃ a, x.place far_aim i (x.fresh i) = some a) ↔ ¬x.Stranded i := by
  rw [← passed_over_iff, Bool.not_eq_true]
  unfold place
  dsimp only
  cases x.passed_over (x.mounted i (x.fresh i)) <;> simp

/-- A feed whose gate is opened was placed with the captured pose in the same update, unless its camera Node is stranded
on its mount: such a feed is never placed. -/
theorem an_opened_feed_is_placed_unless_stranded (hopened : ⟨i, true⟩ ∈ x.apply_gates) :
    ((∃ a ∈ x.place_feeds far_aim, x.PlacedWith far_aim i a) ↔ ¬x.Stranded i) ∧
      ∀ a ∈ x.place_feeds far_aim, a.feed = i → x.PlacedWith far_aim i a ∧ a.allowed = (x.reads i).pose_allowed := by
  have hdesired : x.desired i = true := by
    obtain ⟨-, hallowed, -⟩ := opened_iff.mp hopened
    exact (Bool.and_eq_true_iff.mp hallowed).2
  refine ⟨?_, fun a hmem hfeed => place_feed ((mem_place_feeds hfeed).mp hmem).2⟩
  have hplaced : (∃ a, x.place far_aim i (x.fresh i) = some a) ↔ ¬x.Stranded i := place_iff
  rw [← hplaced]
  constructor
  · rintro ⟨a, hmem, hfeed, -⟩
    exact ⟨a, ((mem_place_feeds hfeed).mp hmem).2⟩
  · rintro ⟨a, hplace⟩
    have hwith := (place_feed hplace).1
    exact ⟨a, (mem_place_feeds hwith.1).mpr ⟨hdesired, hplace⟩, hwith⟩

end

/-! ## A lost mount -/

/-- The first feed is opened, on an aircraft Node 7. -/
def opening (mount : FeedMount) : Update Nat where
  ids := fun i => if i = 0 then 1 else 0
  nodes := fun i => if i = 0 then 4 else 0
  desired := fun i => i = 0
  mounts := fun i => if i = 0 then mount else {}
  mounted_poses := fun _ => 5
  scene := some ⟨true, 7, 8, 1⟩
  reads := fun _ => {}

theorem a_feed_without_a_mount_is_placed :
    ((∃ a ∈ (opening {}).place_feeds id, (opening {}).PlacedWith id 0 a) ↔ ¬(opening {}).Stranded 0) ∧
      ∀ a ∈ (opening {}).place_feeds id, a.feed = 0 → (opening {}).PlacedWith id 0 a ∧ a.allowed = true :=
  an_opened_feed_is_placed_unless_stranded (by decide)

/-- The feed's mount is lost: its gate is opened, and it is not placed. -/
theorem a_lost_mount_is_opened_unplaced :
    ¬∀ i, ⟨i, true⟩ ∈ (opening { entry := 1, node := 4, parent := 7, root := 9, lost := true }).apply_gates →
      ∃ a ∈ (opening { entry := 1, node := 4, parent := 7, root := 9, lost := true }).place_feeds id,
        (opening { entry := 1, node := 4, parent := 7, root := 9, lost := true }).PlacedWith id i a := by
  intro h
  obtain ⟨a, hmem, -⟩ := h 0 (by decide)
  have hnone : (opening { entry := 1, node := 4, parent := 7, root := 9, lost := true }).place_feeds id = [] := rfl
  rw [hnone] at hmem
  cases hmem

end Update

end taxi_camera.native_camera.feed_placement
