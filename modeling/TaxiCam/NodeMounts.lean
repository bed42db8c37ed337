-- The mounts of the camera Nodes on the aircraft: what is read of the Nodes,
-- and what is decided from it. src/camera/node_mount.hpp, and `give_back`,
-- `current_mount`, `return_all_mounts`, `mount_on_aircraft` and `restore_mount`
-- of src/camera/probe.cpp. A Node is the number of its address, 0 is none.
-- What is only counted or reported is left out.
import Mathlib.Data.List.Basic

namespace taxi_camera.native_camera.node_mount

/-! ## What is read -/

/-- `valid` stands for the vtable and for every link having been read. -/
structure NodeLinks where
  valid : Bool := false
  parent : Nat := 0
  first_child : Nat := 0
  world : Int := -1
deriving DecidableEq

structure NodeHandle where
  control : Nat := 0
  generation : Nat := 0
deriving DecidableEq

structure FeedMount where
  entry : Nat := 0
  node : Nat := 0
  parent : Nat := 0
  root : Nat := 0
  parent_handle : NodeHandle := {}
  node_handle : NodeHandle := {}
  lost : Bool := false
deriving DecidableEq

/-- The model Node that the scene of an update was read from. -/
structure AircraftScene where
  complete : Bool := false
  node : Nat := 0
  node_control : Nat := 0
  node_generation : Nat := 0
deriving DecidableEq

/-- The reads of a mount: the links of its Nodes, whether `handle_alive` holds for the aircraft Node and for the
camera Node, and whether `listed_child` finds the camera Node under its root and under the aircraft Node. -/
structure Sight where
  camera : NodeLinks := {}
  root : NodeLinks := {}
  alive : Bool := false
  own : Bool := false
  listed_home : Bool := false
  listed_parent : Bool := false
deriving DecidableEq

/-- The native calls, in order. -/
inductive NativeCall
  | detach_node (node : Nat)
  | attach_child (parent node : Nat)
deriving DecidableEq

/-! ## Giving back -/

inductive GiveBack
  | returned | unreferenced | held
deriving DecidableEq

structure GaveBack where
  outcome : GiveBack
  mount : FeedMount
  calls : List NativeCall := []
deriving DecidableEq

def refuse (mount : FeedMount) (calls : List NativeCall := []) : GaveBack := ⟨.held, { mount with lost := true }, calls⟩

/-- `available` is `parenting_available`, `confirmed` is `listed_after_call` for the root behind the calls. -/
def give_back (available : Bool) (mount : FeedMount) (sight : Sight) (confirmed : Bool) : GaveBack :=
  if mount.node = 0 || !available then ⟨.unreferenced, mount, []⟩
  else if !sight.own || !sight.camera.valid then refuse mount
  else if sight.camera.parent = mount.root && sight.listed_home then ⟨.unreferenced, {}, []⟩
  else if !sight.root.valid || decide (sight.root.world < 0) then refuse mount
  else if sight.alive && sight.camera.parent = mount.parent && !sight.listed_parent then ⟨.unreferenced, {}, []⟩
  else if (sight.alive || sight.camera.parent ≠ mount.parent) && !(sight.alive && sight.camera.parent = mount.parent) then
    refuse mount
  else
    let calls := (if sight.alive then [.detach_node mount.node] else []) ++ [.attach_child mount.root mount.node]
    if !confirmed then refuse mount calls else ⟨.returned, {}, calls⟩

/-! ## The mount of a feed that is opened -/

inductive MountState
  | none | attached | lost
deriving DecidableEq

/-- What tells that a mount is still attached: the mount that the fused inspection of this update found, the scene that
this update captured, and the reads of `handle_alive` and of the camera Node's parent link in a scope that finished. -/
structure AttachReads where
  alive : Bool := false
  parent : Option Nat := none
  finished : Bool := false
deriving DecidableEq

/-- The fused inspection found this mount attached. -/
def fused_hit (mount : FeedMount) (fused : Option FeedMount) : Bool :=
  fused.any fun found => found.entry = mount.entry && found.node = mount.node && found.parent = mount.parent &&
    found.parent_handle = mount.parent_handle

def attached (mount : FeedMount) (scene_fresh : Bool) (fused : Option FeedMount) (scene : Option AircraftScene)
    (reads : AttachReads) : Bool :=
  let handle_read := scene_fresh && scene.any fun scene => scene.complete && mount.parent = scene.node &&
    mount.parent_handle = ⟨scene.node_control, scene.node_generation⟩
  scene_fresh && fused_hit mount fused ||
    (handle_read || reads.alive) && reads.parent = some mount.parent && reads.finished

/-- A feed's mount for the Node `node`. `still` is `attached`. -/
def current_mount (available : Bool) (mount : FeedMount) (node : Nat) (still : Bool) (sight : Sight) (confirmed : Bool) :
    MountState × FeedMount × List NativeCall :=
  if mount.node = 0 || mount.node ≠ node then (.none, mount, [])
  else if mount.lost then (.lost, mount, [])
  else if still then (.attached, mount, [])
  else
    let gave := give_back available mount sight confirmed
    (if gave.outcome = .held then .lost else .none, gave.mount, gave.calls)

/-! ## Mounting -/

/-- The reads before the attach: the links of the camera Node, of the aircraft Node and of the camera Node's parent,
whether that lists the camera Node, the camera Node's own handle, and whether the aircraft's is alive. -/
structure MountReads where
  camera : NodeLinks := {}
  aircraft : NodeLinks := {}
  root : NodeLinks := {}
  listed : Bool := false
  handle : Option NodeHandle := none
  alive : Bool := false
  finished : Bool := false
deriving DecidableEq

/-- The reads admit the attach. -/
def MountReads.admitted (reads : MountReads) (node : Nat) (scene : AircraftScene) : Option NodeHandle :=
  if !reads.camera.valid || !reads.aircraft.valid then none
  else if reads.camera.parent = scene.node || reads.camera.first_child ≠ 0 || decide (reads.camera.world < 0) ||
      reads.camera.world ≠ reads.aircraft.world || node = scene.node then none
  else if !reads.root.valid || !reads.listed then none
  else if !reads.alive || !reads.finished then none
  else reads.handle

/-- `confirmed` is `listed_after_call` for the aircraft Node behind the calls. -/
def mount_on_aircraft (available : Bool) (mount : FeedMount) (entry node : Nat) (scene : AircraftScene)
    (reads : MountReads) (confirmed : Bool) : Bool × FeedMount × List NativeCall :=
  let mount := if mount.node ≠ 0 ∧ mount.node ≠ node then {} else mount
  if !available || !scene.complete || scene.node = 0 || scene.node_control = 0 then (false, mount, [])
  else
    match reads.admitted node scene with
    | none => (false, mount, [])
    | some node_handle =>
      (confirmed, ⟨entry, node, scene.node, reads.camera.parent, ⟨scene.node_control, scene.node_generation⟩, node_handle,
          !confirmed⟩,
        [.detach_node node, .attach_child scene.node node])

/-! ## Before an erase -/

/-- The mount of an entry that is to be erased. The first answer is `proceed`; `still_listed` is what is read once
more of a mount that was held. -/
def restore_mount (available : Bool) (mount : FeedMount) (id : Nat) (sight : Sight) (confirmed still_listed : Bool) :
    Bool × FeedMount × List NativeCall :=
  if mount.node = 0 || mount.entry ≠ id then (true, mount, [])
  else
    let gave := give_back available mount sight confirmed
    if gave.outcome ≠ .held then (true, gave.mount, gave.calls)
    else if still_listed then (false, gave.mount, gave.calls)
    else (true, {}, gave.calls)

end taxi_camera.native_camera.node_mount
