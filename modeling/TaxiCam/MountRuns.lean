-- The mounts of the four feeds over a session: cameras are created, mounted,
-- given back and erased, while the engine changes the Nodes between the calls.
-- `return_all_mounts`, `place_feeds` and `restore_mount` of src/camera/probe.cpp
-- on a graph of Nodes. An entry keeps the aircraft Nodes that it was mounted on.
import TaxiCam.NodeGraph
import TaxiCam.Runs
import Mathlib.Data.List.FinRange

namespace taxi_camera.native_camera.mount_runs

open node_mount node_graph runs

/-- Which reads of a give-back answer; the last two are the reads before an erase that is held. -/
structure Look where
  camera : Bool := true
  root : Bool := true
  parent_handle : Bool := true
  node_handle : Bool := true
  home : WalkReads := {}
  aircraft : WalkReads := {}
  confirmed : WalkReads := {}
  again_handle : Bool := true
  again : WalkReads := {}

def sight (g : Graph) (mount : FeedMount) (look : Look) : Sight where
  camera := g.read_node_links look.camera mount.node
  root := g.read_node_links look.root mount.root
  alive := g.handle_alive look.parent_handle mount.parent_handle mount.parent
  own := g.handle_alive look.node_handle mount.node_handle mount.node
  listed_home := g.listed_child look.home mount.root mount.node
  listed_parent := g.listed_child look.aircraft mount.parent mount.node

/-- Which reads before an attach answer; `observed` is the handle that the camera Node's view holds. -/
structure MountLook where
  camera : Bool := true
  aircraft : Bool := true
  root : Bool := true
  listed : WalkReads := {}
  observed : NodeHandle := {}
  handle : Bool := true
  alive : Bool := true
  finished : Bool := true
  confirmed : WalkReads := {}

def mount_reads (g : Graph) (node : Nat) (scene : AircraftScene) (look : MountLook) : MountReads :=
  let camera := g.read_node_links look.camera node
  { camera
    aircraft := g.read_node_links look.aircraft scene.node
    root := g.read_node_links look.root camera.parent
    listed := g.listed_child look.listed camera.parent node
    handle := if g.handle_alive look.handle look.observed node then some look.observed else none
    alive := g.handle_alive look.alive ⟨scene.node_control, scene.node_generation⟩ scene.node
    finished := look.finished }

/-- An entry of a feed, and the aircraft Nodes under which its camera Node was attached. -/
structure Entry where
  id : Nat
  node : Nat
  mounted_on : List (Nat × NodeHandle) := []

/-- `erased` has, for every native erase, the entry and the Nodes that it found. -/
structure World where
  graph : Graph
  entries : Fin 4 → Option Entry := fun _ => none
  mounts : Fin 4 → FeedMount := fun _ => {}
  erased : List (Entry × Graph) := []

/-- No live aircraft Node that the entry's camera Node was mounted on lists it. -/
def Unlisted (e : Entry) (g : Graph) : Prop := ∀ p ∈ e.mounted_on, g.Alive p → e.node ∉ g.children p.1

namespace World

def moved (engine : Engine) (w : World) (calls : List NativeCall) : World :=
  { w with graph := engine.calls w.graph calls }

def with_mount (w : World) (i : Fin 4) (mount : FeedMount) : World :=
  { w with mounts := Function.update w.mounts i mount }

/-- What is decided for a feed's mount, with its calls carried out; `decided` is given the Nodes behind the calls. -/
def apply {β : Type} (engine : Engine) (w : World) (i : Fin 4) (decided : Graph → β × FeedMount × List NativeCall) : β × World :=
  let behind := w.moved engine (decided w.graph).2.2
  let answer := decided behind.graph
  (answer.1, behind.with_mount i answer.2.1)

variable (engine : Engine) (available : Bool) (w : World)

def give_back (i : Fin 4) (look : Look) : GiveBack × World :=
  let mount := w.mounts i
  w.apply engine i fun behind =>
    let gave := node_mount.give_back available mount (sight w.graph mount look)
      (behind.listed_child look.confirmed mount.root mount.node)
    (gave.outcome, gave.mount, gave.calls)

def current_mount (i : Fin 4) (node : Nat) (still : Bool) (look : Look) : MountState × World :=
  let mount := w.mounts i
  w.apply engine i fun behind =>
    node_mount.current_mount available mount node still (sight w.graph mount look)
      (behind.listed_child look.confirmed mount.root mount.node)

/-- An attach leaves its aircraft Node with the entry. -/
def mount_on_aircraft (i : Fin 4) (e : Entry) (scene : AircraftScene) (look : MountLook) : World :=
  let mount := w.mounts i
  let reads := mount_reads w.graph e.node scene look
  let decided := fun behind : Graph => node_mount.mount_on_aircraft available mount e.id e.node scene reads
    (behind.listed_child look.confirmed scene.node e.node)
  let answer := w.apply engine i decided
  if (decided w.graph).2.2.isEmpty then answer.2
  else
    let e := { e with mounted_on := (scene.node, ⟨scene.node_control, scene.node_generation⟩) :: e.mounted_on }
    { answer.2 with entries := Function.update w.entries i (some e) }

/-- `place_feeds`, for one feed. -/
def pulse (i : Fin 4) (scene : AircraftScene) (still : Bool) (look : Look) (mount_look : MountLook) : World :=
  match w.entries i with
  | none => w
  | some e =>
    let current := w.current_mount engine available i e.node still look
    if current.1 = .none then current.2.mount_on_aircraft engine available i e scene mount_look else current.2

/-- `return_all_mounts`, for one feed. -/
def return_mount (look : Fin 4 → Look) (w : World) (i : Fin 4) : World :=
  if (w.mounts i).node = 0 || (w.mounts i).lost then w else (w.give_back engine available i (look i)).2

/-- `restore_mount`, for one feed. -/
def restore_feed (id : Nat) (look : Fin 4 → Look) (w : World) (i : Fin 4) : Bool × World :=
  let mount := w.mounts i
  w.apply engine i fun behind =>
    node_mount.restore_mount available mount id (sight w.graph mount (look i))
      (behind.listed_child (look i).confirmed mount.root mount.node)
      (behind.handle_alive (look i).again_handle mount.parent_handle mount.parent &&
        behind.listed_child (look i).again mount.parent mount.node)

def restore_next (id : Nat) (look : Fin 4 → Look) (s : Bool × World) (i : Fin 4) : Bool × World :=
  let one := s.2.restore_feed engine available id look i
  (s.1 && one.1, one.2)

def restore_mount (id : Nat) (look : Fin 4 → Look) : Bool × World :=
  run (restore_next engine available id look) (true, w) (List.finRange 4)

end World

/-- What happens to the mounts. `engine` is whatever the simulator does to its Nodes; an entry that vanishes was removed by
the simulator. `retained` is what an erase asks for behind `restore_mount`. -/
inductive Op
  | engine (g : Graph)
  | created (i : Fin 4) (id node : Nat) (g : Graph)
  | vanished (i : Fin 4) (g : Graph)
  | pulse (i : Fin 4) (scene : AircraftScene) (still : Bool) (look : Look) (mount_look : MountLook)
  | pause (look : Fin 4 → Look)
  | erase (i : Fin 4) (look : Fin 4 → Look) (retained : Bool)

def step (engine : Engine) (available : Bool) (w : World) : Op → World
  | .engine g => { w with graph := g }
  | .created i id node g => { w with graph := g, entries := Function.update w.entries i (some ⟨id, node, []⟩) }
  | .vanished i g => { w with graph := g, entries := Function.update w.entries i none }
  | .pulse i scene still look mount_look => w.pulse engine available i scene still look mount_look
  | .pause look => run (World.return_mount engine available look) w (List.finRange 4)
  | .erase i look retained =>
    match w.entries i with
    | none => w
    | some e =>
      let restored := w.restore_mount engine available e.id look
      if restored.1 && retained then
        { restored.2 with
          entries := Function.update restored.2.entries i none
          erased := (e, restored.2.graph) :: restored.2.erased }
      else restored.2

end taxi_camera.native_camera.mount_runs
