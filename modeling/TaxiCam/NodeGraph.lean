-- The scene Nodes, as the mounts of the cameras read them: parent links, child
-- lists and generation handles. `read_node_links`, `listed_child` and
-- `handle_alive` of src/camera/node_mount.hpp. Every read may fail; what fails is
-- a part of the look. A child list is the list of the Nodes that its sibling
-- links pass.
import TaxiCam.NodeMounts
import Mathlib.Logic.Function.Basic

namespace taxi_camera.native_camera.node_graph

open node_mount List
open Function (update_of_ne)

structure Graph where
  parent : Nat → Nat := fun _ => 0
  children : Nat → List Nat := fun _ => []
  /-- The handle that resolves to the Node at an address. -/
  handle_of : Nat → Option NodeHandle := fun _ => none
  /-- The object at an address has the vtable of a scene Node. -/
  scene_node : Nat → Bool := fun _ => false
  world : Nat → Int := fun _ => -1

/-! ## Reading -/

def pointer (value : Nat) : Bool := value ≠ 0 && value % 8 = 0 && value ≤ 18446744073709551103

/-- Which reads of a walk answer. -/
structure WalkReads where
  named : Bool := true
  first_child : Bool := true
  next_sibling : Nat → Bool := fun _ => true

def child_walk_limit : Nat := 1024

/-- The walk along the sibling links. -/
def walk (next_sibling : Nat → Bool) (node : Nat) : Nat → List Nat → Bool
  | 0, _ => false
  | _ + 1, [] => false
  | limit + 1, child :: rest =>
    pointer child && (child = node || next_sibling child && walk next_sibling node limit rest)

namespace Graph

variable (g : Graph)

def read_node_links (answered : Bool) (node : Nat) : NodeLinks :=
  if pointer node && g.scene_node node && answered then ⟨true, g.parent node, (g.children node).headD 0, g.world node⟩ else {}

def handle_alive (answered : Bool) (handle : NodeHandle) (object : Nat) : Bool :=
  handle.control ≠ 0 && object ≠ 0 && answered && g.handle_of object = some handle

def listed_child (reads : WalkReads) (parent node : Nat) : Bool :=
  pointer parent && pointer node && reads.named && g.parent node = parent && reads.first_child &&
    walk reads.next_sibling node child_walk_limit (g.children parent)

/-- A Node lives while its handle resolves to it. -/
def Alive (node : Nat × NodeHandle) : Prop := g.handle_alive true node.2 node.1 = true

instance (node : Nat × NodeHandle) : Decidable (g.Alive node) := inferInstanceAs (Decidable (_ = true))

/-- Every read of a walk from `parent` to `node` answers, and the walk is long enough for it. -/
def Answered (reads : WalkReads) (parent node : Nat) : Prop :=
  pointer parent ∧ pointer node ∧ reads.named ∧ reads.first_child ∧
    ∃ before after, g.children parent = before ++ node :: after ∧ before.length < child_walk_limit ∧
      ∀ child ∈ before, pointer child ∧ reads.next_sibling child

end Graph

theorem walk_iff {next_sibling : Nat → Bool} {node limit : Nat} {l : List Nat} (hnode : pointer node = true) :
    walk next_sibling node limit l = true ↔ ∃ before after, l = before ++ node :: after ∧ before.length < limit ∧
      ∀ child ∈ before, pointer child ∧ next_sibling child := by
  induction l generalizing limit with
  | nil => cases limit <;> simp [walk]
  | cons child rest ih =>
    cases limit with
    | zero => simp [walk]
    | succ limit =>
      simp only [walk, Bool.and_eq_true, Bool.or_eq_true, decide_eq_true_eq, ih]
      constructor
      · rintro ⟨hchild, rfl | ⟨hnext, before, after, rfl, hlength, hbefore⟩⟩
        · exact ⟨[], rest, rfl, Nat.succ_pos limit, nofun⟩
        · refine ⟨child :: before, after, rfl, Nat.succ_lt_succ hlength, ?_⟩
          intro c hc
          rcases mem_cons.mp hc with rfl | hc
          · exact ⟨hchild, hnext⟩
          · exact hbefore c hc
      · rintro ⟨before, after, hl, hlength, hbefore⟩
        cases before with
        | nil =>
          obtain ⟨rfl, -⟩ := cons.inj hl
          exact ⟨hnode, .inl rfl⟩
        | cons c before =>
          obtain ⟨rfl, hrest⟩ := cons.inj hl
          obtain ⟨hchild, hnext⟩ := hbefore child mem_cons_self
          exact ⟨hchild, .inr ⟨hnext, before, after, hrest, Nat.lt_of_succ_lt_succ hlength,
            fun d hd => hbefore d (mem_cons_of_mem _ hd)⟩⟩

namespace Graph

variable {g : Graph}
variable {answered : Bool} {node parent : Nat} {reads : WalkReads}

/-- What a walk finds is listed, and names its parent. -/
theorem listed_child_sound (h : g.listed_child reads parent node = true) :
    node ∈ g.children parent ∧ g.parent node = parent := by
  simp only [listed_child, Bool.and_eq_true, decide_eq_true_eq] at h
  obtain ⟨⟨⟨⟨⟨-, hnode⟩, -⟩, hparent⟩, -⟩, hwalk⟩ := h
  obtain ⟨before, after, hl, -, -⟩ := (walk_iff hnode).mp hwalk
  exact ⟨hl ▸ mem_append_right before mem_cons_self, hparent⟩

theorem listed_child_of_answered (hparent : g.parent node = parent)
    (h : g.Answered reads parent node) : g.listed_child reads parent node = true := by
  obtain ⟨hpointer, hnode, hnamed, hfirst, hpath⟩ := h
  simp only [listed_child, Bool.and_eq_true, decide_eq_true_eq]
  exact ⟨⟨⟨⟨⟨hpointer, hnode⟩, hnamed⟩, hparent⟩, hfirst⟩, (walk_iff hnode).mpr hpath⟩

theorem handle_alive_iff {handle : NodeHandle} {object : Nat} :
    g.handle_alive answered handle object = true ↔ answered = true ∧ g.Alive (object, handle) := by
  simp only [Alive, handle_alive, Bool.and_eq_true, Bool.and_true]
  tauto

/-- One handle resolves to a Node. -/
theorem alive_unique {handle other : NodeHandle} (h : g.Alive (node, handle)) (ho : g.Alive (node, other)) :
    handle = other := by
  simp only [Alive, handle_alive, Bool.and_eq_true, decide_eq_true_eq] at h ho
  exact Option.some.inj (h.2.symm.trans ho.2)

theorem links_valid (h : (g.read_node_links answered node).valid = true) :
    (g.read_node_links answered node).parent = g.parent node := by
  unfold read_node_links at h ⊢
  split at h
  · rename_i hread
    rw [if_pos hread]
  · cases h

end Graph

/-! ## The calls -/

/-- The engine's calls, as far as its parent and child links are relied on: a detached Node leaves its parent's list, an
attached one is listed by its new parent, no other Node is moved, and no handle changes. -/
structure Engine where
  detach_node : Graph → Nat → Graph
  attach_child : Graph → Nat → Nat → Graph
  detach_handle (g : Graph) (node : Nat) : (detach_node g node).handle_of = g.handle_of
  detach_listed {g : Graph} {node parent : Nat} :
    node ∈ (detach_node g node).children parent → node ∈ g.children parent ∧ parent ≠ g.parent node
  detach_other {g : Graph} {node other : Nat} : other ≠ node →
    (detach_node g node).parent other = g.parent other ∧
      ∀ parent, other ∈ (detach_node g node).children parent ↔ other ∈ g.children parent
  attach_handle (g : Graph) (parent node : Nat) : (attach_child g parent node).handle_of = g.handle_of
  attach_parent (g : Graph) (parent node : Nat) : (attach_child g parent node).parent node = parent
  attach_listed {g : Graph} {parent node other : Nat} :
    node ∈ (attach_child g parent node).children other → other = parent ∨ node ∈ g.children other
  attach_other {g : Graph} {parent node other : Nat} : other ≠ node →
    (attach_child g parent node).parent other = g.parent other ∧
      ∀ owner, other ∈ (attach_child g parent node).children owner ↔ other ∈ g.children owner

namespace Engine

def call (engine : Engine) (g : Graph) : NativeCall → Graph
  | .detach_node node => engine.detach_node g node
  | .attach_child parent node => engine.attach_child g parent node

def calls (engine : Engine) (g : Graph) (calls : List NativeCall) : Graph := calls.foldl engine.call g

variable {engine : Engine} {g : Graph}

/-- A call for `node`. -/
def For (node : Nat) : NativeCall → Prop
  | .detach_node other => other = node
  | .attach_child _ other => other = node

theorem call_handle (c : NativeCall) : (engine.call g c).handle_of = g.handle_of := by
  cases c with
  | detach_node node => exact engine.detach_handle g node
  | attach_child parent node => exact engine.attach_handle g parent node

theorem calls_handle (cs : List NativeCall) : (engine.calls g cs).handle_of = g.handle_of := by
  induction cs generalizing g with
  | nil => rfl
  | cons c rest ih => exact ih.trans (call_handle c)

theorem alive_calls (cs : List NativeCall) (node : Nat × NodeHandle) : (engine.calls g cs).Alive node ↔ g.Alive node := by
  unfold Graph.Alive Graph.handle_alive
  rw [calls_handle]

variable (engine) in
/-- Calls for one Node move no other. -/
theorem calls_other {node other : Nat} {cs : List NativeCall} (hcs : ∀ c ∈ cs, For node c) (hne : other ≠ node) :
    (engine.calls g cs).parent other = g.parent other ∧
      ∀ parent, other ∈ (engine.calls g cs).children parent ↔ other ∈ g.children parent := by
  induction cs generalizing g with
  | nil => exact ⟨rfl, fun _ => Iff.rfl⟩
  | cons c rest ih =>
    obtain ⟨hparent, hlisted⟩ := ih (g := engine.call g c) fun d hd => hcs d (mem_cons_of_mem _ hd)
    have hone : (engine.call g c).parent other = g.parent other ∧
        ∀ parent, other ∈ (engine.call g c).children parent ↔ other ∈ g.children parent := by
      have hfor := hcs c mem_cons_self
      cases c with
      | detach_node n =>
        obtain rfl : n = node := hfor
        exact engine.detach_other hne
      | attach_child p n =>
        obtain rfl : n = node := hfor
        exact engine.attach_other hne
    exact ⟨hparent.trans hone.1, fun parent => (hlisted parent).trans (hone.2 parent)⟩

/-- Behind a detach and an attach a Node is listed by its new parent only, or where it was listed without naming it. -/
theorem moved_listed {parent node other : Nat}
    (h : node ∈ (engine.calls g [.detach_node node, .attach_child parent node]).children other) :
    other = parent ∨ node ∈ g.children other ∧ other ≠ g.parent node :=
  (engine.attach_listed h).imp_right engine.detach_listed

end Engine

/-- A child list with the newest child first. -/
def plain : Engine where
  detach_node g node :=
    { g with
      parent := Function.update g.parent node 0
      children := Function.update g.children (g.parent node) ((g.children (g.parent node)).filter (· ≠ node)) }
  attach_child g parent node :=
    { g with
      parent := Function.update g.parent node parent
      children := Function.update g.children parent (node :: g.children parent) }
  detach_handle _ _ := rfl
  detach_listed {g node parent} h := by
    dsimp only at h
    by_cases hp : parent = g.parent node
    · subst hp
      simp at h
    rw [update_of_ne hp] at h
    exact ⟨h, hp⟩
  detach_other {g node other} hne := by
    refine ⟨update_of_ne hne _ _, fun parent => ?_⟩
    dsimp only
    by_cases hp : parent = g.parent node
    · subst hp
      simp [hne]
    · rw [update_of_ne hp]
  attach_handle _ _ _ := rfl
  attach_parent _ _ _ := Function.update_self _ _ _
  attach_listed {g parent node other} h := by
    dsimp only at h
    by_cases hp : other = parent
    · exact Or.inl hp
    rw [update_of_ne hp] at h
    exact Or.inr h
  attach_other {g parent node other} hne := by
    refine ⟨update_of_ne hne _ _, fun owner => ?_⟩
    dsimp only
    by_cases hp : owner = parent
    · subst hp
      simp [hne]
    · rw [update_of_ne hp]

end taxi_camera.native_camera.node_graph
