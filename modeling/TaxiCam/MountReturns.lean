-- What the mounts keep over a session: a live aircraft Node that lists a camera
-- Node is the one that the feed's mount names. Where the reads of a give-back
-- show such a Node, nothing is erased while an aircraft lists it.
import TaxiCam.MountRuns

namespace taxi_camera.native_camera.mount_runs

open node_mount node_graph runs List
open Function (update_of_ne update_self)
open Engine (alive_calls moved_listed)
open Function (update)

/-! ## What the engine does by itself -/

/-- The engine does not mount a camera: a dead handle stays dead, and a Node that lists a camera Node that was mounted on it
listed it before, and is named by it. -/
def Keeps (w : World) (g : Graph) : Prop :=
  (∀ i e, w.entries i = some e → ∀ p ∈ e.mounted_on, g.Alive p →
    w.graph.Alive p ∧ (e.node ∈ g.children p.1 → e.node ∈ w.graph.children p.1 ∧ g.parent e.node = p.1)) ∧
  ∀ i, g.Alive ((w.mounts i).node, (w.mounts i).node_handle) → w.graph.Alive ((w.mounts i).node, (w.mounts i).node_handle)

/-- A new entry has a camera Node of its own, and the Node of one that vanishes is gone with it. -/
def Legal (w : World) : Op → Prop
  | .engine g => Keeps w g
  | .created i _ node g => Keeps w g ∧ w.entries i = none ∧ node ≠ 0 ∧ ∀ j e, w.entries j = some e → e.node ≠ node
  | .vanished i g => Keeps w g ∧ ¬g.Alive ((w.mounts i).node, (w.mounts i).node_handle)
  | _ => True

/-! ## What is shown to a give-back -/

/-- The camera Node and the root were read, as a give-back asks before it decides on the aircraft Node. -/
def Readable (s : Sight) : Prop := s.own = true ∧ s.camera.valid = true ∧ s.root.valid = true ∧ 0 ≤ s.root.world

/-- A live aircraft Node lists the camera Node of its mount. -/
def Held (g : Graph) (mount : FeedMount) : Prop :=
  mount.node ≠ 0 ∧ g.Alive (mount.parent, mount.parent_handle) ∧ mount.node ∈ g.children mount.parent

/-- Where an aircraft Node holds a readable camera Node, its handle and its list are read as far as the camera Node. -/
def Shown (g : Graph) (mount : FeedMount) (look : Look) : Prop :=
  Held g mount → Readable (sight g mount look) →
    look.parent_handle = true ∧ g.Answered look.aircraft mount.parent mount.node

/-- And where the camera Node is not readable, the reads before the erase show it. -/
def ShownAgain (g : Graph) (mount : FeedMount) (look : Look) : Prop :=
  Held g mount → ¬Readable (sight g mount look) →
    look.again_handle = true ∧ g.Answered look.again mount.parent mount.node

def ShownTo (engine : Engine) (available : Bool) (w : World) : Op → Prop
  | .pulse i _ still look _ => ∀ e, w.entries i = some e → (w.mounts i).node = e.node → (w.mounts i).lost = false →
      still = false → Shown w.graph (w.mounts i) look
  | .pause look => Guarded (World.return_mount engine available look)
      (fun w i => (w.mounts i).lost = false → Shown w.graph (w.mounts i) (look i)) w (List.finRange 4)
  | .erase i look _ => ∀ e, w.entries i = some e → Guarded (World.restore_next engine available e.id look)
      (fun s j => (s.2.mounts j).entry = e.id →
        Shown s.2.graph (s.2.mounts j) (look j) ∧ ShownAgain s.2.graph (s.2.mounts j) (look j)) (true, w) (List.finRange 4)
  | _ => True

/-! ## The invariant -/

/-- The mount is the one that an entry's camera Node got on an aircraft Node. -/
structure Of (mount : FeedMount) (e : Entry) (p : Nat × NodeHandle) : Prop where
  node : mount.node = e.node
  entry : mount.entry = e.id
  parent : mount.parent = p.1
  parent_handle : mount.parent_handle = p.2

structure Good (available : Bool) (w : World) : Prop where
  /-- A live aircraft Node that lists a camera Node is on record. -/
  recorded {i e p} : w.entries i = some e → p ∈ e.mounted_on → w.graph.Alive p → e.node ∈ w.graph.children p.1 →
    Of (w.mounts i) e p ∧ w.graph.parent e.node = p.1
  /-- A mount whose camera Node lives is its feed's, and no live aircraft Node of it is its root. -/
  owned {i} : (w.mounts i).node ≠ 0 → w.graph.Alive ((w.mounts i).node, (w.mounts i).node_handle) →
    ∃ e, w.entries i = some e ∧ (w.mounts i).node = e.node ∧ (w.mounts i).entry = e.id ∧
      ∀ p ∈ e.mounted_on, w.graph.Alive p → p.1 ≠ (w.mounts i).root
  apart {i j e f} : w.entries i = some e → w.entries j = some f → e.node = f.node → i = j
  used {i e} : w.entries i = some e → e.node ≠ 0
  available {i} : (w.mounts i).node ≠ 0 → available = true
  unlisted : ∀ x ∈ w.erased, Unlisted x.1 x.2

/-- No live aircraft Node lists the camera Node of a feed. -/
def Free (w : World) (i : Fin 4) : Prop := ∀ e, w.entries i = some e → Unlisted e w.graph

section
variable {engine : Engine} {available : Bool} {w : World} {i : Fin 4}

theorem Good.held_or_free (h : Good available w) : Held w.graph (w.mounts i) ∨ Free w i := by
  by_cases hfree : Free w i
  · exact .inr hfree
  unfold Free Unlisted at hfree
  push Not at hfree
  obtain ⟨e, he, p, hp, halive, hlisted⟩ := hfree
  obtain ⟨hof, -⟩ := h.recorded he hp halive hlisted
  refine .inl ⟨hof.node ▸ h.used he, ?_, ?_⟩
  · rwa [hof.parent, hof.parent_handle]
  · rwa [hof.parent, hof.node]

/-! ## The steps of a mount -/

@[simp] theorem with_mount_self {mount : FeedMount} : (w.with_mount i mount).mounts i = mount := update_self ..

theorem with_mount_of_ne {mount : FeedMount} {j : Fin 4} (hj : j ≠ i) : (w.with_mount i mount).mounts j = w.mounts j :=
  update_of_ne hj ..

theorem with_own_mount : w.with_mount i (w.mounts i) = w := by
  unfold World.with_mount
  rw [Function.update_eq_self]

/-- The mount of a feed changes, and its record with it where an aircraft Node holds the camera Node. -/
theorem Good.with_mount (h : Good available w) {mount : FeedMount}
    (hof : ∀ e p, Of (w.mounts i) e p → Of mount e p ∨ Free w i)
    (howned : mount.node ≠ 0 → mount.node = (w.mounts i).node ∧ mount.entry = (w.mounts i).entry ∧
      mount.node_handle = (w.mounts i).node_handle ∧ mount.root = (w.mounts i).root) :
    Good available (w.with_mount i mount) where
  recorded {j e p} he hp halive hlisted := by
    obtain ⟨hrecord, hparent⟩ := h.recorded he hp halive hlisted
    refine ⟨?_, hparent⟩
    by_cases hj : j = i
    · subst hj
      rw [with_mount_self]
      exact (hof e p hrecord).resolve_right fun hfree => hfree e he p hp halive hlisted
    · rwa [with_mount_of_ne hj]
  owned {j} := by
    by_cases hj : j = i
    · subst hj
      rw [with_mount_self]
      intro hnode halive
      obtain ⟨hsame, hentry, hhandle, hroot⟩ := howned hnode
      rw [hsame, hhandle] at halive
      rw [hsame, hentry, hroot]
      exact h.owned (hsame ▸ hnode) halive
    rw [with_mount_of_ne hj]
    exact h.owned
  apart := h.apart
  used := h.used
  available {j} := by
    by_cases hj : j = i
    · subst hj
      rw [with_mount_self]
      exact fun hnode => h.available (i := j) ((howned hnode).1 ▸ hnode)
    rw [with_mount_of_ne hj]
    exact h.available
  unlisted := h.unlisted

theorem Good.lose (h : Good available w) : Good available (w.with_mount i { w.mounts i with lost := true }) :=
  h.with_mount (fun _ _ hof => .inl ⟨hof.node, hof.entry, hof.parent, hof.parent_handle⟩) fun _ => ⟨rfl, rfl, rfl, rfl⟩

theorem Good.clear (h : Good available w) (hfree : Free w i) : Good available (w.with_mount i {}) :=
  h.with_mount (fun _ _ _ => .inr hfree) fun hnode => absurd rfl hnode

variable (engine) in
/-- The camera Node of a feed is moved by calls behind which no aircraft Node lists it. -/
theorem Good.moved (h : Good available w) {e : Entry} (he : w.entries i = some e) {calls : List NativeCall}
    (hfor : ∀ c ∈ calls, Engine.For e.node c) (hfree : Unlisted e (engine.calls w.graph calls)) :
    Good available (w.moved engine calls) where
  recorded {j f p} hf hp halive hlisted := by
    by_cases hne : f.node = e.node
    · obtain rfl := h.apart hf he hne
      obtain rfl := Option.some.inj (hf.symm.trans he)
      exact absurd hlisted (hfree p hp halive)
    obtain ⟨hparent, hother⟩ := engine.calls_other (g := w.graph) hfor hne
    obtain ⟨hof, hnamed⟩ := h.recorded hf hp ((alive_calls calls p).mp halive) ((hother p.1).mp hlisted)
    exact ⟨hof, hparent.trans hnamed⟩
  owned {j} hnode halive := by
    obtain ⟨f, hf, hsame, hentry, hroot⟩ := h.owned hnode ((alive_calls calls _).mp halive)
    exact ⟨f, hf, hsame, hentry, fun p hp hlive => hroot p hp ((alive_calls calls p).mp hlive)⟩
  apart := h.apart
  used := h.used
  available := h.available
  unlisted := h.unlisted

end

/-! ## Giving back -/

/-- The calls that move a camera Node back. -/
def given (node root : Nat) (detach : Bool) : List NativeCall :=
  (if detach then [.detach_node node] else []) ++ [.attach_child root node]

theorem given_for (node root : Nat) (detach : Bool) : ∀ c ∈ given node root detach, Engine.For node c := by
  unfold given
  cases detach with
  | true =>
    intro c hc
    rcases mem_cons.mp hc with rfl | hc
    · rfl
    obtain rfl := mem_singleton.mp hc
    rfl
  | false =>
    intro c hc
    obtain rfl := mem_singleton.mp hc
    rfl

/-- What a give-back comes to: nothing to do, refused, forgotten under the root, forgotten because the aircraft Node does not
list the camera Node, or moved. -/
theorem give_back_cases (available : Bool) (mount : FeedMount) (s : Sight) :
    (mount.node = 0 ∨ available = false) ∧ (∀ c, give_back available mount s c = ⟨.unreferenced, mount, []⟩) ∨
    (Readable s → s.camera.parent ≠ mount.parent) ∧ (∀ c, give_back available mount s c = refuse mount) ∨
    (s.own = true ∧ s.camera.valid = true ∧ s.camera.parent = mount.root) ∧
      (∀ c, give_back available mount s c = ⟨.unreferenced, {}, []⟩) ∨
    (Readable s ∧ s.alive = true ∧ s.listed_parent = false) ∧ (∀ c, give_back available mount s c = ⟨.unreferenced, {}, []⟩) ∨
    Readable s ∧ ∀ c, give_back available mount s c =
      let calls := given mount.node mount.root s.alive
      if c then ⟨.returned, {}, calls⟩ else refuse mount calls := by
  by_cases hnone : (mount.node = 0 || !available) = true
  · left
    refine ⟨by simpa using hnone, fun c => ?_⟩
    unfold give_back
    rw [if_pos hnone]
  right
  by_cases hown : (!s.own || !s.camera.valid) = true
  · left
    refine ⟨fun hread => by simp [hread.1, hread.2.1] at hown, fun c => ?_⟩
    unfold give_back
    rw [if_neg hnone, if_pos hown]
  have hcamera : s.own = true ∧ s.camera.valid = true := by simpa using hown
  by_cases hhome : (s.camera.parent = mount.root && s.listed_home) = true
  · right; left
    refine ⟨⟨hcamera.1, hcamera.2, (by simpa using hhome : _ ∧ _).1⟩, fun c => ?_⟩
    unfold give_back
    rw [if_neg hnone, if_neg hown, if_pos hhome]
  by_cases hroot : (!s.root.valid || decide (s.root.world < 0)) = true
  · left
    refine ⟨fun hread => ?_, fun c => ?_⟩
    · have hworld := hread.2.2.2
      simp only [hread.2.2.1, Bool.not_true, Bool.false_or, decide_eq_true_eq] at hroot
      omega
    · unfold give_back
      rw [if_neg hnone, if_neg hown, if_neg hhome, if_pos hroot]
  have hreadable : Readable s := ⟨hcamera.1, hcamera.2, by simpa using hroot⟩
  by_cases hgone : (s.alive && s.camera.parent = mount.parent && !s.listed_parent) = true
  · right; right; left
    obtain ⟨⟨halive, -⟩, hlisted⟩ : (s.alive = true ∧ _) ∧ s.listed_parent = false := by simpa using hgone
    refine ⟨⟨hreadable, halive, hlisted⟩, fun c => ?_⟩
    unfold give_back
    rw [if_neg hnone, if_neg hown, if_neg hhome, if_neg hroot, if_pos hgone]
  by_cases hchanged : ((s.alive || s.camera.parent ≠ mount.parent) && !(s.alive && s.camera.parent = mount.parent)) = true
  · left
    refine ⟨fun _ hparent => by simp [hparent] at hchanged, fun c => ?_⟩
    unfold give_back
    rw [if_neg hnone, if_neg hown, if_neg hhome, if_neg hroot, if_neg hgone, if_pos hchanged]
  right; right; right
  refine ⟨hreadable, fun c => ?_⟩
  unfold give_back
  rw [if_neg hnone, if_neg hown, if_neg hhome, if_neg hroot, if_neg hgone, if_neg hchanged]
  cases c <;> rfl

section
variable {engine : Engine} {available : Bool} {w : World} {i : Fin 4}

theorem moved_nothing : w.moved engine [] = w := rfl

theorem World.apply_calls {β : Type} {decided : Graph → β × FeedMount × List NativeCall} {calls : List NativeCall}
    (h : ∀ g, (decided g).2.2 = calls) : w.apply engine i decided =
      ((decided (w.moved engine calls).graph).1, (w.moved engine calls).with_mount i (decided (w.moved engine calls).graph).2.1) := by
  unfold apply
  rw [h]

theorem World.apply_eq {β : Type} {decided : Graph → β × FeedMount × List NativeCall} {b : β} {mount : FeedMount}
    (h : ∀ g, decided g = (b, mount, [])) : w.apply engine i decided = (b, w.with_mount i mount) := by
  rw [apply_calls fun g => congrArg (·.2.2) (h g), h, moved_nothing]

/-- A camera Node that an aircraft Node holds names it. -/
theorem Good.parent_of_held (h : Good available w) (hheld : ¬Free w i) :
    w.graph.parent (w.mounts i).node = (w.mounts i).parent := by
  unfold Free Unlisted at hheld
  push Not at hheld
  obtain ⟨e, he, p, hp, halive, hlisted⟩ := hheld
  obtain ⟨hof, hnamed⟩ := h.recorded he hp halive hlisted
  rw [hof.node, hof.parent, hnamed]

theorem Good.read_held (h : Good available w) (hheld : ¬Free w i) {look : Look}
    (hcamera : (sight w.graph (w.mounts i) look).camera.valid = true) :
    (sight w.graph (w.mounts i) look).camera.parent = (w.mounts i).parent :=
  (Graph.links_valid hcamera).trans (h.parent_of_held hheld)

/-- A mount whose own handle was read alive is that of its feed's entry. -/
theorem Good.read_own (h : Good available w) {look : Look} (hown : (sight w.graph (w.mounts i) look).own = true) :
    ∃ e, w.entries i = some e ∧ (w.mounts i).node = e.node ∧ (w.mounts i).entry = e.id ∧
      ∀ p ∈ e.mounted_on, w.graph.Alive p → p.1 ≠ (w.mounts i).root := by
  have halive := (Graph.handle_alive_iff.mp hown).2
  refine h.owned ?_ halive
  intro hnode
  rw [hnode] at halive
  simp [Graph.Alive, Graph.handle_alive] at halive

variable (engine) in
/-- A camera Node that was taken from its parent, or that no aircraft Node listed, is listed by none behind the attach. -/
theorem Good.unlisted_behind (h : Good available w) {e : Entry} (he : w.entries i = some e) {root : Nat}
    (hnotroot : ∀ p ∈ e.mounted_on, w.graph.Alive p → p.1 ≠ root) {detach : Bool}
    (hdead : detach = false → Unlisted e w.graph) : Unlisted e (engine.calls w.graph (given e.node root detach)) := by
  intro p hp halive hlisted
  replace halive := (alive_calls _ p).mp halive
  cases detach with
  | true =>
    rcases moved_listed hlisted with hroot | ⟨hbefore, hnamed⟩
    · exact hnotroot p hp halive hroot
    · exact hnamed (h.recorded he hp halive hbefore).2.symm
  | false =>
    rcases engine.attach_listed hlisted with hroot | hbefore
    · exact hnotroot p hp halive hroot
    · exact hdead rfl p hp halive hbefore

variable (engine) in
/-- Where the reads show a held camera Node, a give-back keeps the invariant; where it moves no Node and does not forget the
mount, the camera Node is not readable, or no aircraft Node holds it. -/
theorem Good.give_back (h : Good available w) {look : Look} (hshown : Shown w.graph (w.mounts i) look) :
    Good available (w.give_back engine available i look).2 ∧
      ((w.give_back engine available i look).1 ≠ .held → ((w.give_back engine available i look).2.mounts i).node = 0) ∧
      ((w.give_back engine available i look).1 = .held →
        Free (w.give_back engine available i look).2 i ∨
          ¬Readable (sight w.graph (w.mounts i) look) ∧
            w.give_back engine available i look = (.held, w.with_mount i { w.mounts i with lost := true })) := by
  unfold World.give_back
  rcases give_back_cases available (w.mounts i) (sight w.graph (w.mounts i) look) with
    ⟨hnone, heq⟩ | ⟨hunread, heq⟩ | ⟨⟨hown, hcamera, hroot⟩, heq⟩ | ⟨⟨hread, halive, hunlisted⟩, heq⟩ | ⟨hread, heq⟩
  · rw [World.apply_eq fun g => by rw [heq], with_own_mount]
    refine ⟨h, fun _ => ?_, nofun⟩
    rcases hnone with hnode | havailable
    · exact hnode
    by_contra hnode
    exact absurd (havailable.symm.trans (h.available hnode)) (by decide)
  · rw [World.apply_eq fun g => by rw [heq, refuse]]
    refine ⟨h.lose, fun hne => absurd rfl hne, fun _ => ?_⟩
    by_cases hfree : Free w i
    · exact .inl hfree
    refine .inr ⟨fun hread => ?_, rfl⟩
    exact hunread hread (h.read_held hfree hread.2.1)
  · rw [World.apply_eq fun g => by rw [heq]]
    refine ⟨h.clear ?_, fun _ => by rw [with_mount_self], nofun⟩
    by_contra hheld
    obtain ⟨e, he, hnode, -, hnotroot⟩ := h.read_own hown
    unfold Free Unlisted at hheld
    push Not at hheld
    obtain ⟨f, hf, p, hp, halive, hlisted⟩ := hheld
    obtain rfl := Option.some.inj (hf.symm.trans he)
    apply hnotroot p hp halive
    have hnamed : (sight w.graph (w.mounts i) look).camera.parent = w.graph.parent f.node :=
      (Graph.links_valid hcamera).trans (congrArg w.graph.parent hnode)
    rw [← hroot, hnamed, (h.recorded hf hp halive hlisted).2]
  · rw [World.apply_eq fun g => by rw [heq]]
    refine ⟨h.clear ?_, fun _ => by rw [with_mount_self], nofun⟩
    by_contra hheld
    have hholds := h.held_or_free.resolve_right hheld
    have hfound := Graph.listed_child_of_answered ?_ (hshown hholds hread).2
    · exact absurd (hfound.symm.trans hunlisted) (by decide)
    · exact h.parent_of_held hheld
  · obtain ⟨e, he, hnode, -, hnotroot⟩ := h.read_own hread.1
    have hdead : (sight w.graph (w.mounts i) look).alive = false → Unlisted e w.graph := by
      intro hdead
      rcases h.held_or_free with hheld | hfree
      · have hread := Graph.handle_alive_iff.mpr ⟨(hshown hheld hread).1, hheld.2.1⟩
        exact absurd (hread.symm.trans hdead) (by decide)
      · exact hfree e he
    have hfree := h.unlisted_behind engine he hnotroot hdead
    have hmoved := h.moved engine he (given_for _ _ _) hfree
    have hfree' : Free (w.moved engine (given e.node (w.mounts i).root (sight w.graph (w.mounts i) look).alive)) i := by
      intro f hf
      obtain rfl := Option.some.inj (hf.symm.trans he)
      exact hfree
    have hcalls : ∀ c, (node_mount.give_back available (w.mounts i) (sight w.graph (w.mounts i) look) c).calls =
        given e.node (w.mounts i).root (sight w.graph (w.mounts i) look).alive := by
      intro c
      rw [heq c, hnode]
      cases c <;> rfl
    rw [World.apply_calls fun g => hcalls _]
    rw [heq]
    cases (w.moved engine (given e.node (w.mounts i).root (sight w.graph (w.mounts i) look).alive)).graph.listed_child
      look.confirmed (w.mounts i).root (w.mounts i).node with
    | true =>
      refine ⟨hmoved.clear hfree', fun _ => ?_, nofun⟩
      rw [with_mount_self]
      rfl
    | false => exact ⟨hmoved.lose, fun hne => absurd rfl hne, fun _ => .inl hfree'⟩

end

/-! ## Mounting -/

section
variable {engine : Engine} {available : Bool} {w : World} {i : Fin 4}

/-- A feed whose mount is not its camera Node's is held by no aircraft Node. -/
theorem Good.free_of_other (h : Good available w) (hother : ∀ e, w.entries i = some e → (w.mounts i).node ≠ e.node) :
    Free w i := by
  intro e he p hp halive hlisted
  exact hother e he (h.recorded he hp halive hlisted).1.node

variable (engine) in
/-- A feed that has no mount left after the check is held by no aircraft Node. -/
theorem Good.current_mount (h : Good available w) {e : Entry} (he : w.entries i = some e) {still : Bool} {look : Look}
    (hshown : (w.mounts i).node = e.node → (w.mounts i).lost = false → still = false → Shown w.graph (w.mounts i) look) :
    Good available (w.current_mount engine available i e.node still look).2 ∧
      (w.current_mount engine available i e.node still look).2.entries = w.entries ∧
      ((w.current_mount engine available i e.node still look).1 = .none →
        Free (w.current_mount engine available i e.node still look).2 i) := by
  unfold World.current_mount
  by_cases hnone : ((w.mounts i).node = 0 || (w.mounts i).node ≠ e.node) = true
  · rw [World.apply_eq fun g => by rw [node_mount.current_mount, if_pos hnone], with_own_mount]
    refine ⟨h, rfl, fun _ => h.free_of_other fun f hf hsame => ?_⟩
    obtain rfl := Option.some.inj (hf.symm.trans he)
    have hused := h.used he
    rw [hsame] at hnone
    simp [hused] at hnone
  by_cases hlost : (w.mounts i).lost = true
  · rw [World.apply_eq fun g => by rw [node_mount.current_mount, if_neg hnone, if_pos hlost], with_own_mount]
    exact ⟨h, rfl, nofun⟩
  by_cases hstill : still = true
  · rw [World.apply_eq fun g => by rw [node_mount.current_mount, if_neg hnone, if_neg hlost, if_pos hstill], with_own_mount]
    exact ⟨h, rfl, nofun⟩
  have hnode : (w.mounts i).node = e.node := by
    simp only [Bool.or_eq_true, not_or, decide_eq_true_eq, not_not] at hnone
    exact hnone.2
  obtain ⟨hgood, hnot, -⟩ := h.give_back engine (hshown hnode (by simpa using hlost) (by simpa using hstill))
  have hgave : w.apply engine i (fun behind => node_mount.current_mount available (w.mounts i) e.node still
      (sight w.graph (w.mounts i) look) (behind.listed_child look.confirmed (w.mounts i).root (w.mounts i).node)) =
      (if (w.give_back engine available i look).1 = .held then .lost else .none, (w.give_back engine available i look).2) := by
    simp only [node_mount.current_mount, if_neg hnone, if_neg hlost, if_neg hstill]
    rfl
  rw [hgave]
  refine ⟨hgood, rfl, fun hstate => hgood.free_of_other fun f hf hsame => ?_⟩
  obtain rfl := Option.some.inj (hf.symm.trans he)
  have hheld : (w.give_back engine available i look).1 ≠ .held := by
    intro hheld
    rw [hheld] at hstate
    cases hstate
  exact h.used he (hsame.symm.trans (hnot hheld))

theorem admitted {reads : MountReads} {node : Nat} {scene : AircraftScene} {handle : NodeHandle}
    (h : reads.admitted node scene = some handle) :
    reads.camera.valid = true ∧ reads.camera.parent ≠ scene.node ∧ reads.listed = true ∧ reads.alive = true := by
  unfold MountReads.admitted at h
  split at h
  · cases h
  rename_i hvalid
  split at h
  · cases h
  rename_i hstate
  split at h
  · cases h
  rename_i hroot
  split at h
  · cases h
  rename_i halive
  simp only [Bool.or_eq_true, not_or, Bool.not_eq_true', Bool.not_eq_false, decide_eq_true_eq] at hvalid hstate hroot halive
  exact ⟨hvalid.1, hstate.1.1.1.1, hroot.2, halive.1⟩

/-- A feed's entry is replaced by one with the same camera Node. -/
theorem entry_kept {entries : Fin 4 → Option Entry} {e e' f : Entry} {j : Fin 4}
    (he : entries i = some e) (hf : update entries i (some e') j = some f) (hnode : e'.node = e.node) : ∃ f', entries j = some f' ∧ f'.node = f.node := by
  by_cases hj : j = i
  · subst hj
    rw [update_self] at hf
    exact ⟨e, he, (congrArg Entry.node (Option.some.inj hf) ▸ hnode).symm⟩
  rw [update_of_ne hj] at hf
  exact ⟨f, hf, rfl⟩

/-- A camera Node that no aircraft Node holds is attached to one, and the record says so. -/
theorem Good.mounted (h : Good available w) {e : Entry} (he : w.entries i = some e) (hfree : Free w i) {aircraft : Nat}
    {aircraft_handle handle : NodeHandle} {lost : Bool} (hparent : w.graph.parent e.node ≠ aircraft)
    (hnamed : e.node ∈ w.graph.children (w.graph.parent e.node)) (halive : w.graph.Alive (aircraft, aircraft_handle))
    (havailable : available = true) :
    Good available
      { (w.moved engine [.detach_node e.node, .attach_child aircraft e.node]).with_mount i
          ⟨e.id, e.node, aircraft, w.graph.parent e.node, aircraft_handle, handle, lost⟩ with
        entries := update w.entries i (some { e with mounted_on := (aircraft, aircraft_handle) :: e.mounted_on }) } where
  recorded {j f p} hf hp hlive hlisted := by
    dsimp only at hf hlive hlisted ⊢
    replace hlive := (alive_calls _ p).mp hlive
    by_cases hj : j = i
    · subst hj
      rw [update_self] at hf
      obtain rfl := Option.some.inj hf
      have haircraft : p.1 = aircraft := by
        rcases moved_listed hlisted with hto | ⟨hbefore, -⟩
        · exact hto
        rcases mem_cons.mp hp with rfl | hp
        · rfl
        · exact absurd hbefore (hfree e he p hp hlive)
      obtain ⟨node, other⟩ := p
      obtain rfl : node = aircraft := haircraft
      rw [with_mount_self]
      exact ⟨⟨rfl, rfl, rfl, Graph.alive_unique halive hlive⟩, engine.attach_parent _ _ _⟩
    rw [update_of_ne hj] at hf
    have hne : f.node ≠ e.node := fun hsame => hj (h.apart hf he hsame)
    obtain ⟨hparent', hother⟩ := engine.calls_other (g := w.graph) (given_for e.node aircraft true) hne
    rw [with_mount_of_ne hj]
    obtain ⟨hof, hnamed'⟩ := h.recorded hf hp hlive ((hother p.1).mp hlisted)
    exact ⟨hof, hparent'.trans hnamed'⟩
  owned {j} hnode hlive := by
    dsimp only at hnode hlive ⊢
    replace hlive := (alive_calls _ _).mp hlive
    by_cases hj : j = i
    · subst hj
      rw [with_mount_self, update_self]
      refine ⟨_, rfl, rfl, rfl, fun p hp hlive => ?_⟩
      replace hlive := (alive_calls _ p).mp hlive
      intro hroot
      rcases mem_cons.mp hp with rfl | hp
      · exact hparent hroot.symm
      · exact hfree e he p hp hlive (hroot ▸ hnamed)
    rw [with_mount_of_ne hj] at hnode hlive ⊢
    obtain ⟨f, hf, hsame, hentry, hroot⟩ := h.owned hnode hlive
    exact ⟨f, (update_of_ne hj ..).trans hf, hsame, hentry, fun p hp hlive => hroot p hp ((alive_calls _ p).mp hlive)⟩
  apart {j k f f'} hf hf' hsame := by
    obtain ⟨f, hf, hnode⟩ := entry_kept he hf rfl
    obtain ⟨f', hf', hnode'⟩ := entry_kept he hf' rfl
    exact h.apart hf hf' (by rw [hnode, hnode', hsame])
  used {j f} hf := by
    obtain ⟨f, hf, hnode⟩ := entry_kept he hf rfl
    exact hnode ▸ h.used hf
  available {j} := by
    by_cases hj : j = i
    · exact fun _ => havailable
    rw [with_mount_of_ne hj]
    exact h.available
  unlisted := h.unlisted

/-- A camera Node that no aircraft Node holds is mounted on the aircraft Node of the scene. -/
theorem Good.mount_on_aircraft (h : Good available w) {e : Entry} (he : w.entries i = some e) (hfree : Free w i)
    {scene : AircraftScene} {look : MountLook} :
    Good available (w.mount_on_aircraft engine available i e scene look) := by
  have hreset : Good available (w.with_mount i
      (if (w.mounts i).node ≠ 0 ∧ (w.mounts i).node ≠ e.node then {} else w.mounts i)) := by
    split
    · exact h.clear hfree
    · rwa [with_own_mount]
  unfold World.mount_on_aircraft
  dsimp only
  by_cases hunavailable : (!available || !scene.complete || decide (scene.node = 0) || decide (scene.node_control = 0)) = true
  · have heq : ∀ c, node_mount.mount_on_aircraft available (w.mounts i) e.id e.node scene (mount_reads w.graph e.node scene look) c =
        (false, if (w.mounts i).node ≠ 0 ∧ (w.mounts i).node ≠ e.node then {} else w.mounts i, []) := by
      intro c
      unfold node_mount.mount_on_aircraft
      rw [if_pos hunavailable]
    rw [World.apply_eq fun g => heq _]
    simpa only [heq, isEmpty_nil, if_true] using hreset
  cases hadmit : (mount_reads w.graph e.node scene look).admitted e.node scene with
  | none =>
    have heq : ∀ c, node_mount.mount_on_aircraft available (w.mounts i) e.id e.node scene (mount_reads w.graph e.node scene look) c =
        (false, if (w.mounts i).node ≠ 0 ∧ (w.mounts i).node ≠ e.node then {} else w.mounts i, []) := by
      intro c
      unfold node_mount.mount_on_aircraft
      rw [if_neg hunavailable, hadmit]
    rw [World.apply_eq fun g => heq _]
    simpa only [heq, isEmpty_nil, if_true] using hreset
  | some handle =>
    have heq : ∀ c, node_mount.mount_on_aircraft available (w.mounts i) e.id e.node scene (mount_reads w.graph e.node scene look) c =
        (c, ⟨e.id, e.node, scene.node, (mount_reads w.graph e.node scene look).camera.parent,
          ⟨scene.node_control, scene.node_generation⟩, handle, !c⟩,
          [.detach_node e.node, .attach_child scene.node e.node]) := by
      intro c
      unfold node_mount.mount_on_aircraft
      rw [if_neg hunavailable, hadmit]
    obtain ⟨hcamera, hparent, hlisted, halive⟩ := admitted hadmit
    rw [World.apply_calls fun g => by rw [heq]]
    simp only [heq, isEmpty_cons, Bool.false_eq_true, if_false]
    have hroot : (mount_reads w.graph e.node scene look).camera.parent = w.graph.parent e.node := Graph.links_valid hcamera
    rw [hroot] at hparent ⊢
    have hnamed : e.node ∈ w.graph.children (w.graph.parent e.node) := by
      have hfound := (Graph.listed_child_sound hlisted).1
      exact hroot ▸ hfound
    apply h.mounted he hfree hparent hnamed (Graph.handle_alive_iff.mp halive).2
    simp only [Bool.or_eq_true, not_or, Bool.not_eq_true', Bool.not_eq_false] at hunavailable
    exact hunavailable.1.1.1

end

/-! ## Pauses and erases -/

section
variable {engine : Engine} {available : Bool} {w : World} {i : Fin 4}

theorem Good.return_mount (h : Good available w) {look : Fin 4 → Look}
    (hshown : (w.mounts i).lost = false → Shown w.graph (w.mounts i) (look i)) :
    Good available (World.return_mount engine available look w i) := by
  unfold World.return_mount
  split
  · exact h
  rename_i hmount
  simp only [Bool.or_eq_true, not_or, Bool.not_eq_true] at hmount
  exact (h.give_back engine (hshown hmount.2)).1

/-- Before an erase, a mount that is the entry's is given back, and forgotten where nothing is read to hold it. -/
theorem World.restore_feed_eq {id : Nat} {look : Fin 4 → Look} (hmine : ((w.mounts i).node = 0 || (w.mounts i).entry ≠ id) = false) :
    w.restore_feed engine available id look i =
      let gave := w.give_back engine available i (look i)
      if gave.1 ≠ .held then (true, gave.2)
      else if gave.2.graph.handle_alive (look i).again_handle (w.mounts i).parent_handle (w.mounts i).parent &&
          gave.2.graph.listed_child (look i).again (w.mounts i).parent (w.mounts i).node then (false, gave.2)
      else (true, gave.2.with_mount i {}) := by
  have hcalls : ∀ c still, (node_mount.restore_mount available (w.mounts i) id (sight w.graph (w.mounts i) (look i)) c still).2.2 =
      (node_mount.give_back available (w.mounts i) (sight w.graph (w.mounts i) (look i)) c).calls := by
    intro c still
    unfold node_mount.restore_mount
    rw [if_neg (by rw [hmine]; decide)]
    dsimp only
    split
    · rfl
    · split <;> rfl
  unfold restore_feed give_back apply
  dsimp only
  rw [hcalls]
  unfold node_mount.restore_mount
  rw [if_neg (by rw [hmine]; decide)]
  simp only [with_mount]
  generalize w.moved engine (node_mount.give_back available (w.mounts i) (sight w.graph (w.mounts i) (look i))
    (w.graph.listed_child (look i).confirmed (w.mounts i).root (w.mounts i).node)).calls = behind
  generalize node_mount.give_back available (w.mounts i) (sight w.graph (w.mounts i) (look i))
    (behind.graph.listed_child (look i).confirmed (w.mounts i).root (w.mounts i).node) = gave
  by_cases hheld : gave.outcome ≠ .held
  · simp only [if_pos hheld]
  by_cases hstill : (behind.graph.handle_alive (look i).again_handle (w.mounts i).parent_handle (w.mounts i).parent &&
      behind.graph.listed_child (look i).again (w.mounts i).parent (w.mounts i).node) = true
  · simp only [if_neg hheld, if_pos hstill]
    exact (if_pos hstill).symm
  · simp only [if_neg hheld, if_neg hstill, Function.update_idem]

variable (engine) in
theorem Good.restore_feed (h : Good available w) {id : Nat} {look : Fin 4 → Look}
    (hshown : (w.mounts i).entry = id → Shown w.graph (w.mounts i) (look i) ∧ ShownAgain w.graph (w.mounts i) (look i)) :
    Good available (w.restore_feed engine available id look i).2 ∧
      ((w.restore_feed engine available id look i).1 = true →
        ((w.restore_feed engine available id look i).2.mounts i).node = 0 ∨
          ((w.restore_feed engine available id look i).2.mounts i).entry ≠ id) := by
  by_cases hother : ((w.mounts i).node = 0 || (w.mounts i).entry ≠ id) = true
  · have heq : w.restore_feed engine available id look i = (true, w) := by
      unfold World.restore_feed
      rw [World.apply_eq fun g => by rw [node_mount.restore_mount, if_pos hother], with_own_mount]
    rw [heq]
    exact ⟨h, fun _ => by simpa using hother⟩
  have hmine : (w.mounts i).entry = id := by
    simp only [Bool.or_eq_true, not_or, decide_eq_true_eq, not_not] at hother
    exact hother.2
  obtain ⟨hshown, hagain⟩ := hshown hmine
  obtain ⟨hgood, hnot, hheld⟩ := h.give_back engine hshown
  rw [World.restore_feed_eq (by simpa using hother)]
  dsimp only
  split
  · rename_i hreturned
    exact ⟨hgood, fun _ => .inl (hnot hreturned)⟩
  rename_i hreturned
  split
  · exact ⟨hgood, nofun⟩
  rename_i hunlisted
  refine ⟨hgood.clear ?_, fun _ => .inl (by rw [with_mount_self])⟩
  rcases hheld (not_not.mp hreturned) with hfree | ⟨hunread, heq⟩
  · exact hfree
  by_contra hlisted
  rw [heq] at hlisted hunlisted
  have hnotfree : ¬Free w i := hlisted
  have hholds := h.held_or_free.resolve_right hnotfree
  obtain ⟨hhandle, hanswered⟩ := hagain hholds hunread
  apply hunlisted
  rw [Bool.and_eq_true]
  exact ⟨Graph.handle_alive_iff.mpr ⟨hhandle, hholds.2.1⟩,
    Graph.listed_child_of_answered (h.parent_of_held hnotfree) hanswered⟩

/-- Behind `restore_mount`, no mount is the entry's. -/
theorem Good.restore {id : Nat} {look : Fin 4 → Look} {l : List (Fin 4)} (hl : l.Nodup) {s : Bool × World}
    (h : Good available s.2) (hshown : Guarded (World.restore_next engine available id look)
      (fun s j => (s.2.mounts j).entry = id →
        Shown s.2.graph (s.2.mounts j) (look j) ∧ ShownAgain s.2.graph (s.2.mounts j) (look j)) s l) :
    Good available (run (World.restore_next engine available id look) s l).2 ∧
      (run (World.restore_next engine available id look) s l).2.entries = s.2.entries ∧
      (∀ j, j ∉ l → (run (World.restore_next engine available id look) s l).2.mounts j = s.2.mounts j) ∧
      ((run (World.restore_next engine available id look) s l).1 = true → s.1 = true ∧
        ∀ j ∈ l, ((run (World.restore_next engine available id look) s l).2.mounts j).node = 0 ∨
          ((run (World.restore_next engine available id look) s l).2.mounts j).entry ≠ id) := by
  induction l generalizing s with
  | nil => exact ⟨h, rfl, fun _ _ => rfl, fun hs => ⟨hs, nofun⟩⟩
  | cons i l ih =>
    obtain ⟨hi, hl⟩ := nodup_cons.mp hl
    obtain ⟨hone, hrest⟩ := hshown
    obtain ⟨hgood, hdone⟩ := h.restore_feed engine hone
    obtain ⟨hafter, hentries, hsame, hcleared⟩ := ih hl (s := World.restore_next engine available id look s i) hgood hrest
    rw [run_cons]
    refine ⟨hafter, hentries, fun j hj => ?_, fun hs => ?_⟩
    · obtain ⟨hji, hj⟩ := not_or.mp (mt mem_cons.mpr hj)
      exact (hsame j hj).trans (with_mount_of_ne hji)
    · obtain ⟨hfirst, hlater⟩ := hcleared hs
      obtain ⟨hs, hthis⟩ := Bool.and_eq_true_iff.mp hfirst
      refine ⟨hs, fun j hj => ?_⟩
      rcases mem_cons.mp hj with rfl | hj
      · rw [hsame j hi]
        exact hdone hthis
      · exact hlater j hj

/-- A feed loses its entry where its mount is not that of a live camera Node. -/
theorem Good.without (h : Good available w)
    (hnone : (w.mounts i).node ≠ 0 → ¬w.graph.Alive ((w.mounts i).node, (w.mounts i).node_handle)) :
    Good available { w with entries := update w.entries i none } :=
  have hother {j : Fin 4} {f : Entry} (hf : update w.entries i none j = some f) : w.entries j = some f := by
    by_cases hj : j = i
    · subst hj
      rw [update_self] at hf
      cases hf
    · rwa [update_of_ne hj] at hf
  { recorded := fun hf => h.recorded (hother hf)
    owned := by
      intro j hnode halive
      obtain ⟨f, hf, hrest⟩ := h.owned hnode halive
      have hj : j ≠ i := by
        rintro rfl
        exact hnone hnode halive
      exact ⟨f, (update_of_ne hj ..).trans hf, hrest⟩
    apart := fun hf hf' => h.apart (hother hf) (hother hf')
    used := fun hf => h.used (hother hf)
    available := h.available
    unlisted := h.unlisted }

/-- An entry that no mount is left for is erased while no aircraft Node lists it. -/
theorem Good.erased (h : Good available w) {e : Entry} (he : w.entries i = some e)
    (hnone : (w.mounts i).node = 0 ∨ (w.mounts i).entry ≠ e.id) :
    Good available { w with entries := update w.entries i none, erased := (e, w.graph) :: w.erased } := by
  have hwithout := h.without (i := i) fun hnode halive => by
    obtain ⟨f, hf, -, hentry, -⟩ := h.owned hnode halive
    obtain rfl := Option.some.inj (hf.symm.trans he)
    exact hnone.resolve_left hnode hentry
  refine ⟨hwithout.recorded, hwithout.owned, hwithout.apart, hwithout.used, hwithout.available, fun x hx => ?_⟩
  rcases mem_cons.mp hx with rfl | hx
  · intro p hp halive hlisted
    obtain ⟨hof, -⟩ := h.recorded he hp halive hlisted
    rcases hnone with hnode | hentry
    · exact h.used he (hof.node.symm.trans hnode)
    · exact hentry hof.entry
  · exact h.unlisted x hx

end

/-! ## Every session -/

section
variable {engine : Engine} {available : Bool} {w : World} {i : Fin 4}

theorem Good.start (g : Graph) : Good available { graph := g } where
  recorded := nofun
  owned hnode := absurd rfl hnode
  apart := nofun
  used := nofun
  available hnode := absurd rfl hnode
  unlisted := nofun

/-- The engine changes its Nodes by itself. -/
theorem Good.kept (h : Good available w) {g : Graph} (hkeeps : Keeps w g) : Good available { w with graph := g } where
  recorded he hp halive hlisted := by
    obtain ⟨hbefore, hlists⟩ := hkeeps.1 _ _ he _ hp halive
    obtain ⟨hlisted, hnamed⟩ := hlists hlisted
    exact ⟨(h.recorded he hp hbefore hlisted).1, hnamed⟩
  owned hnode halive := by
    obtain ⟨e, he, hsame, hentry, hroot⟩ := h.owned hnode (hkeeps.2 _ halive)
    exact ⟨e, he, hsame, hentry, fun p hp hlive => hroot p hp (hkeeps.1 _ _ he p hp hlive).1⟩
  apart := h.apart
  used := h.used
  available := h.available
  unlisted := h.unlisted

theorem Good.created (h : Good available w) (hfree : w.entries i = none) {id node : Nat} (hnode : node ≠ 0)
    (hapart : ∀ j e, w.entries j = some e → e.node ≠ node) :
    Good available { w with entries := update w.entries i (some ⟨id, node, []⟩) } where
  recorded {j e p} he hp := by
    dsimp only at he
    by_cases hj : j = i
    · subst hj
      rw [update_self] at he
      obtain rfl := Option.some.inj he
      cases hp
    rw [update_of_ne hj] at he
    exact h.recorded he hp
  owned {j} hnode halive := by
    obtain ⟨e, he, hsame, hentry, hroot⟩ := h.owned hnode halive
    have hj : j ≠ i := by
      rintro rfl
      cases hfree.symm.trans he
    exact ⟨e, (update_of_ne hj ..).trans he, hsame, hentry, hroot⟩
  apart {j k e f} he hf hsame := by
    dsimp only at he hf
    by_cases hj : j = i
    · by_cases hk : k = i
      · exact hj.trans hk.symm
      subst hj
      rw [update_self] at he
      rw [update_of_ne hk] at hf
      obtain rfl := Option.some.inj he
      exact absurd hsame.symm (hapart k f hf)
    rw [update_of_ne hj] at he
    by_cases hk : k = i
    · subst hk
      rw [update_self] at hf
      obtain rfl := Option.some.inj hf
      exact absurd hsame (hapart j e he)
    rw [update_of_ne hk] at hf
    exact h.apart he hf hsame
  used {j e} he := by
    dsimp only at he
    by_cases hj : j = i
    · subst hj
      rw [update_self] at he
      obtain rfl := Option.some.inj he
      exact hnode
    rw [update_of_ne hj] at he
    exact h.used he
  available := h.available
  unlisted := h.unlisted

theorem Good.step (h : Good available w) {op : Op} (hlegal : Legal w op) (hshown : ShownTo engine available w op) :
    Good available (step engine available w op) := by
  cases op with
  | engine g => exact h.kept hlegal
  | created i id node g =>
    obtain ⟨hkeeps, hfree, hnode, hapart⟩ := hlegal
    exact (h.kept hkeeps).created hfree hnode hapart
  | vanished i g =>
    obtain ⟨hkeeps, hgone⟩ := hlegal
    exact (h.kept hkeeps).without fun _ => hgone
  | pulse i scene still look mount_look =>
    show Good available (w.pulse engine available i scene still look mount_look)
    unfold World.pulse
    cases he : w.entries i with
    | none => exact h
    | some e =>
      obtain ⟨hgood, hentries, hfree⟩ := h.current_mount engine he (hshown e he)
      dsimp only
      split
      · rename_i hnone
        exact hgood.mount_on_aircraft ((congrFun hentries i).trans he) (hfree hnone)
      · exact hgood
  | pause look =>
    have hone : ∀ (w : World) (i : Fin 4), Good available w →
        ((w.mounts i).lost = false → Shown w.graph (w.mounts i) (look i)) →
        Good available (World.return_mount engine available look w i) := fun _ _ h hshown => h.return_mount hshown
    exact guarded_invariant hone (finRange 4) h hshown
  | erase i look retained =>
    unfold mount_runs.step
    dsimp only
    cases he : w.entries i with
    | none => exact h
    | some e =>
      obtain ⟨hgood, hentries, -, hdone⟩ := restore (s := (true, w)) (nodup_finRange 4) h (hshown e he)
      dsimp only
      split
      · rename_i hproceed
        obtain ⟨hrestored, -⟩ := Bool.and_eq_true_iff.mp hproceed
        exact hgood.erased ((congrFun hentries i).trans he) ((hdone hrestored).2 i (mem_finRange i))
      · exact hgood

/-- Where the reads show every aircraft Node that holds a camera Node, no entry is erased while a live aircraft Node that its
camera Node was mounted on lists it. -/
theorem nothing_is_erased_while_it_is_listed (engine : Engine) (available : Bool) (g : Graph) (ops : List Op)
    (hops : Guarded (step engine available) (fun w op => Legal w op ∧ ShownTo engine available w op) { graph := g } ops) :
    ∀ x ∈ (run (step engine available) { graph := g } ops).erased, Unlisted x.1 x.2 := by
  have hone : ∀ (w : World) (op : Op), Good available w → Legal w op ∧ ShownTo engine available w op →
      Good available (step engine available w op) := fun _ _ h hop => h.step hop.1 hop.2
  exact (guarded_invariant hone ops (Good.start g) hops).unlisted

end

/-! ## One camera on one aircraft -/

/-- A camera Node 8 under the world root 64, and the aircraft Node 16. -/
def ramp : Graph where
  parent := fun node => if node = 8 then 64 else 0
  children := fun node => if node = 64 then [8] else []
  handle_of := fun node => if node = 8 then some ⟨800, 1⟩ else if node = 16 then some ⟨1600, 1⟩ else none
  scene_node := fun _ => true
  world := fun _ => 0

/-- The camera is created, mounted on the aircraft, and erased with the reads of `look`. -/
def flight (look : Look) : List Op :=
  [.created 0 1 8 ramp, .pulse 0 ⟨true, 16, 1600, 1⟩ false {} { observed := ⟨800, 1⟩ }, .erase 0 (fun _ => look) true]

theorem flight_is_legal (look : Look) : Guarded (step plain true) Legal { graph := ramp } (flight look) :=
  ⟨⟨⟨nofun, fun _ h => h⟩, rfl, by decide, nofun⟩, trivial, trivial, trivial⟩

/-- One list that is not read lets the erase proceed while the aircraft lists the camera Node. -/
theorem an_unread_list_lets_a_listed_camera_be_erased :
    ¬∀ ops, Guarded (step plain true) Legal { graph := ramp } ops →
      ∀ x ∈ (run (step plain true) { graph := ramp } ops).erased, Unlisted x.1 x.2 := by
  intro h
  have herased := h _ (flight_is_legal { aircraft := { first_child := false } }) _ (head_mem (by decide))
  exact herased (16, ⟨1600, 1⟩) (by decide) (by decide) (by decide)

theorem a_camera_is_given_back_before_its_erase :
    (run (step plain true) { graph := ramp } (flight {})).erased ≠ [] ∧
      ∀ x ∈ (run (step plain true) { graph := ramp } (flight {})).erased, Unlisted x.1 x.2 := by
  refine ⟨by decide, ?_⟩
  apply nothing_is_erased_while_it_is_listed
  obtain ⟨hcreated, hpulse, herase, -⟩ := flight_is_legal {}
  refine ⟨⟨hcreated, trivial⟩, ⟨hpulse, ?_⟩, ⟨herase, ?_⟩, trivial⟩
  · intro e he hnode
    obtain rfl := Option.some.inj he
    exact absurd hnode (by decide)
  · intro e he
    obtain rfl := Option.some.inj he
    refine ⟨fun _ => ⟨fun _ _ => ⟨rfl, ?_⟩, fun _ _ => ⟨rfl, ?_⟩⟩, fun h => absurd h (by decide), fun h => absurd h (by decide),
      fun h => absurd h (by decide), trivial⟩
    all_goals exact ⟨rfl, rfl, rfl, rfl, [], [], rfl, by decide, nofun⟩

end taxi_camera.native_camera.mount_runs
