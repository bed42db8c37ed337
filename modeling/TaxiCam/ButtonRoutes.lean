-- Which display texture each side draws on: the user's selections, and the
-- routes by name that leave them alone.
-- `TaxiButtonRoutes` of src/graphics/taxi_button_routes.hpp.
import TaxiCam.Runs
import Mathlib.Data.List.FinRange
import Mathlib.Data.Fintype.Pi
import Mathlib.Tactic.FinCases

namespace taxi_camera

open runs List

/-! ## The routes -/

namespace TaxiButtonRoutes

abbrev MaxDisplaySides : Nat := 3

/-- 0 captain, 1 first officer, 2 lower display. -/
abbrev Side := Fin MaxDisplaySides

abbrev Sides := Side → Nat

end TaxiButtonRoutes

open TaxiButtonRoutes

structure TaxiButtonRoutes where
  targets : Sides := fun _ => 0
  lower_explicit : Bool := false
  named_targets : Sides := fun _ => 0
deriving DecidableEq

namespace TaxiButtonRoutes

variable (r : TaxiButtonRoutes)

/-- Zero leaves a side to its name. Side 2 is not part of the pair. -/
def select_explicit (captain first_officer : Nat) : Bool × TaxiButtonRoutes :=
  if captain ≠ 0 ∧ captain = first_officer then (false, r)
  else
    (true, { r with
      targets := fun side =>
        if side = 0 then captain else if side = 1 then first_officer else r.targets 2 })

def select_single (id : Nat) (separate_lower : Bool) : Bool × TaxiButtonRoutes :=
  if separate_lower then
    if id ≠ 0 ∧ id = r.targets 2 then (false, r)
    else (true, { r with targets := fun side => if side = 2 then r.targets 2 else id })
  else (true, { r with targets := fun _ => id, lower_explicit := false })

def select_lower (id : Nat) : Bool × TaxiButtonRoutes :=
  if id ≠ 0 ∧ (id = r.targets 0 ∨ id = r.targets 1) then (false, r)
  else
    (true, { r with
      targets := Function.update r.targets 2 id, lower_explicit := decide (id ≠ 0) })

def assign (side id : Nat) : Bool × TaxiButtonRoutes :=
  if side ≥ 2 ∨ id = 0 ∨ r.targets (Fin.ofNat 3 (1 - side)) = id then (false, r)
  else (true, { r with targets := Function.update r.targets (Fin.ofNat 3 side) id })

/-- A side the user chose: not its name's texture. -/
def chosen (side : Side) : Bool :=
  (decide (side = 2) && r.lower_explicit) ||
    (decide (r.targets side ≠ 0) && decide (r.targets side ≠ r.named_targets side))

/-- The user put the side's texture on another side, that is not named by it. -/
def held (user : Side → Bool) (named : Sides) (side : Side) : Bool :=
  (List.finRange MaxDisplaySides).any fun other =>
    decide (other ≠ side) && user other && decide (r.targets other = named side) &&
      decide (named other ≠ named side)

/-- The turn of the loop of `adopt_named` for one side. -/
def adopt_side (user : Side → Bool) (named : Sides) (out : Bool × TaxiButtonRoutes)
    (side : Side) : Bool × TaxiButtonRoutes :=
  let id := named side
  if id = 0 ∨ out.2.targets side = id ∨ user side = true then out
  else if out.2.held user named side then out
  else
    (true, { out.2 with
      targets := Function.update out.2.targets side id
      named_targets := Function.update out.2.named_targets side id })

/-- A side the user did not choose takes the texture its name resolves to. -/
def adopt_named (named : Sides) (sides : Nat) : Bool × TaxiButtonRoutes :=
  ((List.finRange MaxDisplaySides).filter fun side => decide (side.val < sides)).foldl
    (adopt_side r.chosen named) (false, r)

def forget (id : Nat) : TaxiButtonRoutes where
  targets side := if r.targets side = id then 0 else r.targets side
  named_targets side := if r.targets side = id then 0 else r.named_targets side
  lower_explicit := if r.targets 2 = id then false else r.lower_explicit

/-! ## One adoption -/

/-- The sides that an adoption moves. -/
def takes (named : Sides) (sides : Nat) (side : Side) : Bool :=
  decide (side.val < sides) && decide (named side ≠ 0) && decide (r.targets side ≠ named side) &&
    !r.chosen side && !r.held r.chosen named side

/-- The routes when the sides of `moved` have taken their names. -/
def move (named : Sides) (moved : Side → Bool) : TaxiButtonRoutes :=
  { r with
    targets := fun side => if moved side then named side else r.targets side
    named_targets := fun side => if moved side then named side else r.named_targets side }

variable {r} {named : Sides} {sides : Nat} {side : Side}

theorem takes_iff : r.takes named sides side = true ↔
    side.val < sides ∧ named side ≠ 0 ∧ r.targets side ≠ named side ∧ r.chosen side = false ∧
      r.held r.chosen named side = false := by
  simp only [takes, Bool.and_eq_true, decide_eq_true_eq, Bool.not_eq_true', and_assoc]

/-- The sides that the user chose do not move, so a side is held as before the adoption. -/
theorem held_move {moved : Side → Bool} (hmoved : ∀ other, moved other = true → r.chosen other = false) :
    (r.move named moved).held r.chosen named side = r.held r.chosen named side := by
  unfold held
  congr 1
  funext other
  rcases hother : moved other with _ | _
  · simp [move, hother]
  · simp [hmoved other hother]

/-- The sides of `done` that the adoption moves. -/
def moved_of (r : TaxiButtonRoutes) (named : Sides) (sides : Nat) (done : List Side) (side : Side) :
    Bool :=
  decide (side ∈ done) && r.takes named sides side

theorem moved_of_snoc (done : List Side) (other : Side) :
    r.moved_of named sides (done ++ [side]) other =
      (r.moved_of named sides done other || (decide (other = side) && r.takes named sides side)) := by
  unfold moved_of
  by_cases hother : other = side
  · subst hother
    cases r.takes named sides other <;> simp
  · simp [hother]

theorem adopt_side_move {done : List Side} (hside : side ∉ done) (hin : side.val < sides) :
    adopt_side r.chosen named (done.any (r.takes named sides), r.move named (r.moved_of named sides done)) side =
      ((done ++ [side]).any (r.takes named sides), r.move named (r.moved_of named sides (done ++ [side]))) := by
  have hheld : (r.move named (r.moved_of named sides done)).held r.chosen named side =
      r.held r.chosen named side := by
    apply held_move
    intro other hother
    exact (takes_iff.mp (Bool.and_eq_true_iff.mp hother).2).2.2.2.1
  have htarget : (r.move named (r.moved_of named sides done)).targets side = r.targets side := by
    simp [move, moved_of, hside]
  have hmoved : r.moved_of named sides (done ++ [side]) = _ := funext (moved_of_snoc done)
  unfold adopt_side
  dsimp only
  rw [hheld, htarget, hmoved, any_append, any_cons, any_nil, Bool.or_false]
  rcases htakes : r.takes named sides side with _ | _
  · have hout : named side = 0 ∨ r.targets side = named side ∨ r.chosen side = true ∨
        r.held r.chosen named side = true := by
      by_contra hno
      push Not at hno
      obtain ⟨hnamed, hother, hfree, hnone⟩ := hno
      rw [← Bool.not_eq_true] at htakes
      apply htakes
      rw [takes_iff]
      exact ⟨hin, hnamed, hother, Bool.eq_false_iff.mpr hfree, Bool.eq_false_iff.mpr hnone⟩
    simp only [Bool.and_false, Bool.or_false]
    split
    · rfl
    rename_i hgo
    rw [if_pos]
    rcases hout with h | h | h | h
    · exact absurd (.inl h) hgo
    · exact absurd (.inr (.inl h)) hgo
    · exact absurd (.inr (.inr h)) hgo
    · exact h
  obtain ⟨-, hnamed, hother, hfree, hnone⟩ := takes_iff.mp htakes
  rw [if_neg (by simp [hnamed, hother, hfree]), hnone, if_neg Bool.false_ne_true, Bool.or_true]
  congr 1
  unfold move
  congr 1 <;> funext x <;> by_cases hx : x = side
  · subst hx
    simp
  · simp [hx]
  · subst hx
    simp
  · simp [hx]

/-- An adoption moves the sides that take their names, all at once. -/
theorem adopt_named_eq (r : TaxiButtonRoutes) (named : Sides) (sides : Nat) :
    r.adopt_named named sides =
      (decide (∃ side, r.takes named sides side = true), r.move named (r.takes named sides)) := by
  have hfold : ∀ l : List Side, l.Nodup → (∀ side ∈ l, side.val < sides) →
      l.foldl (adopt_side r.chosen named) (false, r) =
        (l.any (r.takes named sides), r.move named (r.moved_of named sides l)) := by
    intro l
    induction l using reverseRecOn with
    | nil => exact fun _ _ => rfl
    | append_singleton done side ih =>
      intro hnodup hin
      obtain ⟨hdone, -, hfresh⟩ := nodup_append.mp hnodup
      have hside : side ∉ done := fun h => hfresh side h side (mem_singleton_self _) rfl
      rw [foldl_append, ih hdone fun x hx => hin x (mem_append_left _ hx), foldl_cons, foldl_nil]
      exact adopt_side_move hside (hin side (by simp))
  unfold adopt_named
  rw [hfold _ ((nodup_finRange _).filter _) fun side hside => by
    simpa using (mem_filter.mp hside).2]
  have hall (side : Side) : r.takes named sides side = true →
      side ∈ (finRange MaxDisplaySides).filter fun side => decide (side.val < sides) := by
    intro htakes
    simp [(takes_iff.mp htakes).1]
  congr 1
  · rw [Bool.eq_iff_iff, any_eq_true, decide_eq_true_eq]
    exact ⟨fun ⟨side, _, h⟩ => ⟨side, h⟩, fun ⟨side, h⟩ => ⟨side, hall side h, h⟩⟩
  · congr 1
    funext side
    unfold moved_of
    rcases htakes : r.takes named sides side with _ | _
    · rw [Bool.and_false]
    rw [Bool.and_true, decide_eq_true_eq]
    exact hall side htakes

/-- A side that took its name is not one the user chose, and the others are as before. -/
theorem chosen_move (r : TaxiButtonRoutes) (named : Sides) (sides : Nat) :
    (r.move named (r.takes named sides)).chosen = r.chosen := by
  funext side
  rcases htakes : r.takes named sides side with _ | _
  · simp [chosen, move, htakes]
  have hfree := (takes_iff.mp htakes).2.2.2.1
  rw [hfree]
  unfold chosen at hfree
  rw [Bool.or_eq_false_iff] at hfree
  simp [chosen, move, htakes, hfree.1]

theorem takes_move (r : TaxiButtonRoutes) (named : Sides) (sides : Nat) (side : Side) :
    (r.move named (r.takes named sides)).takes named sides side = false := by
  have hheld : (r.move named (r.takes named sides)).held
      (r.move named (r.takes named sides)).chosen named side = r.held r.chosen named side := by
    rw [chosen_move]
    apply held_move
    intro other hother
    exact (takes_iff.mp hother).2.2.2.1
  have htarget : (r.move named (r.takes named sides)).targets side =
      if r.takes named sides side then named side else r.targets side := rfl
  rcases htakes : r.takes named sides side with _ | _
  · rw [htakes, if_neg Bool.false_ne_true] at htarget
    rw [← htakes, Bool.eq_iff_iff, takes_iff, takes_iff, hheld, chosen_move, htarget]
  rw [htakes, if_pos rfl] at htarget
  rw [← Bool.not_eq_true, takes_iff]
  exact fun h => h.2.2.1 htarget

/-- A second adoption of the same names changes nothing. -/
theorem adopt_named_twice (r : TaxiButtonRoutes) (named : Sides) (sides : Nat) :
    (r.adopt_named named sides).2.adopt_named named sides = (false, (r.adopt_named named sides).2) := by
  rw [adopt_named_eq r]
  rw [adopt_named_eq]
  have hnone := takes_move r named sides
  refine Prod.ext ?_ ?_
  · simp [hnone]
  · have hmove : (r.move named (r.takes named sides)).takes named sides = fun _ => false := funext hnone
    rw [hmove]
    rfl

end TaxiButtonRoutes

/-! ## Calls, and the choices that they leave -/

/-- A call of the user interface, of the naming service or of a texture's destruction. -/
inductive RouteCall
  | select_explicit (captain first_officer : Nat)
  | select_single (id : Nat) (separate_lower : Bool)
  | select_lower (id : Nat)
  | assign (side id : Nat)
  | adopt_named (named : Sides) (sides : Nat)
  | forget (id : Nat)

/-- What the call returns, and the routes after it. -/
def TaxiButtonRoutes.call (r : TaxiButtonRoutes) : RouteCall → Bool × TaxiButtonRoutes
  | .select_explicit captain first_officer => r.select_explicit captain first_officer
  | .select_single id separate_lower => r.select_single id separate_lower
  | .select_lower id => r.select_lower id
  | .assign side id => r.assign side id
  | .adopt_named named sides => r.adopt_named named sides
  | .forget id => (true, r.forget id)

/-- The routes after a call. -/
def TaxiButtonRoutes.after (r : TaxiButtonRoutes) (c : RouteCall) : TaxiButtonRoutes := (r.call c).2

namespace RouteCall

/-- What the user chooses for a side with the call, when it is not refused; zero is no texture. -/
def choice (side : Side) : RouteCall → Option Nat
  | .select_explicit captain first_officer =>
    if side = 0 then some captain else if side = 1 then some first_officer else none
  | .select_single id separate_lower => if side = 2 ∧ separate_lower = true then none else some id
  | .select_lower id => if side = 2 then some id else none
  | .assign s id => if side.val = s then some id else none
  | _ => none

/-- A choice that sets the flag of the separate lower display. -/
def Lower : RouteCall → Prop
  | .select_lower _ => True
  | _ => False

instance : DecidablePred Lower
  | .select_lower _ => .isTrue trivial
  | .select_explicit _ _ | .select_single _ _ | .assign _ _ | .adopt_named _ _ | .forget _ =>
    .isFalse id

theorem Lower.cases {c : RouteCall} (h : c.Lower) : ∃ id, c = .select_lower id := by
  cases c with
  | select_lower id => exact ⟨id, rfl⟩
  | _ => cases h

/-- A call of the user interface. -/
def Selection : RouteCall → Prop
  | .adopt_named _ _ | .forget _ => False
  | _ => True

end RouteCall

/-- What a selection that is not refused does to the routes. -/
structure Selects (r r' : TaxiButtonRoutes) (c : RouteCall) : Prop where
  targets : ∀ side, r'.targets side = (c.choice side).getD (r.targets side)
  named : r'.named_targets = r.named_targets
  flag : c.choice 2 = none → r'.lower_explicit = r.lower_explicit
  lower : ∀ id, c = .select_lower id → r'.lower_explicit = decide (id ≠ 0)
  shared : ∀ id, c.choice 2 = some id → ¬ c.Lower → r'.lower_explicit = false

theorem call_selects (r : TaxiButtonRoutes) {c : RouteCall} (hc : c.Selection) :
    r.call c = (false, r) ∨ (r.call c).1 = true ∧ Selects r (r.call c).2 c := by
  cases c with
  | adopt_named | forget => cases hc
  | select_explicit captain first_officer =>
    unfold call select_explicit
    dsimp only
    split
    · exact .inl rfl
    refine .inr ⟨rfl, ?_, rfl, fun _ => rfl, by simp, nofun⟩
    intro side
    fin_cases side <;> rfl
  | select_single id separate_lower =>
    unfold call select_single
    dsimp only
    cases separate_lower with
    | false =>
      refine .inr ⟨rfl, ?_, rfl, fun h => ?_, by simp, fun _ _ _ => rfl⟩
      · intro side
        fin_cases side <;> rfl
      · cases h
    | true =>
      rw [if_pos rfl]
      split
      · exact .inl rfl
      refine .inr ⟨rfl, ?_, rfl, fun _ => rfl, by simp, nofun⟩
      intro side
      fin_cases side <;> rfl
  | select_lower id =>
    unfold call select_lower
    dsimp only
    split
    · exact .inl rfl
    refine .inr ⟨rfl, ?_, rfl, fun h => ?_, ?_, fun _ _ hnot => absurd trivial hnot⟩
    · intro side
      fin_cases side <;> rfl
    · cases h
    · rintro id' ⟨⟩
      rfl
  | assign s id =>
    unfold call assign
    dsimp only
    split
    · exact .inl rfl
    rename_i hgo
    have hs : s = 0 ∨ s = 1 := by omega
    refine .inr ⟨rfl, ?_, rfl, fun _ => rfl, by simp, ?_⟩
    · rcases hs with rfl | rfl <;> intro side <;> fin_cases side <;> rfl
    · rcases hs with rfl | rfl <;> exact nofun

/-- The routes, and the texture that the user chose last for each side: zero when there is none, or
when it is forgotten. -/
structure ChosenRoutes where
  routes : TaxiButtonRoutes := {}
  choices : Sides := fun _ => 0

namespace ChosenRoutes

/-- The choices that a call leaves. -/
def choose (s : ChosenRoutes) (c : RouteCall) : Sides := fun side =>
  match c with
  | .forget id => if s.choices side = id then 0 else s.choices side
  | _ => if (s.routes.call c).1 then (c.choice side).getD (s.choices side) else s.choices side

def step (s : ChosenRoutes) (c : RouteCall) : ChosenRoutes where
  routes := (s.routes.call c).2
  choices := s.choose c

/-- A texture that is chosen for a side is not the one that named the side last; the separate lower
display has a flag of its own. -/
def Plain (s : ChosenRoutes) (c : RouteCall) : Prop :=
  ∀ side, ∀ id ∈ c.choice side, id ≠ 0 → (s.routes.call c).1 = true → ¬ c.Lower →
    id ≠ s.routes.named_targets side

instance (s : ChosenRoutes) (c : RouteCall) : Decidable (s.Plain c) := by
  unfold Plain
  infer_instance

/-- Every choice is in place, and the routes know it as one. -/
def Kept (s : ChosenRoutes) : Prop :=
  ∀ side, s.choices side ≠ 0 →
    s.routes.targets side = s.choices side ∧ s.routes.chosen side = true

variable {s : ChosenRoutes} {c : RouteCall}

theorem choose_selection (hc : c.Selection) : s.choose c = fun side =>
      if (s.routes.call c).1 then (c.choice side).getD (s.choices side) else s.choices side := by
  cases c with
  | adopt_named | forget => cases hc
  | _ => rfl

theorem Kept.selection (hs : s.Kept) (hc : c.Selection) (hplain : s.Plain c) : (s.step c).Kept := by
  intro side hside
  unfold step at hside ⊢
  rw [choose_selection hc] at hside ⊢
  rcases call_selects s.routes hc with hrefused | ⟨haccepted, hselects⟩
  · rw [hrefused] at hside ⊢
    exact hs side hside
  dsimp only at hside ⊢
  rw [if_pos haccepted] at hside ⊢
  rw [hselects.targets]
  unfold chosen
  rw [hselects.targets, hselects.named]
  rcases hchoice : c.choice side with _ | id
  · rw [hchoice, Option.getD_none] at hside
    obtain ⟨htarget, hchosen⟩ := hs side hside
    refine ⟨htarget, ?_⟩
    unfold chosen at hchosen
    by_cases hlower : side = 2
    · subst hlower
      rw [hselects.flag hchoice]
      exact hchosen
    · simpa [hlower] using hchosen
  rw [hchoice, Option.getD_some] at hside
  refine ⟨rfl, ?_⟩
  by_cases hlower : c.Lower
  · obtain ⟨lower, rfl⟩ := hlower.cases
    have hflag := hselects.lower lower rfl
    have hset : (if side = 2 then some lower else none) = some id := hchoice
    split at hset
    · rename_i htwo
      cases hset
      simp [hflag, htwo, hside]
    · cases hset
  have hnamed := hplain side id hchoice hside haccepted hlower
  simp [hside, hnamed]

theorem choose_adopt_named (s : ChosenRoutes) (named : Sides) (sides : Nat) :
    s.choose (.adopt_named named sides) = s.choices := by
  funext side
  unfold choose RouteCall.choice
  rw [Option.getD_none, ite_self]

theorem Kept.adopt_named (hs : s.Kept) (named : Sides) (sides : Nat) : (s.step (.adopt_named named sides)).Kept := by
  have hchoices := choose_adopt_named s named sides
  have hroutes : (s.routes.call (.adopt_named named sides)).2 = s.routes.move named (s.routes.takes named sides) := by
    unfold call
    dsimp only
    rw [adopt_named_eq]
  intro side hside
  unfold step at hside ⊢
  rw [hchoices] at hside ⊢
  obtain ⟨htarget, hchosen⟩ := hs side hside
  have hstays : s.routes.takes named sides side = false := by
    rw [← Bool.not_eq_true, takes_iff, hchosen]
    exact fun h => Bool.noConfusion h.2.2.2.1
  rw [hroutes, chosen_move]
  refine ⟨?_, hchosen⟩
  unfold move
  dsimp only
  rw [hstays]
  exact htarget

theorem Kept.forget (hs : s.Kept) (id : Nat) : (s.step (.forget id)).Kept := by
  intro side hside
  unfold step choose call at hside ⊢
  dsimp only at hside ⊢
  split at hside
  · exact absurd rfl hside
  rename_i hother
  obtain ⟨htarget, hchosen⟩ := hs side hside
  have hstays : s.routes.targets side ≠ id := fun h => hother (htarget.symm.trans h)
  unfold TaxiButtonRoutes.forget chosen
  unfold chosen at hchosen
  simp only [if_neg hother, if_neg hstays]
  refine ⟨htarget, ?_⟩
  by_cases hlower : side = 2
  · subst hlower
    rw [if_neg hstays]
    exact hchosen
  · simpa [hlower] using hchosen

theorem Kept.step (hs : s.Kept) (hplain : s.Plain c) : (s.step c).Kept := by
  cases c with
  | adopt_named named sides => exact hs.adopt_named named sides
  | forget id => exact hs.forget id
  | _ => exact hs.selection trivial hplain

end ChosenRoutes

/-! ## A pilot pair -/

namespace TaxiButtonRoutes

/-- The captain's side and the first officer's. -/
def Facing (side other : Side) : Prop := side ≠ other ∧ side ≠ 2 ∧ other ≠ 2

/-- The two sides do not hold the same texture. -/
def Apart (r : TaxiButtonRoutes) : Prop :=
  ∀ side other, Facing side other → r.targets side ≠ 0 → r.targets side ≠ r.targets other

instance (r : TaxiButtonRoutes) : Decidable r.Apart := by
  unfold Apart Facing
  infer_instance

/-- The user put the side's texture on the lower display, that is not named by it. -/
def Placed (r : TaxiButtonRoutes) (named : Sides) (side : Side) : Prop :=
  r.chosen 2 = true ∧ r.targets 2 = named side ∧ named 2 ≠ named side

/-- When the other side has, by an earlier name, the texture that a side takes, the adoption has a
name for the other side too, and nothing keeps it from taking that. -/
def Resolved (r : TaxiButtonRoutes) : RouteCall → Prop
  | .adopt_named named _ =>
    ∀ side other, Facing side other → named side ≠ 0 → r.targets other = named side →
      r.chosen side = false → r.chosen other = false → ¬ r.Placed named side →
      named other ≠ 0 ∧ ¬ r.Placed named other
  | _ => True

instance (side other : Side) : Decidable (Facing side other) :=
  inferInstanceAs (Decidable (side ≠ other ∧ side ≠ 2 ∧ other ≠ 2))

variable {other side : Side}

theorem Facing.cases (h : Facing side other) : (side = 0 ∧ other = 1) ∨ (side = 1 ∧ other = 0) := by
  revert side other
  decide

theorem Facing.third {x : Side} (h : Facing side other) (hx : x ≠ side) (htwo : x ≠ 2) : x = other := by
  revert side other x
  decide

theorem held_facing {r : TaxiButtonRoutes} {named : Sides}
    (hfacing : Facing side other) : r.held r.chosen named side = true ↔
      (r.chosen other = true ∧ r.targets other = named side ∧ named other ≠ named side) ∨ r.Placed named side := by
  unfold held Placed
  rw [any_eq_true]
  simp only [Bool.and_eq_true, decide_eq_true_eq, and_assoc]
  constructor
  · rintro ⟨x, -, hx, huser, htarget, hnamed⟩
    by_cases htwo : x = 2
    · subst htwo
      exact .inr ⟨huser, htarget, hnamed⟩
    have hother := hfacing.third hx htwo
    subst hother
    exact .inl ⟨huser, htarget, hnamed⟩
  · rintro (⟨huser, htarget, hnamed⟩ | ⟨huser, htarget, hnamed⟩)
    · exact ⟨other, mem_finRange _, hfacing.1.symm, huser, htarget, hnamed⟩
    · exact ⟨2, mem_finRange _, hfacing.2.1.symm, huser, htarget, hnamed⟩

end TaxiButtonRoutes

/-- A call for a pilot pair: a selection does not give both sides one texture, and an adoption does
not name one texture for both. -/
def RouteCall.PilotPair : RouteCall → Prop
  | .select_single id _ => id = 0
  | .adopt_named named sides => 2 ≤ sides ∧ (named 0 ≠ 0 → named 0 ≠ named 1)
  | _ => True

instance : DecidablePred RouteCall.PilotPair
  | .select_single id _ => inferInstanceAs (Decidable (id = 0))
  | .adopt_named named sides =>
    inferInstanceAs (Decidable (2 ≤ sides ∧ (named 0 ≠ 0 → named 0 ≠ named 1)))
  | .select_explicit _ _ | .select_lower _ | .assign _ _ | .forget _ => .isTrue trivial

namespace TaxiButtonRoutes

variable {sides : Nat} {c : RouteCall} {other side : Side} {named : Sides} {r : TaxiButtonRoutes}

theorem Facing.symm (h : Facing side other) : Facing other side := ⟨h.1.symm, h.2.2, h.2.1⟩

theorem facing_named (hpair : (RouteCall.adopt_named named sides).PilotPair) (hfacing : Facing side other) (hnamed : named side ≠ 0) :
    named side ≠ named other := by
  obtain ⟨-, hdiffer⟩ := hpair
  rcases hfacing.cases with ⟨rfl, rfl⟩ | ⟨rfl, rfl⟩
  · exact hdiffer hnamed
  intro heq
  exact hdiffer (heq ▸ hnamed) heq.symm

/-- An adoption keeps the sides of a pilot pair apart where it is resolved, and only there. -/
theorem apart_adopt_named (hapart : r.Apart) (hpair : (RouteCall.adopt_named named sides).PilotPair) :
    (r.adopt_named named sides).2.Apart ↔ r.Resolved (.adopt_named named sides) := by
  rw [adopt_named_eq]
  have hin (side other : Side) (hfacing : Facing side other) : side.val < sides := by
    have htwo := hpair.1
    rcases hfacing.cases with ⟨rfl, rfl⟩ | ⟨rfl, rfl⟩
    · exact Nat.lt_of_lt_of_le Nat.zero_lt_two htwo
    · exact htwo
  constructor
  · intro hafter side other hfacing hnamed htarget hfree hfree' hplaced
    have hheld : r.held r.chosen named side = false := by
      rw [← Bool.not_eq_true, held_facing hfacing, hfree']
      rintro (h | h)
      · exact Bool.noConfusion h.1
      · exact hplaced h
    have hmoves : r.targets side ≠ named side := by
      intro heq
      exact hapart side other hfacing (heq ▸ hnamed) (heq.trans htarget.symm)
    have htakes := takes_iff.mpr ⟨hin side other hfacing, hnamed, hmoves, hfree, hheld⟩
    have hdiffer := hafter side other hfacing
    unfold move at hdiffer
    dsimp only at hdiffer
    rw [htakes, if_pos rfl] at hdiffer
    rcases htakes' : r.takes named sides other with _ | _
    · rw [htakes', if_neg Bool.false_ne_true] at hdiffer
      exact absurd htarget.symm (hdiffer hnamed)
    obtain ⟨-, hnamed', -, -, hheld'⟩ := takes_iff.mp htakes'
    refine ⟨hnamed', fun hplaced' => ?_⟩
    rw [(held_facing hfacing.symm).mpr (.inr hplaced')] at hheld'
    cases hheld'
  · intro hresolved side other hfacing hsome heq
    -- A side that takes what the other one keeps is not resolved.
    have hone : ∀ side other, Facing side other → r.takes named sides side = true →
        r.takes named sides other = false → named side ≠ r.targets other := by
      intro side other hfacing htakes hkeeps heq
      obtain ⟨-, hnamed, -, hfree, hheld⟩ := takes_iff.mp htakes
      have hdiffer := facing_named hpair hfacing hnamed
      rw [← Bool.not_eq_true, held_facing hfacing] at hheld
      push Not at hheld
      have hfree' : r.chosen other = false := by
        rw [← Bool.not_eq_true]
        exact fun huser => hdiffer.symm (hheld.1 huser heq.symm)
      obtain ⟨hnamed', hplaced'⟩ := hresolved side other hfacing hnamed heq.symm hfree hfree' hheld.2
      have htakes' : r.takes named sides other = true := by
        rw [takes_iff]
        refine ⟨hin other side hfacing.symm, hnamed', heq ▸ hdiffer, hfree', ?_⟩
        rw [← Bool.not_eq_true, held_facing hfacing.symm, hfree]
        rintro (h | h)
        · exact Bool.noConfusion h.1
        · exact hplaced' h
      rw [htakes'] at hkeeps
      cases hkeeps
    unfold move at hsome heq
    rcases htakes : r.takes named sides side with _ | _ <;>
      rcases htakes' : r.takes named sides other with _ | _ <;>
      simp only [htakes, htakes', if_true, if_false, Bool.false_eq_true] at hsome heq
    · exact hapart side other hfacing hsome heq
    · exact hone other side hfacing.symm htakes' htakes heq.symm
    · exact hone side other hfacing htakes htakes' heq
    · exact facing_named hpair hfacing hsome heq

theorem apart_iff : r.Apart ↔ (r.targets 0 ≠ 0 → r.targets 0 ≠ r.targets 1) := by
  constructor
  · exact fun h => h 0 1 (by decide)
  · intro h side other hfacing hsome heq
    rcases hfacing.cases with ⟨rfl, rfl⟩ | ⟨rfl, rfl⟩
    · exact h hsome heq
    · exact h (heq ▸ hsome) heq.symm

/-- A selection that is not refused keeps the sides of a pilot pair apart. -/
theorem apart_selection (hapart : r.Apart) (hc : c.Selection) (hpair : c.PilotPair) : (r.call c).2.Apart := by
  rw [apart_iff] at hapart ⊢
  cases c with
  | adopt_named | forget => cases hc
  | select_explicit captain first_officer =>
    unfold call select_explicit
    dsimp only
    split
    · exact hapart
    rename_i hdiffer
    exact fun hsome heq => hdiffer ⟨hsome, heq⟩
  | select_single id separate_lower =>
    cases hpair
    unfold call select_single
    cases separate_lower <;> simp
  | select_lower id =>
    unfold call select_lower
    dsimp only
    split
    · exact hapart
    · exact hapart
  | assign side id =>
    unfold call assign
    dsimp only
    split
    · exact hapart
    rename_i hgo
    push Not at hgo
    obtain ⟨hside, hid, hother⟩ := hgo
    have hcases : side = 0 ∨ side = 1 := by omega
    rcases hcases with rfl | rfl
    · exact fun _ heq => hother heq.symm
    · exact fun _ heq => hother heq

theorem apart_forget (hapart : r.Apart) (id : Nat) : (r.forget id).Apart := by
  rw [apart_iff] at hapart ⊢
  unfold forget
  dsimp only
  intro hsome
  split at hsome
  · exact absurd rfl hsome
  rename_i hkept
  rw [if_neg hkept]
  split
  · exact hsome
  · exact hapart hsome

theorem apart_call (hapart : r.Apart) (hpair : c.PilotPair) : (r.after c).Apart ↔ r.Resolved c := by
  cases c with
  | adopt_named named sides => exact apart_adopt_named hapart hpair
  | forget id => exact iff_of_true (apart_forget hapart id) trivial
  | _ => exact iff_of_true (apart_selection hapart trivial hpair) trivial

end TaxiButtonRoutes

namespace ChosenRoutes

/-! ## A choice that is lost -/

/-- A texture that none of the sides has. -/
def fresh (r : TaxiButtonRoutes) : Nat := r.targets 0 + r.targets 1 + r.targets 2 + 1

theorem fresh_ne (r : TaxiButtonRoutes) (side : Side) : r.targets side ≠ fresh r := by
  have hside : side = 0 ∨ side = 1 ∨ side = 2 := by
    revert side
    decide
  unfold fresh
  rcases hside with rfl | rfl | rfl <;> omega

/-- A name for one side. -/
def name_of (side : Side) (id : Nat) : Sides := fun other => if other = side then id else 0

/-- A texture that is not known as a choice moves at the next name. -/
theorem takes_fresh {r : TaxiButtonRoutes} {side : Side} (hfree : r.chosen side = false) :
    r.takes (name_of side (fresh r)) MaxDisplaySides side = true := by
  have hname : name_of side (fresh r) side = fresh r := if_pos rfl
  rw [takes_iff, hname]
  refine ⟨side.isLt, Nat.succ_ne_zero _, fresh_ne r side, hfree, ?_⟩
  unfold held
  rw [any_eq_false]
  intro other _
  have hother := fresh_ne r other
  simp [hname, hother]

/-- After a choice that is not plain, a name for the side takes its texture away. -/
theorem plain_is_needed {s : ChosenRoutes} {c : RouteCall} (h : ¬ s.Plain c) :
    ∃ named sides side,
      let t := (s.step c).step (.adopt_named named sides)
      t.choices side ≠ 0 ∧ t.routes.targets side ≠ t.choices side := by
  unfold Plain at h
  push Not at h
  obtain ⟨side, id, hchoice, hid, haccepted, hlower, hnamed⟩ := h
  have hc : c.Selection := by
    cases c with
    | adopt_named | forget => cases hchoice
    | _ => trivial
  rcases call_selects s.routes hc with hrefused | ⟨-, hselects⟩
  · rw [hrefused] at haccepted
    cases haccepted
  generalize hr : (s.routes.call c).2 = r at hselects
  have htarget : r.targets side = id := by
    rw [hselects.targets, hchoice, Option.getD_some]
  have hfree : r.chosen side = false := by
    unfold chosen
    rw [htarget, hselects.named, ← hnamed]
    by_cases htwo : side = 2
    · subst htwo
      simp [hselects.shared id hchoice hlower]
    · simp [htwo]
  refine ⟨name_of side (fresh r), MaxDisplaySides, side, ?_⟩
  have hchoices : (s.step c).choices side = id := by
    unfold step
    rw [choose_selection hc]
    dsimp only
    rw [if_pos haccepted, hchoice, Option.getD_some]
  have hroutes : (s.step c).routes = r := hr
  have hlater : ((s.step c).step (.adopt_named (name_of side (fresh r)) MaxDisplaySides)).choices side =
      id := by
    rw [← hchoices]
    exact congrFun (choose_adopt_named ..) side
  have hmoved : ((s.step c).step
      (.adopt_named (name_of side (fresh r)) MaxDisplaySides)).routes.targets side = fresh r := by
    unfold step at hroutes ⊢
    rw [hroutes]
    unfold call
    dsimp only
    rw [adopt_named_eq]
    unfold move
    dsimp only
    rw [if_pos (takes_fresh hfree)]
    exact if_pos rfl
  dsimp only
  rw [hlater, hmoved]
  exact ⟨hid, fun heq => fresh_ne r side (htarget.trans heq.symm)⟩

/-- A choice of the user stays until the user chooses again or the texture is forgotten, when no
choice is of the texture that last named its side, and such a choice is lost to the next name; the
sides of a pilot pair stay apart exactly when every adoption is resolved; and an adoption that is
repeated changes nothing. -/
theorem explicit_choices_win (calls : List RouteCall) :
    (Guarded step Plain {} calls →
      ∀ side, (run step {} calls).choices side ≠ 0 →
        (run step {} calls).routes.targets side = (run step {} calls).choices side) ∧
    (∀ (s : ChosenRoutes) (c : RouteCall), ¬ s.Plain c → ∃ named sides side,
      let t := (s.step c).step (.adopt_named named sides)
      t.choices side ≠ 0 ∧ t.routes.targets side ≠ t.choices side) ∧
    ((∀ c ∈ calls, c.PilotPair) →
      (Guarded TaxiButtonRoutes.after (fun r c => (r.after c).Apart) {} calls ↔
        Guarded TaxiButtonRoutes.after TaxiButtonRoutes.Resolved {} calls)) ∧
    ∀ (r : TaxiButtonRoutes) (named : Sides) (sides : Nat),
      (r.adopt_named named sides).2.adopt_named named sides = (false, (r.adopt_named named sides).2) := by
  refine ⟨?_, fun _ _ h => plain_is_needed h, ?_, TaxiButtonRoutes.adopt_named_twice⟩
  · intro hplain side hside
    have hkept : (run step {} calls).Kept := by
      apply guarded_invariant (fun _ _ (hs : Kept _) hc => hs.step hc) calls ?_ hplain
      exact fun _ hnone => absurd rfl hnone
    exact (hkept side hside).1
  · intro hpair
    have hapart : ({} : TaxiButtonRoutes).Apart := fun _ _ _ hsome => absurd rfl hsome
    have hstep : ∀ (r : TaxiButtonRoutes) (c : RouteCall), r.Apart → c.PilotPair →
        ((r.after c).Apart ↔ r.Resolved c) := fun _ _ => TaxiButtonRoutes.apart_call
    exact guarded_exactly hstep calls hapart hpair

def three (captain first_officer lower : Nat) : Sides := fun side =>
  if side = 0 then captain else if side = 1 then first_officer else lower

/-- Two sides are named, the user moves the first and then leaves it to its name again. -/
theorem moved_side_is_kept :
    let calls := [.adopt_named (three 280 279 0) 2, .select_explicit 500 0, .adopt_named (three 279 281 0) 2]
    (run step {} calls).routes.targets 0 = 500 ∧
      Guarded TaxiButtonRoutes.after TaxiButtonRoutes.Resolved {} calls := by
  intro calls
  have hplain : Guarded step Plain {} calls := by decide +kernel
  have hpair : ∀ c ∈ calls, c.PilotPair := by decide
  have hwin := explicit_choices_win calls
  exact ⟨hwin.1 hplain 0 (by decide +kernel), (hwin.2.2.1 hpair).mp (by decide +kernel)⟩

/-- The user chooses the texture that the side is named by, and loses it when the name moves; and
names that swap while one of them is unresolved put one texture on both sides. -/
theorem named_choice_is_lost :
    (let calls := [.adopt_named (three 280 279 0) 2, .select_explicit 280 0, .adopt_named (three 281 279 0) 2]
    (run step {} calls).choices 0 = 280 ∧ (run step {} calls).routes.targets 0 = 281) ∧
    let calls := [.adopt_named (three 280 279 0) 2, .adopt_named (three 279 0 0) 2]
    (∀ c ∈ calls, c.PilotPair) ∧ ¬ (run TaxiButtonRoutes.after {} calls).Apart := by
  refine ⟨by decide +kernel, by decide, ?_⟩
  intro hapart
  exact hapart 0 1 (by decide) (by decide +kernel) (by decide +kernel)

end ChosenRoutes

end taxi_camera
