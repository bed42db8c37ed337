-- No camera entry is lost or erased twice. The ledger of the entries is read
-- off what was told of the engine's calls alone; in every run the controller
-- holds exactly the entries of the ledger.
import TaxiCam.EntryPair

namespace taxi_camera.engine_camera

open histories runs
open Function (update_of_ne update_self)

namespace PairController

/-! ## The ledger -/

/-- Whether `owner` has the entry `id` after one more event: a create that returned it brings it
in, an erase that was confirmed or the end of its owner takes it out. -/
def keep (owner : ManagerToken) (id : EntryId) (held : Bool) : Event → Bool
  | .created manager new => held || (new != 0 && manager == owner && new == id)
  | .erased manager old confirmed => held && !(confirmed && manager == owner && old == id)
  | .destroyed manager => held && manager != owner
  | _ => held

def held (told : List Event) (owner : ManagerToken) (id : EntryId) : Bool :=
  told.foldl (keep owner id) false

/-- The past ends with the creation of a set that began when nothing was held. -/
def NewSet : List Event → Prop :=
  Since (· == .attempted) fun before e => e = .attempted ∧ ∀ owner id, held before owner id = false

/-- What may be told of the engine after the past. -/
def Accountable (past : List Event) : Event → Prop
  | .created _ _ => NewSet past
  | .erased owner id _ => held past owner id = true
  | _ => True

/-- The phases in which no update and no end of a manager is half done. -/
def at_rest : Phase → Bool
  | .idle | .cancelling | .acknowledging _ | .taking _ _ | .leaving => true
  | _ => false

/-! ## Small facts -/

section
variable {s : PairController} {told : List Event} {owner : ManagerToken} {id : EntryId} {e : Event}

theorem any_owned_iff {ids : OwnedIds} : any_owned ids = true ↔ ∃ k, ids k ≠ 0 := by
  simp [any_owned]

theorem no_ids (h : s.has_owned_ids = false) (k : View) : s.ids k = 0 := by
  by_contra hk
  have : s.has_owned_ids = true := any_owned_iff.mpr ⟨k, hk⟩
  rw [h] at this
  cases this

@[simp] theorem held_snoc : held (told ++ [e]) owner id = keep owner id (held told owner id) e := by
  simp [held, List.foldl_append]

/-- An event that is none of the engine's. -/
def Aside (e : Event) : Prop :=
  e ≠ .attempted ∧ (∀ owner id held, keep owner id held e = held) ∧ ∀ past, Accountable past e

theorem aside_requested (enabled : Bool) : Aside (.requested enabled) := ⟨nofun, fun _ _ _ => rfl, fun _ => trivial⟩

theorem aside_consumed (enabled : Bool) : Aside (.consumed enabled) := ⟨nofun, fun _ _ _ => rfl, fun _ => trivial⟩

theorem aside_cancel (answer : EmptyPairCancel) : Aside (.cancel_answered answer) :=
  ⟨nofun, fun _ _ _ => rfl, fun _ => trivial⟩

theorem NewSet.snoc (h : NewSet told) (he : e ≠ .attempted) : NewSet (told ++ [e]) := Since.snoc h (by simp [he])

end

/-! ## The books -/

/-- No two views have the same entry. -/
def Distinct (ids : OwnedIds) : Prop := ∀ j k, ids j ≠ 0 → ids j = ids k → j = k

theorem Distinct.empty : Distinct fun _ => 0 := fun _ _ hj => absurd rfl hj

variable {ids : OwnedIds}

theorem Distinct.clear (h : Distinct ids) (index : View) : Distinct (Function.update ids index 0) := by
  intro j k hj hjk
  have hj' : j ≠ index := by
    rintro rfl
    exact hj (update_self _ _ _)
  rw [update_of_ne hj'] at hj hjk
  by_cases hk : k = index
  · rw [hk, update_self] at hjk
    exact absurd hjk hj
  rw [update_of_ne hk] at hjk
  exact h j k hj hjk

theorem Distinct.fill (h : Distinct ids) {index : View} {id : EntryId}
    (hnew : ∀ k, ids k ≠ id) : Distinct (Function.update ids index id) := by
  intro j k hj hjk
  by_cases hj' : j = index <;> by_cases hk : k = index
  · rw [hj', hk]
  · rw [hj', update_self, update_of_ne hk] at hjk
    exact absurd hjk.symm (hnew k)
  · rw [hk, update_self, update_of_ne hj'] at hjk
    exact absurd hjk (hnew j)
  · rw [update_of_ne hj'] at hj
    rw [update_of_ne hj', update_of_ne hk] at hjk
    exact h j k hj hjk

/-- What was told of the engine agrees with the owner and the entries. -/
structure Books (told : List Event) (owner : ManagerToken) (ids : OwnedIds) : Prop where
  explained : Explained Accountable told
  ledger : ∀ o id, held told o id = true ↔ id ≠ 0 ∧ owner = o ∧ ∃ k, ids k = id
  distinct : Distinct ids

theorem Books.new : Books [] {} fun _ => 0 where
  explained := explained_nil
  ledger o id := by
    constructor
    · intro h; cases h
    · rintro ⟨hid, -, k, rfl⟩; exact absurd rfl hid
  distinct := .empty

section
variable {told : List Event} {owner manager : ManagerToken} {ids : OwnedIds} {index : View}
  {id : EntryId} (h : Books told owner ids)
include h

theorem Books.none_held (hids : ∀ k, ids k = 0) (o : ManagerToken) (id : EntryId) : held told o id = false := by
  rw [← Bool.not_eq_true, h.ledger]
  rintro ⟨hid, -, k, rfl⟩
  exact hid (hids k)

theorem Books.tell_aside {e : Event} (he : Aside e) : Books (told ++ [e]) owner ids where
  explained := explained_snoc h.explained (he.2.2 _)
  ledger o id := by
    rw [held_snoc, he.2.1]
    exact h.ledger o id
  distinct := h.distinct

/-- Where no entry is left, any owner will do, and a new set may begin. -/
theorem Books.forget (hids : ∀ k, ids k = 0) (other : ManagerToken) : Books told other ids where
  explained := h.explained
  ledger o id := by
    have hnone := h.none_held hids o id
    constructor
    · intro hheld
      exact absurd hheld (by simp [hnone])
    · rintro ⟨hid, -, k, rfl⟩
      exact absurd (hids k) hid
  distinct := h.distinct

theorem Books.attempt (hids : ∀ k, ids k = 0) : Books (told ++ [.attempted]) owner fun _ => 0 where
  explained := explained_snoc h.explained trivial
  ledger o id := by
    rw [held_snoc]
    have hempty : ids = fun _ => 0 := funext hids
    simpa only [keep, hempty] using h.ledger o id
  distinct := .empty

/-- An erase that was confirmed takes the entry out of the ledger and out of its place. -/
theorem Books.erase (hid : ids index ≠ 0) :
    Books (told ++ [.erased owner (ids index) true]) owner (Function.update ids index 0) where
  explained := explained_snoc h.explained ((h.ledger _ _).mpr ⟨hid, rfl, index, rfl⟩)
  ledger o id := by
    rw [held_snoc]
    simp only [keep, Bool.and_eq_true, h.ledger, Bool.not_eq_true', Bool.true_and,
      Bool.and_eq_false_iff, beq_eq_false_iff_ne]
    constructor
    · rintro ⟨⟨hne, howner, k, rfl⟩, hout⟩
      refine ⟨hne, howner, k, update_of_ne ?_ _ _⟩
      rintro rfl
      exact hout.elim (fun ho => ho howner) fun hi => hi rfl
    · rintro ⟨hne, howner, k, rfl⟩
      by_cases hk : k = index
      · rw [hk, update_self] at hne
        exact absurd rfl hne
      rw [update_of_ne hk] at hne ⊢
      refine ⟨⟨hne, howner, k, rfl⟩, .inr fun heq => hk ?_⟩
      exact (h.distinct index k hid heq).symm
  distinct := h.distinct.clear index

/-- An erase that was refused changes nothing in the accounts. -/
theorem Books.refuse (hid : ids index ≠ 0) : Books (told ++ [.erased owner (ids index) false]) owner ids where
  explained := explained_snoc h.explained ((h.ledger _ _).mpr ⟨hid, rfl, index, rfl⟩)
  ledger o id := by
    rw [held_snoc]
    simpa [keep] using h.ledger o id
  distinct := h.distinct

/-- An ID that is zero, or that the set has already, changes nothing in the accounts. -/
theorem Books.create_known (hset : NewSet told) (hknown : id = 0 ∨ owner = manager ∧ ∃ previous, ids previous = id) :
    Books (told ++ [.created manager id]) owner ids where
  explained := explained_snoc h.explained hset
  ledger o new := by
    rw [held_snoc]
    simp only [keep, Bool.or_eq_true, Bool.and_eq_true, beq_iff_eq, bne_iff_ne, h.ledger]
    constructor
    · rintro (hheld | ⟨⟨hne, howner⟩, hid⟩)
      · exact hheld
      · obtain hzero | ⟨hmanager, previous, hprevious⟩ := hknown
        · exact absurd hzero hne
        · exact ⟨hid ▸ hne, hmanager.trans howner, previous, hprevious.trans hid⟩
    · exact .inl
  distinct := h.distinct

/-- A new ID takes a free place, beside entries of the same manager. -/
theorem Books.create_new (hset : NewSet told) (hid : id ≠ 0) (hnew : ∀ k, ids k ≠ id)
    (hfree : ids index = 0) (hsame : ∀ k, ids k ≠ 0 → owner = manager) :
    Books (told ++ [.created manager id]) manager (Function.update ids index id) where
  explained := explained_snoc h.explained hset
  ledger o new := by
    rw [held_snoc]
    simp only [keep, Bool.or_eq_true, Bool.and_eq_true, beq_iff_eq, bne_iff_ne, h.ledger]
    constructor
    · rintro (⟨hne, hown, k, rfl⟩ | ⟨⟨-, hown⟩, rfl⟩)
      · refine ⟨hne, (hsame k hne).symm.trans hown, k, update_of_ne ?_ _ _⟩
        rintro rfl
        exact hne hfree
      · exact ⟨hid, hown, index, update_self _ _ _⟩
    · rintro ⟨hne, hown, k, hk⟩
      by_cases hkindex : k = index
      · rw [hkindex, update_self] at hk
        exact .inr ⟨⟨hid, hown⟩, hk⟩
      rw [update_of_ne hkindex] at hk
      exact .inl ⟨hne, (hsame k (hk ▸ hne)).trans hown, k, hk⟩
  distinct := h.distinct.fill hnew

/-- With its manager every entry is gone. -/
theorem Books.destroy : Books (told ++ [.destroyed owner]) {} fun _ => 0 where
  explained := explained_snoc h.explained trivial
  ledger o id := by
    rw [held_snoc]
    simp only [keep, Bool.and_eq_true, h.ledger, bne_iff_ne]
    constructor
    · rintro ⟨⟨-, hown, -⟩, hother⟩
      exact absurd hown hother
    · rintro ⟨hne, -, k, hk⟩
      exact absurd hk.symm hne
  distinct := .empty

end

/-! ## The invariant -/

/-- A set is being filled in order, up to a view, under one manager. -/
def Filling (s : PairController) (manager : ManagerToken) (index : View) : Prop :=
  (index ≠ 0 → s.owner = manager) ∧ (∀ k, s.ids k ≠ 0 → k < index) ∧ NewSet s.history

def Fits (s : PairController) : Phase → Prop
  | .idle | .cancelling | .acknowledging _ | .taking _ _ | .leaving =>
    s.published.owned_ids = s.ids ∧ s.published.owner = s.owner
  | .starting _ => ∀ k, s.ids k = 0
  | .preparing manager index | .creating manager index _ => s.Filling manager index
  | _ => True

structure Accounted (s : PairController) : Prop where
  books : Books s.history s.owner s.ids
  fits : s.Fits s.phase

theorem Accounted.initial : Accounted {} := ⟨.new, rfl, rfl⟩

section
variable {s : PairController} {manager : ManagerToken} {index : View} (h : s.Accounted)
include h

/-- What is told of requests leaves the accounts. -/
theorem Accounted.tell_aside {e : Event} (he : Aside e) : (s.tell e).Accounted where
  books := h.books.tell_aside he
  fits := by
    have hfits := h.fits
    show (s.tell e).Fits s.phase
    revert hfits
    cases s.phase
    case preparing manager index =>
      exact fun hf => ⟨hf.1, hf.2.1, hf.2.2.snoc he.1⟩
    case creating manager index descriptor =>
      exact fun hf => ⟨hf.1, hf.2.1, hf.2.2.snoc he.1⟩
    all_goals exact id

/-! ## Cleanup -/

theorem Accounted.end_cleanup (after : Cleanup) : (s.end_cleanup after).Accounted := by
  unfold PairController.end_cleanup
  cases hids : s.has_owned_ids with
  | true => cases after <;> exact ⟨h.books, trivial⟩
  | false =>
    have hbooks := h.books.forget (no_ids hids) {}
    cases after with
    | of_failed_creation => exact ⟨hbooks, trivial⟩
    | before_creation manager => exact ⟨hbooks, no_ids hids⟩

theorem Accounted.cleanup (left : List View) (after : Cleanup) (answer : Answer) :
    (s.cleanup left after answer).Accounted := by
  cases left with
  | nil => exact h.end_cleanup after
  | cons index rest =>
    unfold PairController.cleanup
    dsimp only
    split
    · exact ⟨h.books, trivial⟩
    rename_i hid
    split
    · exact ⟨h.books.erase hid, trivial⟩
    · exact ⟨h.books.refuse hid, trivial⟩

/-! ## Creation -/

theorem Accounted.decide_update (engine : EngineCallbacks) : (s.decide_update manager engine).Accounted := by
  unfold PairController.decide_update
  cases hids : s.has_owned_ids with
  | true =>
    simp only [Bool.not_true, Bool.false_and, Bool.false_eq_true, if_false, Bool.true_and, if_true]
    repeat' split
    all_goals exact ⟨h.books, trivial⟩
  | false =>
    simp only [Bool.not_false, Bool.true_and, Bool.false_and, Bool.false_eq_true, if_false]
    split
    · exact ⟨h.books, trivial⟩
    split
    · exact ⟨h.books, trivial⟩
    split
    · exact ⟨h.books, trivial⟩
    · exact ⟨h.books, no_ids hids⟩

theorem Accounted.start (hids : ∀ k, s.ids k = 0) : (s.start manager).Accounted := by
  unfold PairController.start
  split
  · exact ⟨h.books, trivial⟩
  refine ⟨h.books.attempt hids, fun hne => absurd rfl hne, fun k hk => absurd rfl hk, ?_⟩
  exact Since.now ⟨rfl, h.books.none_held hids⟩

theorem Accounted.prepare (hfill : s.Filling manager index) (answer : Answer) :
    (s.prepare manager index answer).Accounted := by
  have hfailed : ∀ failure, (s.creation_failed failure).Accounted := by
    intro failure
    unfold creation_failed
    split <;> exact ⟨h.books, trivial⟩
  unfold PairController.prepare
  split
  · exact hfailed _
  dsimp only
  split
  · exact hfailed _
  · exact ⟨h.books, hfill⟩

theorem Accounted.create (hfill : s.Filling manager index) (answer : Answer) :
    (s.create manager index answer).Accounted := by
  obtain ⟨howner, hids, hset⟩ := hfill
  unfold PairController.create
  dsimp only
  split
  · rename_i hzero
    have hbooks : Books (s.history ++ [.created manager answer.create]) s.owner s.ids :=
      h.books.create_known hset (.inl hzero)
    unfold creation_failed
    split <;> exact ⟨hbooks, trivial⟩
  rename_i hid
  split
  · rename_i hdup
    obtain ⟨previous, hlt, hprevious⟩ := hdup
    have hindex : index ≠ 0 := by
      rintro rfl
      exact absurd hlt (Fin.not_lt_zero _)
    have hbooks := h.books.create_known hset (.inr ⟨howner hindex, previous, hprevious⟩)
    unfold creation_failed
    split <;> exact ⟨hbooks, trivial⟩
  rename_i hnew
  have hother : ∀ k, s.ids k ≠ answer.create := by
    intro k hk
    exact hnew ⟨k, hids k (hk ▸ hid), hk⟩
  have hfree : s.ids index = 0 := by
    by_contra hk
    exact absurd (hids index hk) (lt_irrefl _)
  -- before this view, what is held is held under the same manager
  have hsame : ∀ k, s.ids k ≠ 0 → s.owner = manager := by
    intro k hk
    refine howner ?_
    rintro rfl
    exact absurd (hids k hk) (Fin.not_lt_zero _)
  have hmanager : (if index = 0 then manager else s.owner) = manager := by
    by_cases hindex : index = 0
    · rw [if_pos hindex]
    · rw [if_neg hindex, howner hindex]
  have hbooks : Books (s.history ++ [.created manager answer.create]) manager
      (Function.update s.ids index answer.create) :=
    h.books.create_new hset hid hother hfree hsame
  rw [hmanager]
  unfold advance
  split
  · refine ⟨hbooks, fun _ => rfl, ?_, hset.snoc nofun⟩
    dsimp only
    intro k hk
    by_cases hkindex : k = index
    · rw [hkindex]
      exact Nat.lt_succ_self _
    rw [update_of_ne hkindex] at hk
    exact Nat.lt_succ_of_lt (hids k hk)
  · exact ⟨hbooks, trivial⟩

/-! ## Steps -/

theorem Accounted.take (engine : EngineCallbacks) : (s.take manager engine).Accounted := by
  have hbooks := h.books
  unfold PairController.take apply
  split
  · exact ⟨hbooks.tell_aside (aside_consumed true), trivial⟩
  · exact ⟨hbooks.tell_aside (aside_consumed false), trivial⟩
  · exact ⟨hbooks, trivial⟩

theorem Accounted.cancel (hfits : s.Fits .leaving) : s.cancel.Accounted := by
  unfold PairController.cancel
  split
  · exact ⟨h.books.tell_aside (aside_cancel _), hfits⟩
  rename_i hfree
  simp only [Bool.or_eq_true, not_or, Bool.not_eq_true, bne_eq_false_iff_eq] at hfree
  refine ⟨h.books.tell_aside (aside_cancel _), ?_, hfree.2.symm⟩
  exact (funext (no_ids hfree.1)).symm

theorem Accounted.acknowledge (hfits : s.Fits .leaving) : (s.acknowledge manager).Accounted := by
  unfold PairController.acknowledge
  split
  · exact ⟨h.books, hfits⟩
  rename_i howner
  simp only [Bool.or_eq_true, not_or, Bool.not_eq_true, bne_eq_false_iff_eq] at howner
  rw [howner.2]
  exact ⟨h.books.destroy, trivial⟩

theorem Accounted.resume (answer : Answer) : (s.resume answer).Accounted := by
  have hfits := h.fits
  unfold PairController.resume
  split <;> rename_i hphase <;> rw [hphase] at hfits
  · exact h
  · exact h.cancel hfits
  · exact h.acknowledge hfits
  · exact ⟨h.books, trivial⟩
  · exact h.take _
  · exact h.decide_update _
  · exact h.cleanup _ _ _
  · exact h.start hfits
  · exact h.prepare hfits _
  · exact h.create hfits _
  · exact ⟨h.books, rfl, rfl⟩
  · exact ⟨h.books, hfits⟩

/-- Where no call is under way, what is published is exact. -/
theorem Accounted.shown (hidle : s.processing = false) : s.Fits .leaving := by
  have hfits := h.fits
  unfold processing at hidle
  split at hidle
  · rename_i hphase
    rw [hphase] at hfits
    exact hfits
  · cases hidle

theorem Accounted.step (call : Call) : (PairController.step s call).Accounted := by
  cases call with
  | request_enable keys =>
    refine tell_aside ?_ (aside_requested true)
    exact ⟨h.books, h.fits⟩
  | request_independent_pose feeds =>
    refine tell_aside ?_ (aside_requested true)
    exact ⟨h.books, h.fits⟩
  | request_disable =>
    refine tell_aside ?_ (aside_requested false)
    exact ⟨h.books, h.fits⟩
  | cancel_uncreated_request =>
    show (cancel_uncreated_request s).Accounted
    unfold cancel_uncreated_request
    cases hidle : s.processing with
    | true => exact h.tell_aside (aside_cancel _)
    | false => exact ⟨h.books, h.shown hidle⟩
  | process_update manager engine =>
    show (process_update s manager engine).Accounted
    unfold process_update
    cases hidle : s.processing with
    | true => exact h
    | false => exact ⟨h.books, h.shown hidle⟩
  | acknowledge_manager_destroyed manager =>
    show (acknowledge_manager_destroyed s manager).Accounted
    unfold acknowledge_manager_destroyed
    cases hidle : s.processing with
    | true => exact h
    | false => exact ⟨h.books, h.shown hidle⟩
  | resume answer => exact h.resume answer

end

/-! ## The law -/

/-- In every run: the entries that create returned and that were not erased since, their owner
alive, are the ones in `ids` under their owner; an erase is called for these alone; a create is
called in a set that began with none of them; and between two updates the published snapshot shows
them. -/
theorem no_entry_is_lost_or_erased_twice (calls : List Call) :
    let s := run PairController.step {} calls
    Explained Accountable s.history ∧
      (∀ owner id, held s.history owner id = true ↔ id ≠ 0 ∧ s.owner = owner ∧ ∃ k, s.ids k = id) ∧
      (at_rest s.phase = true → s.snapshot.owned_ids = s.ids ∧ s.snapshot.owner = s.owner) := by
  intro s
  have h : s.Accounted := invariant (fun (s : PairController) call h => h.step call) calls .initial
  refine ⟨h.books.explained, h.books.ledger, fun hrest => ?_⟩
  have hfits := h.fits
  revert hrest hfits
  cases s.phase
  case idle | cancelling | acknowledging | taking | leaving => exact fun _ hfits => hfits
  all_goals exact nofun

end PairController

end taxi_camera.engine_camera
