-- Trees of files, changed by one operation after another: what a run of
-- operations leaves, and what holds wherever it is stopped.
import Mathlib.Data.List.AList
import Mathlib.Data.List.Infix

namespace file_tree

open List

variable {ν : Type} [DecidableEq ν]

/-! ## Trees and operations -/

inductive Node
  | dir
  | file (data : List UInt8) (date : Nat)
deriving DecidableEq

/-- A path is the names on it, from the root. -/
abbrev Disk (ν : Type) := AList fun _ : List ν => Node

/-- One operation that a program may be stopped before or after. -/
inductive Op (ν : Type)
  | make_dir (path : List ν)
  | truncate (path : List ν) (date : Nat)
  | write (path : List ν) (data : List UInt8) (date : Nat)
  | delete (path : List ν)
deriving DecidableEq

def Op.path : Op ν → List ν
  | .make_dir path | .truncate path _ | .write path _ _ | .delete path => path

/-- `write` is on a file that was just truncated. -/
def apply (t : Disk ν) : Op ν → Disk ν
  | .make_dir path => t.insert path .dir
  | .truncate path date => t.insert path (.file [] date)
  | .write path data date => t.insert path (.file data date)
  | .delete path => t.erase path

def run (t : Disk ν) (ops : List (Op ν)) : Disk ν := ops.foldl apply t

def has (t : Disk ν) (path : List ν) : Bool := (t.lookup path).isSome

/-- A file's data and date. -/
def file_at (t : Disk ν) (path : List ν) : Option (List UInt8 × Nat) :=
  match t.lookup path with
  | some (.file data date) => some (data, date)
  | _ => none

def read_file (t : Disk ν) (path : List ν) : Option (List UInt8) := (file_at t path).map Prod.fst

def file_time (t : Disk ν) (path : List ν) : Nat := ((file_at t path).map Prod.snd).getD 0

section
variable {t : Disk ν} {p q : List ν}

theorem run_append (t : Disk ν) (a b : List (Op ν)) : run t (a ++ b) = run (run t a) b := foldl_append

theorem lookup_apply_of_ne {op : Op ν} (h : op.path ≠ q) : (apply t op).lookup q = t.lookup q := by
  cases op with
  | delete path => exact AList.lookup_erase_ne (Ne.symm h)
  | make_dir path => exact AList.lookup_insert_ne (Ne.symm h)
  | truncate path date => exact AList.lookup_insert_ne (Ne.symm h)
  | write path data date => exact AList.lookup_insert_ne (Ne.symm h)

theorem lookup_run_of_ne {ops : List (Op ν)} (h : ∀ op ∈ ops, op.path ≠ q) : (run t ops).lookup q = t.lookup q := by
  induction ops generalizing t with
  | nil => rfl
  | cons op ops ih =>
    have hrest := ih (t := apply t op) fun x hx => h x (mem_cons_of_mem _ hx)
    exact hrest.trans (lookup_apply_of_ne (h op mem_cons_self))

variable {t' : Disk ν} {root : List ν}

/-- What is looked up at a path decides what file is there. -/
theorem file_at_congr (h : t'.lookup q = t.lookup q) : file_at t' q = file_at t q := by
  unfold file_at
  rw [h]

theorem has_congr (h : t'.lookup q = t.lookup q) : has t' q = has t q := by
  unfold has
  rw [h]

theorem has_of_file_at {f : List UInt8 × Nat} (h : file_at t q = some f) : has t q = true := by
  unfold has
  unfold file_at at h
  split at h
  · rename_i hl
    rw [hl]
    rfl
  · cases h

theorem file_at_of_not_has (h : has t q = false) : file_at t q = none := by
  cases hf : file_at t q with
  | none => rfl
  | some f => rw [has_of_file_at hf] at h; cases h

/-! ## Deleting -/

theorem lookup_deletes (t : Disk ν) (l : List (List ν)) (q : List ν) :
    (run t (l.map .delete)).lookup q = if q ∈ l then none else t.lookup q := by
  induction l generalizing t with
  | nil => rfl
  | cons p l ih =>
    have hstep : (run t ((p :: l).map .delete)).lookup q =
        if q ∈ l then none else (apply t (.delete p)).lookup q := ih (apply t (.delete p))
    rw [hstep]
    by_cases hq : q = p
    · subst hq
      have hgone : (apply t (.delete q)).lookup q = none := AList.lookup_erase q t
      rw [hgone, ite_self, if_pos mem_cons_self]
    rw [lookup_apply_of_ne fun h => hq h.symm]
    simp only [mem_cons, hq, false_or]

/-- The order in which a folder is emptied: what is in a folder goes before the folder. -/
structure Order (ν : Type) where
  arrange : List (List ν) → List (List ν)
  perm : ∀ l, (arrange l).Perm l
  bottom_up : ∀ l, l.Nodup → (arrange l).Pairwise fun a b => ¬a <+: b

/-- A folder and everything in it. -/
def under (t : Disk ν) (root : List ν) : List (List ν) := t.keys.filter fun p => root.isPrefixOf p

def remove_all (order : Order ν) (t : Disk ν) (root : List ν) : List (Op ν) :=
  (order.arrange (under t root)).map .delete

theorem mem_under : q ∈ under t root ↔ has t q = true ∧ root <+: q := by
  unfold under has
  rw [mem_filter, ← AList.mem_keys, ← AList.lookup_isSome, isPrefixOf_iff_prefix]

theorem lookup_remove_all (order : Order ν) (t : Disk ν) (root q : List ν) :
    (run t (remove_all order t root)).lookup q = if root <+: q then none else t.lookup q := by
  unfold remove_all
  rw [lookup_deletes]
  simp only [(order.perm _).mem_iff, mem_under]
  by_cases hq : root <+: q
  · split
    · rfl
    rename_i hnot
    unfold has at hnot
    simpa [hq] using hnot
  · rw [if_neg hq, if_neg fun h => hq h.2]

/-- Nothing stands in the folder without the folder. -/
def Rooted (t : Disk ν) (root : List ν) : Prop := ∀ q, root <+: q → has t q = true → has t root = true

/-- Wherever emptying a folder stops, the folder is still there, or nothing in it is. -/
theorem remove_all_stopped (order : Order ν) (t : Disk ν) (root : List ν) (k : Nat) :
    (run t ((remove_all order t root).take k)).lookup root = t.lookup root ∨
      ∀ q, root <+: q → (run t ((remove_all order t root).take k)).lookup q = none := by
  have htake : (remove_all order t root).take k = ((order.arrange (under t root)).take k).map .delete := by
    exact map_take.symm
  rw [htake]
  simp only [lookup_deletes]
  by_cases hroot : root ∈ (order.arrange (under t root)).take k
  · -- the folder itself goes last
    right
    intro q hq
    split
    · rfl
    rename_i hnot
    have hnodup : (under t root).Nodup := t.keys_nodup.filter _
    have horder := order.bottom_up _ hnodup
    rw [← take_append_drop k (order.arrange (under t root)), pairwise_append] at horder
    cases hl : t.lookup q with
    | none => rfl
    | some node =>
      exfalso
      have hin : q ∈ under t root := mem_under.mpr ⟨by rw [has, hl]; rfl, hq⟩
      have hall := (order.perm (under t root)).mem_iff.mpr hin
      rw [← take_append_drop k (order.arrange (under t root)), mem_append] at hall
      rcases hall with h | h
      · exact hnot h
      · exact horder.2.2 root hroot q h hq
  left
  rw [if_neg hroot]

theorem rooted_of_has (h : has t root = true) : Rooted t root := fun _ _ _ => h

theorem rooted_congr (hr : Rooted t root) (h : ∀ q, root <+: q → t'.lookup q = t.lookup q) : Rooted t' root := by
  intro q hq hhas
  rw [has_congr (h q hq)] at hhas
  rw [has_congr (h root prefix_rfl)]
  exact hr q hq hhas

/-- Wherever emptying a folder stops, every path is as it was, or gone. -/
theorem lookup_remove_all_stopped (order : Order ν) (t : Disk ν) (root : List ν) (k : Nat) (q : List ν) :
    (run t ((remove_all order t root).take k)).lookup q = t.lookup q ∨
      (root <+: q ∧ (run t ((remove_all order t root).take k)).lookup q = none) := by
  unfold remove_all
  rw [← map_take, lookup_deletes]
  split
  · rename_i hq
    have hin := (order.perm (under t root)).mem_iff.mp (mem_of_mem_take hq)
    exact .inr ⟨(mem_under.mp hin).2, rfl⟩
  · exact .inl rfl

theorem rooted_remove_all_stopped (order : Order ν) (h : Rooted t root) (k : Nat) :
    Rooted (run t ((remove_all order t root).take k)) root := by
  intro q hq hhas
  rcases remove_all_stopped order t root k with hroot | hgone
  · rw [has_congr hroot]
    apply h q hq
    rcases lookup_remove_all_stopped order t root k q with hsame | ⟨_, hnone⟩
    · rwa [has_congr hsame] at hhas
    rw [has, hnone] at hhas
    cases hhas
  rw [has, hgone q hq] at hhas
  cases hhas

/-! ## Making folders, writing files -/

def make_dirs (t : Disk ν) (paths : List (List ν)) : List (Op ν) :=
  (paths.filter fun p => !has t p).map .make_dir

/-- Opened for writing from the start, then written. -/
def write_file (path : List ν) (data : List UInt8) (date : Nat) : List (Op ν) :=
  [.truncate path date, .write path data date]

theorem lookup_make_dirs (t : Disk ν) (paths : List (List ν)) (q : List ν) :
    (run t (paths.map .make_dir)).lookup q = if q ∈ paths then some .dir else t.lookup q := by
  induction paths generalizing t with
  | nil => rfl
  | cons p paths ih =>
    have hstep : (run t ((p :: paths).map .make_dir)).lookup q =
        if q ∈ paths then some .dir else (apply t (.make_dir p)).lookup q := ih (apply t (.make_dir p))
    rw [hstep]
    by_cases hq : q = p
    · subst hq
      have hmade : (apply t (.make_dir q)).lookup q = some .dir := AList.lookup_insert t
      rw [hmade, ite_self, if_pos mem_cons_self]
    rw [lookup_apply_of_ne fun h => hq h.symm]
    simp only [mem_cons, hq, false_or]

theorem lookup_write_file (t : Disk ν) (p : List ν) (data : List UInt8) (date : Nat) (q : List ν) :
    (run t (write_file p data date)).lookup q = if q = p then some (.file data date) else t.lookup q := by
  by_cases hq : q = p
  · subst hq
    rw [if_pos rfl]
    exact AList.lookup_insert _
  rw [if_neg hq]
  apply lookup_run_of_ne
  intro op hop
  simp only [write_file, mem_cons, not_mem_nil, or_false] at hop
  rcases hop with rfl | rfl
  · exact fun h => hq h.symm
  · exact fun h => hq h.symm

/-- Files written one after another, each of them once. -/
theorem lookup_write_files (t : Disk ν) (clock : List ν → Nat) {files : List (List ν × List UInt8)}
    (hnodup : (files.map Prod.fst).Nodup) (q : List ν) :
    (q ∉ files.map Prod.fst → (run t (files.flatMap fun f => write_file f.1 f.2 (clock f.1))).lookup q = t.lookup q) ∧
    ∀ f ∈ files, f.1 = q →
      (run t (files.flatMap fun f => write_file f.1 f.2 (clock f.1))).lookup q = some (.file f.2 (clock q)) := by
  induction files generalizing t with
  | nil => exact ⟨fun _ => rfl, fun f hf => absurd hf not_mem_nil⟩
  | cons g files ih =>
    rw [map_cons, nodup_cons] at hnodup
    obtain ⟨hother, hown⟩ := ih (run t (write_file g.1 g.2 (clock g.1))) hnodup.2
    rw [flatMap_cons, run_append]
    constructor
    · intro hq
      rw [map_cons, mem_cons, not_or] at hq
      rw [hother hq.2, lookup_write_file, if_neg hq.1]
    · intro f hf hfq
      rcases mem_cons.mp hf with rfl | hf
      · subst hfq
        rw [hother hnodup.1, lookup_write_file, if_pos rfl]
      · exact hown f hf hfq

end

/-! ## Stops -/

/-- Wherever the run stops. -/
def Throughout (I : Disk ν → Prop) (t : Disk ν) (ops : List (Op ν)) : Prop :=
  ∀ k, I (run t (ops.take k))

section
variable {I : Disk ν → Prop} {t : Disk ν}
variable {ops : List (Op ν)}

theorem Throughout.last (h : Throughout I t ops) : I (run t ops) := by
  have hk := h ops.length
  rwa [take_length] at hk

theorem throughout_nil (h : I t) : Throughout I t [] := by
  intro k
  rw [take_nil]
  exact h

theorem Throughout.append {a b : List (Op ν)} (ha : Throughout I t a)
    (hb : Throughout I (run t a) b) : Throughout I t (a ++ b) := by
  intro k
  rw [take_append, run_append]
  rcases Nat.le_total k a.length with hk | hk
  · rw [Nat.sub_eq_zero_of_le hk, take_zero]
    exact ha k
  rw [take_of_length_le hk]
  exact hb (k - a.length)

theorem throughout_cons {op : Op ν} (h : I t)
    (hrest : Throughout I (apply t op) ops) : Throughout I t (op :: ops) := by
  intro k
  cases k with
  | zero => exact h
  | succ k => exact hrest k

/-- Operations that each keep what holds. -/
theorem throughout_of_steps (h : I t) (hstep : ∀ t op, op ∈ ops → I t → I (apply t op)) : Throughout I t ops := by
  induction ops generalizing t with
  | nil => exact throughout_nil h
  | cons op ops ih =>
    refine throughout_cons h (ih (hstep t op mem_cons_self h) ?_)
    exact fun t x hx => hstep t x (mem_cons_of_mem _ hx)

end

end file_tree
