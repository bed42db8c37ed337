-- When no message is lost. The reader keeps one last serial, so an event that a
-- snapshot misses below a newer one is gone; calls that share a slot also mix
-- up their events. Without gaps and shared slots all is delivered.
import TaxiCam.MessageDelivery

namespace taxi_camera.sim_messages.SimEventLog

open List

variable {s s' : SimEventLog}

/-! ## A snapshot and one event -/

/-- A newer call has reserved the slot of the serial. -/
def Replaced (s : SimEventLog) (serial : Nat) : Prop :=
  ∃ d ∈ s.calls, slot_of d.serial = slot_of serial ∧ serial < d.serial

/-- The snapshot under way has copied the serial, or has not passed its slot yet. -/
def Covers (serial : Nat) : Snapshot → Prop
  | .idle => False
  | .load_serial out => (slot_of serial).val < out.length → ∃ e ∈ out, e.serial = serial
  | .load_posted out before | .load_event out before _ | .load_again out before _ _ =>
    ((slot_of serial).val < out.length → ∃ e ∈ out, e.serial = serial) ∧
      ((slot_of serial).val = out.length → before = serial)

variable {c : Call} {log : List NotificationSlot} {ops : List Op} {capacity now_ms serial : Nat}

theorem Replaced.later (h : Replaced s serial) (hl : Later s s') : Replaced s' serial := by
  obtain ⟨d, hd, hslot, hlt⟩ := h
  obtain ⟨e, he, heq, -⟩ := hl.calls d hd
  exact ⟨e, he, heq ▸ hslot, heq ▸ hlt⟩

/-- The slot of a call that returned holds it until a newer one reserves. -/
theorem Log.holds (h : Log s) (hc : c ∈ s.calls) (hreturned : c.stage = .returned)
    (hnot : ¬Replaced s c.serial) : (s.slots (slot_of c.serial)).serial = c.serial :=
  h.newest c hc hreturned fun d hd hslot hlt => absurd ⟨d, hd, hslot, hlt⟩ hnot

theorem slot_of_val {n : Nat} (h : (slot_of serial).val = n) : slot_of n = slot_of serial := by
  have hlt := (slot_of serial).isLt
  refine Fin.ext ?_
  rw [h] at hlt ⊢
  exact Nat.mod_eq_of_lt hlt

theorem covers_load (h : Log s) (hc : c ∈ s.calls) (hreturned : c.stage = .returned)
    (hnot : ¬Replaced s c.serial) (hcovers : Covers c.serial s.snapshot) :
    Covers c.serial s.load.snapshot := by
  have hholds := h.holds hc hreturned hnot
  have h0 := (h.serial_le hc).1
  unfold load
  cases hsnap : s.snapshot with
  | idle =>
    rw [hsnap] at hcovers
    exact hcovers.elim
  | load_serial out =>
    rw [hsnap] at hcovers
    dsimp only
    split
    · rw [hsnap]
      exact hcovers
    refine ⟨hcovers, fun hval => ?_⟩
    rw [slot_of_val hval]
    exact hholds
  | load_posted out before =>
    rw [hsnap] at hcovers
    exact hcovers
  | load_event out before posted_ms =>
    rw [hsnap] at hcovers
    exact hcovers
  | load_again out before posted_ms event =>
    rw [hsnap] at hcovers
    intro hlt
    rw [length_append, length_singleton] at hlt
    rcases Nat.lt_or_eq_of_le (Nat.le_of_lt_succ hlt) with hold | hval
    · obtain ⟨e, he, heq⟩ := hcovers.1 hold
      exact ⟨e, mem_append_left _ he, heq⟩
    refine ⟨_, mem_append_right _ (mem_singleton.mpr rfl), ?_⟩
    have hbefore := hcovers.2 hval
    rw [if_pos ⟨by omega, by rw [slot_of_val hval, hholds, hbefore]⟩]
    exact hbefore

/-- One step of a snapshot that is not taken. -/
theorem step_covers {op : Op} (h : Log s) (hop : s.Orderly op)
    (htake : ∀ now_ms capacity, op ≠ .take now_ms capacity) (hc : c ∈ s.calls)
    (hreturned : c.stage = .returned)
    (hcovers : Replaced s c.serial ∨ Covers c.serial s.snapshot) :
    Replaced (step s op) c.serial ∨ Covers c.serial (step s op).snapshot := by
  have hlater := (step_log s op h hop).2
  by_cases hreplaced : Replaced s c.serial
  · exact .inl (hreplaced.later hlater)
  refine .inr ?_
  have hcovers := hcovers.resolve_left hreplaced
  cases op with
  | publish event now_ms =>
    show Covers c.serial (s.reserve event now_ms).snapshot
    unfold reserve
    split <;> exact hcovers
  | store j =>
    show Covers c.serial (s.store j).snapshot
    unfold store
    split <;> exact hcovers
  | begin_snapshot =>
    show Covers c.serial s.begin_snapshot.snapshot
    unfold begin_snapshot
    split
    · rename_i hidle
      rw [hidle] at hcovers
      exact hcovers.elim
    · exact hcovers
  | load => exact covers_load h hc hreturned hreplaced hcovers
  | take now_ms capacity => exact absurd rfl (htake now_ms capacity)

theorem run_covers (ops : List Op) (h : Kept s)
    (hg : runs.Guarded step (fun s op => s.Polled op ∧ s.Orderly op) s ops)
    (htake : ∀ now_ms capacity, .take now_ms capacity ∉ ops) (hc : c ∈ s.calls)
    (hreturned : c.stage = .returned)
    (hcovers : Replaced s c.serial ∨ Covers c.serial s.snapshot) :
    Replaced (runs.run step s ops) c.serial ∨ Covers c.serial (runs.run step s ops).snapshot := by
  induction ops generalizing s with
  | nil => exact hcovers
  | cons op rest ih =>
    have hnot : ∀ now_ms capacity, op ≠ .take now_ms capacity := by
      rintro now_ms capacity rfl
      exact htake now_ms capacity mem_cons_self
    have hlater := (step_log s op h.log hg.1.2).2
    obtain ⟨d, hd, -, -, -, hsame⟩ := hlater.calls c hc
    refine ih (step_kept s op h hg.1) hg.2 (fun now_ms capacity hmem => ?_) (hsame hreturned ▸ hd)
      (step_covers h.log hg.1.2 hnot hc hreturned hcovers)
    exact htake now_ms capacity (mem_cons_of_mem _ hmem)

/-- A copied log stays until it is taken, and the reader waits for it. -/
theorem run_waits (ops : List Op)
    (htake : ∀ now_ms capacity, .take now_ms capacity ∉ ops) (hlog : s.copied = some log) :
    (runs.run step s ops).copied = some log ∧ (runs.run step s ops).events = s.events ∧
      (runs.run step s ops).last_serial = s.last_serial := by
  induction ops generalizing s with
  | nil => exact ⟨hlog, rfl, rfl⟩
  | cons op rest ih =>
    have hsnap := copied_some hlog
    have hcopied : (step s op).copied = some log := by
      have hsame {t : SimEventLog} (ht : t.snapshot = s.snapshot) : t.copied = some log := by
        unfold copied at hlog ⊢
        rw [ht]
        exact hlog
      refine hsame ?_
      cases op with
      | publish event now_ms =>
        show (s.reserve event now_ms).snapshot = _
        unfold reserve
        split <;> rfl
      | store j =>
        show (s.store j).snapshot = _
        unfold store
        split <;> rfl
      | begin_snapshot =>
        show s.begin_snapshot.snapshot = _
        unfold begin_snapshot
        rw [hsnap.1]
        exact hsnap.1
      | load =>
        show s.load.snapshot = _
        unfold load
        rw [hsnap.1]
        dsimp only
        rw [if_pos hsnap.2]
        exact hsnap.1
      | take now_ms capacity => exact absurd mem_cons_self (htake now_ms capacity)
    obtain ⟨hlog', hevents, hlast⟩ := ih (s := step s op)
      (fun now_ms capacity hmem => htake now_ms capacity (mem_cons_of_mem _ hmem)) hcopied
    rcases step_reader s op with ⟨he, hl⟩ | ⟨now_ms, capacity, -, rfl, -⟩
    · exact ⟨hlog', hevents.trans he, hlast.trans hl⟩
    · exact absurd mem_cons_self (htake now_ms capacity)

/-! ## The law -/

theorem run_kept (h : Kept s) (hg : runs.Guarded step (fun s op => s.Polled op ∧ s.Orderly op) s ops) :
    Kept (runs.run step s ops) :=
  runs.guarded_invariant (fun s op hk hop => step_kept s op hk hop) ops h hg

/-- A call that returned before a snapshot is in the log that the snapshot copies, unless it is
replaced. -/
theorem copied_or_replaced {start : SimEventLog} {mid : List Op} (h : Kept start) (hidle : start.snapshot = .idle)
    (hg : runs.Guarded step (fun s op => s.Polled op ∧ s.Orderly op) start (.begin_snapshot :: mid))
    (htake : ∀ now_ms capacity, .take now_ms capacity ∉ mid)
    (hlog : (runs.run step start (.begin_snapshot :: mid)).copied = some log) (hc : c ∈ start.calls) (hreturned : c.stage = .returned) :
    Replaced (runs.run step start (.begin_snapshot :: mid)) c.serial ∨ ∃ e ∈ log, e.serial = c.serial := by
  have hbegun := step_kept start .begin_snapshot h hg.1
  have hcalls := (begin_snapshot_reads start).calls
  have hsnap : (step start .begin_snapshot).snapshot = .load_serial [] := by
    show start.begin_snapshot.snapshot = _
    unfold begin_snapshot
    rw [hidle]
  have hcovers := run_covers mid hbegun hg.2 htake (c := c) (by
      show c ∈ start.begin_snapshot.calls
      rw [hcalls]
      exact hc) hreturned (.inr (by
      rw [hsnap]
      exact fun hlt => absurd hlt (Nat.not_lt_zero _)))
  rw [runs.run_cons] at hlog ⊢
  refine hcovers.imp id fun hcovers => ?_
  obtain ⟨hfinished, hlength⟩ := copied_some hlog
  rw [hfinished] at hcovers
  refine hcovers ?_
  rw [hlength]
  exact (slot_of c.serial).isLt

/-- A serial of a copied log is delivered when the log is taken. -/
theorem taken_delivers (h : Kept s) (hpolled : s.Polled (.take now_ms capacity)) (hlog : s.copied = some log)
    (hmem : ∃ e ∈ log, e.serial = serial) (hnew : s.last_serial < serial) :
    ∃ e ∈ (s.take now_ms capacity).events, e.serial = serial := by
  obtain ⟨slot, hslot, rfl⟩ := hmem
  have hall := NotificationReader.take_all s.last_serial (h.fresh hlog hpolled)
    ((copied_some hlog).2.le.trans (hpolled log hlog).1)
  obtain ⟨e, he, heq⟩ := hall slot hslot hnew
  rw [take_copied hlog]
  exact ⟨e, mem_append_right _ he, heq⟩

theorem take_keeps_events (h : ∃ e ∈ s.events, e.serial = serial) :
    ∃ e ∈ (s.take now_ms capacity).events, e.serial = serial := by
  obtain ⟨e, he, heq⟩ := h
  unfold take
  split
  · exact ⟨e, he, heq⟩
  · exact ⟨e, mem_append_left _ he, heq⟩

theorem nothing_lost (hg : runs.Guarded step (fun s op => s.Polled op ∧ s.Orderly op) {} ops) : NothingLost ops := by
  rintro pre mid after now_ms capacity rfl hidle htake hcopied c hc hreturned hnewest
  rw [runs.guarded_append] at hg
  obtain ⟨hpre, hbegin, hrest⟩ := hg
  rw [runs.guarded_append, runs.guarded_append] at hrest
  obtain ⟨⟨hmid, hafter⟩, htaken, -⟩ := hrest
  have htakes {now_ms capacity : Nat} {part : List Op} (hpart : part ⊆ mid ++ after) :
      .take now_ms capacity ∉ part := fun hmem => htake now_ms capacity (hpart hmem)
  have hstart := run_kept kept_initial hpre
  rw [runs.run_append] at hcopied hnewest ⊢
  generalize runs.run step {} pre = start at *
  obtain ⟨log, hlog⟩ := Option.isSome_iff_exists.mp hcopied
  have hended : Kept (runs.run step start (.begin_snapshot :: mid)) := run_kept hstart ⟨hbegin, hmid⟩
  have hcovered := copied_or_replaced hstart hidle ⟨hbegin, hmid⟩
    (fun _ _ => htakes (subset_append_left _ _)) hlog hc hreturned
  rw [runs.run_cons, runs.run_append, runs.run_append] at *
  generalize runs.run step (step start .begin_snapshot) mid = ended at *
  have hwaiting := run_kept hended hafter
  obtain ⟨hlog', hevents, hlast⟩ := run_waits after (fun _ _ => htakes (subset_append_right _ _)) hlog
  generalize runs.run step ended after = waiting at *
  have hmem : ∃ e ∈ log, e.serial = c.serial := by
    refine hcovered.resolve_left ?_
    rintro ⟨d, hd, hslot, hlt⟩
    exact absurd (hnewest d hd hslot) (Nat.not_le.mpr hlt)
  rw [runs.run_cons, runs.run_nil]
  rcases Nat.lt_or_ge ended.last_serial c.serial with hnew | hold
  · exact taken_delivers hwaiting htaken.1 hlog' hmem (hlast ▸ hnew)
  have h0 := (hstart.log.serial_le hc).1
  rcases hended.passed c.serial h0 hold with hdelivered | hreserved
  · rw [← hevents] at hdelivered
    exact take_keeps_events hdelivered
  -- The reader passed the serial for a newer event of its slot, but there is none.
  obtain ⟨d, hd, hserial⟩ := hended.log.call_of_serial (by omega) hreserved
  have hslot : slot_of d.serial = slot_of c.serial := by
    rw [hserial]
    exact Fin.ext (Nat.add_mod_right c.serial NotificationSlots)
  have hle := hnewest d hd hslot
  have : 0 < NotificationSlots := by decide
  omega

/-- In a run whose polls have room and are in time no event is delivered twice. When no two calls
share a slot and no taken snapshot has a gap, none is lost either and every kind is its own. -/
theorem orderly_messages_are_delivered_once (ops : List Op) (hpolled : runs.Guarded step Polled {} ops) :
    NothingTwice (runs.run step {} ops) ∧ (runs.Guarded step Orderly {} ops →
      NothingLost ops ∧ KindsGiven (runs.run step {} ops)) := by
  refine ⟨nothing_twice ops, fun horderly => ?_⟩
  have hg := (runs.guarded_and ops).mpr ⟨hpolled, horderly⟩
  exact ⟨nothing_lost hg, (run_kept kept_initial hg).kinds⟩

/-- A snapshot, and the poll that takes it. -/
def poll : List Op := .begin_snapshot :: (List.replicate 64 .load ++ [] ++ [.take 1000 16])

/-- A call is overtaken by a newer one, and delivered at the next poll. -/
def late_publish : List Op :=
  .publish .cameras_ready 1000 :: List.replicate 4 (.store 0) ++ poll ++
    [.publish .hook_storm 1000, .store 1] ++ poll ++ List.replicate 3 (.store 1) ++ poll

theorem late_publish_is_delivered_once :
    NothingTwice (runs.run step {} late_publish) ∧
      NothingLost late_publish ∧ KindsGiven (runs.run step {} late_publish) := by
  have hlaw := orderly_messages_are_delivered_once late_publish (by decide +kernel)
  exact ⟨hlaw.1, hlaw.2 (by decide +kernel)⟩

/-- The second publisher is done first: the poll between the two passes over the first event. -/
def overtaken_publish : List Op :=
  [.publish .cameras_ready 1000, .publish .hook_storm 1000] ++ List.replicate 4 (.store 1) ++ poll ++
    List.replicate 4 (.store 0)

/-- Two publishers fill one slot, sixteen serials apart. -/
def shared_slot : List Op :=
  .publish .cameras_ready 1000 :: List.replicate 16 (.publish .hook_storm 1000) ++
    List.replicate 3 (.store 0) ++ List.replicate 3 (.store 16) ++ [.store 0] ++ poll

theorem overtaken_publish_is_lost :
    (runs.Guarded step Polled {} (overtaken_publish ++ poll) ∧ ¬NothingLost (overtaken_publish ++ poll)) ∧
    runs.Guarded step Polled {} shared_slot ∧ ¬KindsGiven (runs.run step {} shared_slot) := by
  refine ⟨⟨by decide +kernel, fun h => ?_⟩, by decide +kernel, fun h => ?_⟩
  · have hlost := h overtaken_publish (replicate 64 .load) [] 1000 16 rfl (by decide +kernel)
      (by simp) (by decide +kernel)
      { serial := 1, event := .cameras_ready, now_ms := 1000, stage := .returned }
      (by decide +kernel) rfl (by decide +kernel)
    exact absurd hlost (by decide +kernel)
  · have hkind := h { serial := 1, posted_ms := 1000, event := 10 } (by decide +kernel)
    exact absurd hkind (by decide +kernel)

end taxi_camera.sim_messages.SimEventLog
