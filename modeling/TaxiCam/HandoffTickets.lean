-- Capture tickets: which ticket a history leaves to be published, that any
-- other one is inert, and what a refusal of that one revokes.
import TaxiCam.HandoffIdentity

namespace taxi_camera.scene.SceneHandoff

open List

variable {s s' : SceneHandoff}

/-! ## Tickets of a history -/

/-- A capture of the run was begun with the ticket. -/
inductive Issued : List Op → SceneCaptureTicket → Prop
  | now (ops : List Op) : Issued (ops ++ [.begin_capture]) (runs.run step {} ops).begin_capture.2
  | before {ops ticket} (op : Op) (h : Issued ops ticket) : Issued (ops ++ [op]) ticket

/-- The calls after which the ticket of the latest capture is not published any more: another
capture, scene changes, registrations, and its publication. -/
def Spends (s : SceneHandoff) : Op → Prop
  | .begin_capture | .begin_scene | .stop_scene => True
  | .publish ticket manager ids handles => (s.publish ticket manager ids handles).2 = true
  | op => op.target.isSome = true

/-- The ticket is the one of the latest capture, and no call since has spent it. -/
inductive Live : List Op → SceneCaptureTicket → Prop
  | issued (ops : List Op) : Live (ops ++ [.begin_capture]) (runs.run step {} ops).begin_capture.2
  | kept {ops ticket op} (h : Live ops ticket) (hop : ¬Spends (runs.run step {} ops) op) :
      Live (ops ++ [op]) ticket

variable {ops : List Op} {op : Op} {ticket : SceneCaptureTicket}

theorem issued_nil : ¬Issued [] ticket := by
  generalize hops : ([] : List Op) = ops
  intro h
  cases h with
  | now | before => simp at hops

theorem issued_snoc (h : Issued (ops ++ [op]) ticket) :
    op = .begin_capture ∧ ticket = (runs.run step {} ops).begin_capture.2 ∨ Issued ops ticket := by
  generalize hall : ops ++ [op] = all at h
  cases h with
  | now before =>
    obtain ⟨rfl, hop⟩ := append_inj' hall rfl
    exact .inl ⟨head_eq_of_cons_eq hop, rfl⟩
  | before last h =>
    obtain ⟨rfl, -⟩ := append_inj' hall rfl
    exact .inr h

theorem live_snoc (h : Live (ops ++ [op]) ticket) :
    op = .begin_capture ∧ ticket = (runs.run step {} ops).begin_capture.2 ∨
      Live ops ticket ∧ ¬Spends (runs.run step {} ops) op := by
  generalize hall : ops ++ [op] = all at h
  cases h with
  | issued before =>
    obtain ⟨rfl, hop⟩ := append_inj' hall rfl
    exact .inl ⟨head_eq_of_cons_eq hop, rfl⟩
  | kept h hop =>
    obtain ⟨rfl, hlast⟩ := append_inj' hall rfl
    obtain rfl := head_eq_of_cons_eq hlast
    exact .inr ⟨h, hop⟩

/-! ## Expired tickets -/

/-- A counter has passed the ticket. -/
def Expired (ticket : SceneCaptureTicket) (s : SceneHandoff) : Prop :=
  s.exhausted = true ∨ ticket.scene_epoch < s.scene_epoch ∨
    ticket.lifecycle_epoch < s.lifecycle_epoch ∨ ticket.sequence < s.capture_sequence

/-- No counter is behind the ticket. -/
def Reached (ticket : SceneCaptureTicket) (s : SceneHandoff) : Prop :=
  ticket.scene_epoch ≤ s.scene_epoch ∧ ticket.lifecycle_epoch ≤ s.lifecycle_epoch ∧
    ticket.sequence ≤ s.capture_sequence

theorem Reached.later (h : Reached ticket s) (he : Evolves s s') : Reached ticket s' :=
  ⟨h.1.trans (he.counters _), h.2.1.trans (he.counters _), h.2.2.trans (he.counters _)⟩

theorem Expired.later (h : Expired ticket s) (he : Evolves s s') : Expired ticket s' := by
  rcases h with hx | hlt | hlt | hlt
  · exact .inl (he.exhausted hx)
  · exact .inr (.inl (lt_of_lt_of_le hlt (he.counters _)))
  · exact .inr (.inr (.inl (lt_of_lt_of_le hlt (he.counters _))))
  · exact .inr (.inr (.inr (lt_of_lt_of_le hlt (he.counters _))))

theorem Expired.not_latest (h : Expired ticket s) : ¬s.names_latest ticket = true := by
  intro hlatest
  obtain ⟨-, hx, hscene, hlifecycle, -, hsequence, -⟩ := names_latest_iff.mp hlatest
  rcases h with h | h | h | h
  · exact absurd (hx.symm.trans h) (by decide)
  · omega
  · omega
  · omega

theorem Registers.expires {key : Nat} {named : Option Nat}
    (h : Registers s key named s') (ht : Reached ticket s) : Expired ticket s' := by
  obtain ⟨t, hcalm, hevent, hchange⟩ := h
  obtain ⟨devices, rfl⟩ := hchange.frame
  rcases hevent.1 with hx | hlt
  · exact .inl hx
  · exact .inr (.inr (.inl (lt_of_le_of_lt ht.2.1 hlt)))

theorem Over.expires (h : Over s ticket.scene_epoch) : Expired ticket s := h.imp id .inl

theorem begin_capture_expires (ht : Reached ticket s)
    (hactive : s.active = true) : Expired ticket s.begin_capture.1 := by
  rcases begin_capture_cases s with ⟨hnot, -⟩ | ⟨-, -, h⟩ | ⟨-, h⟩
  · exact absurd (hnot.symm.trans hactive) (by decide)
  · rw [h]
    refine .inr (.inr (.inr (lt_of_le_of_lt ht.2.2 ?_)))
    show s.counters .capture_sequence < (s.count .capture_sequence).counters .capture_sequence
    rw [count_self]
    exact Nat.lt_succ_self _
  rw [h]
  exact .inl rfl

/-- The ticket that a capture is begun with is the latest while a scene is active. -/
theorem begin_capture_latest (hs : Sound s) :
    s.begin_capture.1.names_latest s.begin_capture.2 = true ↔ s.begin_capture.1.active = true := by
  refine ⟨fun h => (names_latest_iff.mp h).1, fun hactive => ?_⟩
  rcases begin_capture_cases s with ⟨hnot, h⟩ | ⟨hon, hx, h⟩ | ⟨-, h⟩ <;> rw [h] at hactive ⊢
  · exact absurd (hnot.symm.trans hactive) (by decide)
  · refine names_latest_iff.mpr ⟨hon, hx, ?_, ?_, Nat.succ_ne_zero _, ?_, fun hv heq => ?_⟩
    · exact (count_calm (by decide)).epoch.symm
    · exact (count_other (by decide)).symm
    · exact (count_self _).symm
    · have hle := (hs.publication hv).sequence.2
      change s.publication.sequence = s.capture_sequence + 1 at heq
      omega
  · cases hactive

theorem begin_capture_reached (s : SceneHandoff) : Reached s.begin_capture.2 s.begin_capture.1 := by
  rcases begin_capture_cases s with ⟨-, h⟩ | ⟨-, -, h⟩ | ⟨-, h⟩ <;> rw [h]
  · exact ⟨Nat.zero_le _, Nat.zero_le _, Nat.zero_le _⟩
  · refine ⟨?_, ?_, ?_⟩
    · exact (count_calm (by decide)).epoch.ge
    · exact (count_keeps _).counters .lifecycle_epoch
    · exact (count_self _).ge
  · exact ⟨Nat.zero_le _, Nat.zero_le _, Nat.zero_le _⟩

/-! ## What a call leaves of a ticket -/

theorem spends_of_target (h : op.target.isSome = true) : Spends s op := by
  cases op with
  | begin_scene | stop_scene | begin_capture => trivial
  | publish => cases h
  | register_device | unregister_device | register_resource | unregister_resource
  | try_unregister_resource => exact h

theorem Publishes.latest {t : SceneCaptureTicket} {manager : SceneManagerIdentity}
    {ids handles : Feed → Nat} {result : SceneHandoff × Bool}
    (h : Publishes s ticket manager ids handles result) :
    result.1.names_latest t = true ↔ result.1.active = true ∧ s.names_latest t = true ∧ ¬result.2 = true := by
  cases h with
  | stale => exact ⟨fun h => ⟨(names_latest_iff.mp h).1, h, Bool.false_ne_true⟩, fun h => h.2.1⟩
  | refused hlatest =>
    obtain ⟨-, -, -, -, -, hsequence, hnot⟩ := names_latest_iff.mp hlatest
    constructor
    · intro h
      obtain ⟨ha, hx, hs, hl, h0, hq, -⟩ := names_latest_iff.mp h
      have heq : ticket.sequence = t.sequence := hsequence.trans hq.symm
      exact ⟨ha, names_latest_iff.mpr ⟨ha, hx, hs, hl, h0, hq, heq ▸ hnot⟩, Bool.false_ne_true⟩
    · rintro ⟨-, h, -⟩
      obtain ⟨ha, hx, hs, hl, h0, hq, -⟩ := names_latest_iff.mp h
      exact names_latest_iff.mpr ⟨ha, hx, hs, hl, h0, hq, fun hv => nomatch hv⟩
  | replaced _ _ _ _ _ ha =>
    refine iff_of_false (fun h => ?_) fun h => absurd (ha.symm.trans h.1) (by decide)
    exact absurd (ha.symm.trans (names_latest_iff.mp h).1) (by decide)
  | published hlatest =>
    refine iff_of_false (fun h => ?_) fun h => h.2.2 rfl
    obtain ⟨-, -, -, -, -, hsequence, -⟩ := names_latest_iff.mp hlatest
    obtain ⟨-, -, -, -, -, hq, hnot⟩ := names_latest_iff.mp h
    exact hnot rfl (hsequence.trans hq.symm)

/-- A ticket is the latest after a call when it was before and the call does not spend it. -/
theorem step_latest (op : Op) (ht : Reached ticket s) : (step s op).names_latest ticket = true ↔
      (step s op).active = true ∧ s.names_latest ticket = true ∧ ¬Spends s op := by
  cases htarget : op.target with
  | some target =>
    have hexpired := (step_registers (s := s) htarget).expires ht
    have hspends : Spends s op := spends_of_target (by rw [htarget]; rfl)
    exact iff_of_false hexpired.not_latest fun h => h.2.2 hspends
  | none =>
    cases op with
    | begin_scene =>
      exact iff_of_false (begin_scene_over ht.1).expires.not_latest fun h => h.2.2 trivial
    | stop_scene =>
      exact iff_of_false (stop_scene_over ht.1).expires.not_latest fun h => h.2.2 trivial
    | begin_capture =>
      refine iff_of_false (fun h => ?_) fun h => h.2.2 trivial
      have hactive := begin_capture_calm.active (names_latest_iff.mp h).1
      exact (begin_capture_expires ht hactive).not_latest h
    | publish t manager ids handles => exact (publish_publishes s t manager ids handles).latest
    | try_unregister_resource key handle locked =>
      cases locked with
      | false =>
        refine ⟨fun h => ⟨(names_latest_iff.mp h).1, h, ?_⟩, fun h => h.2.1⟩
        exact Bool.false_ne_true
      | true => cases htarget
    | register_device | unregister_device | register_resource | unregister_resource => cases htarget

theorem unspent_active (h : ¬Spends s op) (ha : (step s op).active = true) : s.active = true := by
  cases op with
  | begin_scene | stop_scene | begin_capture => exact absurd trivial h
  | publish ticket manager ids handles =>
    exact (publish_publishes s ticket manager ids handles).active ha
  | try_unregister_resource key handle locked =>
    cases locked with
    | false => exact ha
    | true => exact absurd rfl h
  | register_device | unregister_device | register_resource | unregister_resource =>
    exact absurd rfl h

/-- The ticket that may be published is the live one of the history. -/
theorem issued_latest (ops : List Op) : ∀ ticket, Issued ops ticket →
    Reached ticket (runs.run step {} ops) ∧
      ((runs.run step {} ops).names_latest ticket = true ↔
        (runs.run step {} ops).active = true ∧ Live ops ticket) := by
  induction ops using reverseRecOn with
  | nil => exact fun ticket h => absurd h issued_nil
  | append_singleton ops op ih =>
    intro ticket h
    have hs := run_sound ops
    rw [runs.run_snoc]
    by_cases hnow : op = .begin_capture ∧ ticket = (runs.run step {} ops).begin_capture.2
    · obtain ⟨rfl, rfl⟩ := hnow
      refine ⟨begin_capture_reached _, (begin_capture_latest hs).trans ?_⟩
      exact ⟨fun ha => ⟨ha, Live.issued ops⟩, And.left⟩
    obtain ⟨hreached, hlatest⟩ := ih ticket ((issued_snoc h).resolve_left hnow)
    refine ⟨hreached.later (step_evolves _ op), ?_⟩
    rw [step_latest op hreached, hlatest]
    refine and_congr_right fun ha => ⟨fun h => Live.kept h.1.2 h.2, fun h => ?_⟩
    obtain ⟨hlive, hop⟩ := (live_snoc h).resolve_left hnow
    exact ⟨⟨unspent_active hop ha, hlive⟩, hop⟩

theorem Live.was_issued (h : Live ops ticket) : Issued ops ticket := by
  induction h with
  | issued ops => exact Issued.now ops
  | kept _ _ ih => exact Issued.before _ ih

/-- The same of a caller that holds no ticket. -/
theorem held_latest (h : ticket = {} ∨ Issued ops ticket) : Reached ticket (runs.run step {} ops) ∧
      ((runs.run step {} ops).names_latest ticket = true ↔
        (runs.run step {} ops).active = true ∧ Live ops ticket) := by
  rcases h with rfl | h
  · refine ⟨⟨Nat.zero_le _, Nat.zero_le _, Nat.zero_le _⟩, fun hlatest => ?_, fun hlive => ?_⟩
    · exact absurd rfl (names_latest_iff.mp hlatest).2.2.2.2.1
    · exact (issued_latest ops {} hlive.2.was_issued).2.mpr hlive
  · exact issued_latest ops ticket h

/-! ## Published tickets -/

/-- A ticket that has been published: it stands, or it is out of date. -/
def Used (ticket : SceneCaptureTicket) (s : SceneHandoff) : Prop :=
  Reached ticket s ∧ (Expired ticket s ∨ s.publication.valid = true ∧
    s.publication.sequence = ticket.sequence ∧ ticket.sequence = s.capture_sequence)

theorem Used.not_latest (h : Used ticket s) : ¬s.names_latest ticket = true := by
  rcases h.2 with h | ⟨hv, hsequence, -⟩
  · exact h.not_latest
  intro hlatest
  obtain ⟨-, -, -, -, -, -, hnot⟩ := names_latest_iff.mp hlatest
  exact hnot hv hsequence

/-- A ticket that is not the latest is refused, and changes a count at most. -/
theorem publish_not_latest (h : ¬s.names_latest ticket = true)
    (manager : SceneManagerIdentity) (ids handles : Feed → Nat) :
    (s.publish ticket manager ids handles).2 = false ∧
      ∃ diagnostics, (s.publish ticket manager ids handles).1 = { s with diagnostics } := by
  have hpublish := publish_publishes s ticket manager ids handles
  generalize s.publish ticket manager ids handles = result at hpublish ⊢
  cases hpublish with
  | stale => exact ⟨rfl, _, rfl⟩
  | refused hlatest => exact absurd hlatest h
  | replaced hlatest => exact absurd hlatest h
  | published hlatest => exact absurd hlatest h

theorem step_used (s : SceneHandoff) (op : Op) (h : Used ticket s) : Used ticket (step s op) := by
  obtain ⟨hreached, h⟩ := h
  refine ⟨hreached.later (step_evolves s op), ?_⟩
  rcases h with h | ⟨hv, hsequence, hcapture⟩
  · exact .inl (h.later (step_evolves s op))
  cases htarget : op.target with
  | some target => exact .inl ((step_registers (s := s) htarget).expires hreached)
  | none =>
    cases op with
    | begin_scene => exact .inl (begin_scene_over hreached.1).expires
    | stop_scene => exact .inl (stop_scene_over hreached.1).expires
    | begin_capture =>
      cases hactive : s.active with
      | true => exact .inl (begin_capture_expires hreached hactive)
      | false =>
        rcases begin_capture_cases s with ⟨-, hc⟩ | ⟨hon, -⟩ | ⟨hon, -⟩
        · unfold step
          rw [hc]
          exact .inr ⟨hv, hsequence, hcapture⟩
        · exact absurd (hactive.symm.trans hon) (by decide)
        · exact absurd (hactive.symm.trans hon) (by decide)
    | publish t manager ids handles =>
      -- The latest capture is published already, so no ticket is the latest.
      have hstale : ¬s.names_latest t = true := by
        intro hlatest
        obtain ⟨-, -, -, -, -, hq, hnot⟩ := names_latest_iff.mp hlatest
        exact hnot hv ((hsequence.trans hcapture).trans hq.symm)
      obtain ⟨-, diagnostics, hsame⟩ := publish_not_latest hstale manager ids handles
      dsimp only [step]
      rw [hsame]
      exact .inr ⟨hv, hsequence, hcapture⟩
    | try_unregister_resource key handle locked =>
      cases locked with
      | false => exact .inr ⟨hv, hsequence, hcapture⟩
      | true => cases htarget
    | register_device | unregister_device | register_resource | unregister_resource => cases htarget

/-! ## Revoked publications -/

/-- Nothing is published: no question finds a match, and nothing is current. -/
def Revoked (s : SceneHandoff) : Prop :=
  (∀ m, s.is_current m = false) ∧ (∀ key handle, s.match_resource key handle = {}) ∧
    ∀ candidates key source destination, observe_copy candidates s key source destination = {}

theorem revoked_of_invalid (h : s.publication.valid = false) : Revoked s := by
  have hmatch (key handle : Nat) : s.match_resource key handle = {} := by
    unfold match_resource
    rw [if_pos (by simp [h])]
  refine ⟨fun m => ?_, hmatch, fun candidates key source destination => ?_⟩
  · unfold is_current
    split
    · rw [if_pos (by simp [h])]
    · rfl
  · unfold observe_copy
    dsimp only
    rw [hmatch, hmatch]
    split <;> rfl

theorem step_unpublished (s : SceneHandoff) (op : Op) (h : s.publication.valid = false)
    (hop : Unpublished s op) : (step s op).publication.valid = false := by
  rcases step_publication s op with hnone | hsame | ⟨-, hnot⟩
  · rw [hnone]
  · rw [hsame]
    exact h
  · exact absurd hop hnot

/-! ## The law -/

/-- Of the tickets that callers hold, only the live one is published, and only once. Any other
changes nothing but a count, and a refusal of the live one revokes everything until a later
publication. -/
theorem only_the_live_ticket_is_published (ops : List Op) (ticket : SceneCaptureTicket)
    (hheld : ticket = {} ∨ Issued ops ticket) (manager : SceneManagerIdentity)
    (ids handles : Feed → Nat) :
    let s := runs.run step {} ops
    let result := s.publish ticket manager ids handles
    (result.2 = true → (s.active = true ∧ Live ops ticket) ∧
      ∀ later manager ids handles, ((runs.run step result.1 later).publish ticket manager ids handles).2 = false) ∧
    (¬(s.active = true ∧ Live ops ticket) → result.2 = false ∧ ∃ diagnostics, result.1 = { s with diagnostics }) ∧
    (s.active = true ∧ Live ops ticket → result.2 = false →
      ∀ later, runs.Guarded step Unpublished result.1 later → Revoked (runs.run step result.1 later)) := by
  intro s result
  obtain ⟨hreached, hlatest⟩ := held_latest hheld
  have hpublish : Publishes s ticket manager ids handles result := publish_publishes s ticket manager ids handles
  refine ⟨fun hpublished => ?_, fun hnot => ?_, fun hlive hrefused later hlater => ?_⟩
  · generalize result = r at hpublish hpublished ⊢
    cases hpublish with
    | stale | refused | replaced => cases hpublished
    | @published pending diagnostics hnames =>
      obtain ⟨-, -, -, -, -, hsequence, -⟩ := names_latest_iff.mp hnames
      refine ⟨hlatest.mp hnames, fun later _ _ _ => ?_⟩
      have hused : Used ticket (s.posted ticket manager ids handles pending diagnostics) :=
        ⟨hreached, Or.inr ⟨rfl, rfl, hsequence⟩⟩
      exact (publish_not_latest (runs.invariant step_used later hused).not_latest _ _ _).1
  · exact publish_not_latest (fun hnames => hnot (hlatest.mp hnames)) manager ids handles
  · have hnames := hlatest.mpr hlive
    have hinvalid : result.1.publication.valid = false := by
      generalize result = r at hpublish hrefused ⊢
      cases hpublish with
      | stale hnot => exact absurd (hnot.symm.trans hnames) (by decide)
      | refused => rfl
      | replaced _ _ _ _ _ _ _ hnone => rw [hnone]
      | published => cases hrefused
    exact revoked_of_invalid (runs.guarded_invariant step_unpublished later hinvalid hlater)

/-- The ticket of the first capture is published. -/
theorem first_ticket_is_live :
    (runs.run step {} first_pair.dropLast).active = true ∧ Live first_pair.dropLast ⟨1, 4, 1⟩ := by
  have hlaw := only_the_live_ticket_is_published first_pair.dropLast ⟨1, 4, 1⟩
    (Or.inr (Issued.now (first_pair.take 4))) ⟨9, 1⟩ (fun feed => [10, 11].getD feed.val 0)
    (fun feed => [100, 101].getD feed.val 0)
  exact (hlaw.1 (by decide +kernel)).1

end taxi_camera.scene.SceneHandoff
