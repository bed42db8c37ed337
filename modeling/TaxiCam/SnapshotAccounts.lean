-- The accounts of the completed snapshots: a frame of a poll did not arrive yet,
-- waits in one slot of its device, or was given back once. What each movement of
-- a frame leaves of them.
import TaxiCam.PacketReturns
import TaxiCam.SceneService

namespace taxi_camera.scene_runtime

open scene SceneCaptureManager PacketPool histories runs List
open Function (update_of_ne update_self)

namespace World

/-! ## What is told of the tokens -/

def polled_frames (told : List Event) : List Frame :=
  told.filterMap fun
    | .polled frame => some frame
    | _ => none

/-- The event gives the token back. -/
def gives (token : Nat) : Event → Bool
  | .discarded other _ | .consumed other _ _ _ => other == token
  | _ => false

/-- How often the token was given back. -/
def given (told : List Event) (token : Nat) : Nat := told.countP (gives token)

/-- The event is about no token. -/
def quiet : Event → Bool
  | .ordered .. | .composed .. | .changed .. | .shown .. => true
  | _ => false

/-- No recording reads a snapshot that is given back, and a consumption is the ordered submission
that read it. -/
def Proper (past : List Event) : Event → Prop
  | .discarded _ read => read = false
  | .consumed token fence value read =>
    read = false ∧ ∃ tokens, token ∈ tokens ∧ .ordered tokens fence value ∈ past
  | _ => True

/-- The frame waits in a slot of its device. -/
def Placed (w : World) (frame : Frame) : Prop :=
  ∃ item feed, w.devices frame.device_key = some item ∧ item.pending feed = some frame

section
variable {told : List Event} {e : Event} {token : Nat}

@[simp] theorem polled_frames_append (later : List Event) :
    polled_frames (told ++ later) = polled_frames told ++ polled_frames later :=
  filterMap_append

@[simp] theorem polled_frames_polled (frames : List Frame) : polled_frames (frames.map Event.polled) = frames := by
  induction frames with
  | nil => rfl
  | cons frame rest ih => exact congrArg (frame :: ·) ih

theorem polled_frames_quiet (h : quiet e = true) : polled_frames [e] = [] := by
  cases e with
  | polled frame | discarded token read | consumed token fence value read => cases h
  | _ => rfl

theorem polled_frames_gives (h : gives token e = true) : polled_frames [e] = [] := by
  cases e <;> first | rfl | cases h

@[simp] theorem given_append (later : List Event) :
    given (told ++ later) token = given told token + given later token := countP_append

theorem given_quiet (h : quiet e = true) : given [e] token = 0 := by
  cases e with
  | polled frame | discarded other read | consumed other fence value read => cases h
  | _ => rfl

theorem given_polled (frames : List Frame) : given (frames.map Event.polled) token = 0 := by
  simp [given, gives]

theorem given_gives (h : gives token e = true) (other : Nat) : given [e] other = if other = token then 1 else 0 := by
  cases e with
  | discarded t read | consumed t fence value read =>
    cases (beq_iff_eq.mp h : t = token)
    by_cases ht : token = other
    · simp [given, gives, ht]
    · simp [given, gives, ht, Ne.symm ht]
  | _ => cases h

theorem proper_quiet (h : quiet e = true) : Proper told e := by
  cases e with
  | polled frame | discarded other read | consumed other fence value read => cases h
  | _ => trivial

end

/-! ### Returned tokens -/

variable {told : List PacketPool.Event}

theorem mem_returns {token : Nat} : token ∈ returns told ↔ ∃ p, .returned token p ∈ told := by
  simp only [returns, mem_filterMap]
  constructor
  · rintro ⟨e, he, hsome⟩
    cases e with
    | returned other slot =>
      cases hsome
      exact ⟨slot, he⟩
    | _ => cases hsome
  · rintro ⟨p, hp⟩
    exact ⟨_, hp, rfl⟩

/-- The manager returns each token once. -/
theorem returns_nodup (h : Explained Allowed told) : (returns told).Nodup := by
  induction told using List.reverseRecOn with
  | nil => exact nodup_nil
  | append_singleton past e ih =>
    have hpast : Explained Allowed past := by
      intro before x after hsplit
      exact h before x (after ++ [e]) (by rw [hsplit]; simp)
    rw [returns_append]
    cases e with
    | returned token slot =>
      have hnew : ∀ q, PacketPool.Event.returned token q ∉ past := (h past (.returned token slot) [] rfl).1
      refine List.Nodup.append (ih hpast) (nodup_singleton _) ?_
      intro other hother hsingle
      cases mem_singleton.mp hsingle
      obtain ⟨q, hq⟩ := mem_returns.mp hother
      exact hnew q hq
    | _ => simpa [returns] using ih hpast

/-! ## The invariant -/

/-- What a device holds is polled and not given back, and its recordings read what it holds. -/
structure Lent (told : List Event) (incoming : List Frame) (key : Nat) (item : Device) : Prop where
  held : ∀ feed frame, item.pending feed = some frame →
    frame ∈ polled_frames told ∧ frame.device_key = key ∧ frame.published.feed = feed.val ∧
      given told frame.token = 0 ∧ frame ∉ incoming
  read : ∀ token ∈ reads item, ∃ feed frame, item.pending feed = some frame ∧ frame.token = token

/-- `incoming` are the frames of the poll that did not arrive yet. Where no device is busy, a device
that did not fail has no open recording. -/
structure Good (busy : Option Nat) (w : World) (incoming : List Frame) : Prop where
  lawful : w.pool.Lawful
  tokens : (polled_frames w.told).map Frame.token = returns w.pool.history
  lent : ∀ key item, w.devices key = some item → Lent w.told incoming key item
  calm : ∀ key item, w.devices key = some item → busy ≠ some key → item.status.failed = false →
    reads item = []
  came : ∀ frame ∈ incoming, frame ∈ polled_frames w.told ∧ given w.told frame.token = 0
  once : incoming.Nodup
  known : ∀ token, given w.told token ≠ 0 → token ∈ (polled_frames w.told).map Frame.token
  settled : ∀ frame ∈ polled_frames w.told,
    frame ∈ incoming ∨ w.Placed frame ∨ given w.told frame.token = 1
  proper : Explained Proper w.told

section
variable {busy : Option Nat} {w w' : World} {incoming : List Frame} {key : Nat} {item item' : Device}
  {feed : Feed} {frame : Frame}

/-- A token names one frame. -/
theorem Good.token_inj (h : Good busy w incoming) {other : Frame}
    (hframe : frame ∈ polled_frames w.told) (hother : other ∈ polled_frames w.told)
    (heq : frame.token = other.token) : frame = other := by
  have hnodup := returns_nodup h.lawful.explained
  rw [← h.tokens] at hnodup
  exact inj_on_of_nodup_map hnodup hframe hother heq

variable {e : Event} {told : List Event} {token : Nat}

/-- Where no device reads a token, nothing reads it. -/
theorem is_read_false (h : ∀ key item, w.devices key = some item → token ∉ reads item) : w.is_read token = false := by
  simp only [is_read, any_eq_false, Bool.not_eq_true]
  intro key _
  cases hitem : w.devices key with
  | none => rfl
  | some item => simpa using h key item hitem

/-- A frame that did not arrive is not read. -/
theorem Good.incoming_unread (h : Good busy w incoming) (hframe : frame ∈ incoming) :
    w.is_read frame.token = false := by
  refine is_read_false fun key item hitem hread => ?_
  obtain ⟨feed, other, hslot, htoken⟩ := (h.lent key item hitem).read _ hread
  obtain ⟨hpolled, -, -, -, hout⟩ := (h.lent key item hitem).held feed other hslot
  rw [h.token_inj hpolled (h.came frame hframe).1 htoken] at hout
  exact hout hframe

/-- A frame that waits with a device without open recordings is not read. -/
theorem Good.slot_unread (h : Good busy w incoming) (hitem : w.devices key = some item)
    (hslot : item.pending feed = some frame) (hreads : reads item = []) :
    w.is_read frame.token = false := by
  have hheld := (h.lent key item hitem).held feed frame hslot
  refine is_read_false fun other rival hrival hread => ?_
  obtain ⟨feed', frame', hslot', htoken⟩ := (h.lent other rival hrival).read _ hread
  have hheld' := (h.lent other rival hrival).held feed' frame' hslot'
  have hsame := h.token_inj hheld'.1 hheld.1 htoken
  have hkey : other = key := by rw [← hheld'.2.1, hsame, hheld.2.1]
  subst hkey
  rw [hitem] at hrival
  cases hrival
  rw [hreads] at hread
  exact absurd hread not_mem_nil

/-- What is told of no token, and what leaves the devices, leaves the accounts. -/
theorem Good.keep (h : Good busy w incoming) (hlawful : w'.pool.Lawful)
    (hreturns : returns w'.pool.history = returns w.pool.history) (hdevices : w'.devices = w.devices)
    {later : List Event} (htold : w'.told = w.told ++ later) (hpolled : polled_frames later = [])
    (hgiven : ∀ token, given later token = 0) (hproper : Explained Proper (w.told ++ later)) :
    Good busy w' incoming := by
  have hframes : polled_frames w'.told = polled_frames w.told := by
    rw [htold, polled_frames_append, hpolled, append_nil]
  have hcount : ∀ token, given w'.told token = given w.told token := by
    intro token
    rw [htold, given_append, hgiven, Nat.add_zero]
  refine ⟨hlawful, ?_, ?_, ?_, ?_, h.once, ?_, ?_, ?_⟩
  · rw [hframes, hreturns]
    exact h.tokens
  · intro key item hitem
    rw [hdevices] at hitem
    have hlent := h.lent key item hitem
    refine ⟨fun feed frame hslot => ?_, hlent.read⟩
    rw [hframes, hcount]
    exact hlent.held feed frame hslot
  · rw [hdevices]
    exact h.calm
  · intro frame hframe
    rw [hframes, hcount]
    exact h.came frame hframe
  · intro token
    rw [hframes, hcount]
    exact h.known token
  · intro frame hframe
    rw [hframes] at hframe
    rw [hcount]
    unfold Placed
    rw [hdevices]
    exact h.settled frame hframe
  · rw [htold]
    exact hproper

theorem Good.of_same (h : Good busy w incoming) (hlawful : w'.pool.Lawful)
    (hreturns : returns w'.pool.history = returns w.pool.history) (hdevices : w'.devices = w.devices)
    (htold : w'.told = w.told) : Good busy w' incoming :=
  h.keep hlawful hreturns hdevices (htold.trans (append_nil _).symm) rfl (fun _ => rfl)
    (by rw [append_nil]; exact h.proper)

theorem Good.tell (h : Good busy w incoming) (he : quiet e = true) : Good busy (w.tell e) incoming :=
  h.keep h.lawful rfl rfl rfl (polled_frames_quiet he) (fun _ => given_quiet he)
    (explained_snoc h.proper (proper_quiet he))

theorem Good.meanwhile (h : Good busy w incoming) (work : List Outside) :
    Good busy (w.meanwhile work) incoming ∧ (w.meanwhile work).devices = w.devices := by
  refine invariant (fun (t : World) x (ht : Good busy t incoming ∧ t.devices = w.devices) => ?_) work ⟨h, rfl⟩
  cases x with
  | manager call =>
    unfold outside
    dsimp only
    split
    · exact ht
    rename_i hown
    have hcall : ∀ capacity found, call ≠ .poll_completed_frames capacity found := by
      rintro capacity found rfl
      exact hown rfl
    exact ⟨ht.1.of_same (ht.1.lawful.step call) (returns_step _ call hcall) rfl rfl, ht.2⟩
  | handoff op => exact ⟨ht.1.of_same ht.1.lawful rfl rfl rfl, ht.2⟩

/-! ## A device that changes -/

/-- Every other device that is not busy after the change was not busy before it. -/
theorem Good.put {busy' : Option Nat} (h : Good busy w incoming) (hitem : w.devices key = some item)
    (hothers : ∀ other, other ≠ key → busy' ≠ some other → busy ≠ some other)
    (hpending : item'.pending = item.pending)
    (hread : ∀ token ∈ reads item', ∃ feed frame, item.pending feed = some frame ∧ frame.token = token)
    (hcalm : busy' ≠ some key → item'.status.failed = false → reads item' = []) :
    Good busy' (w.put key item') incoming := by
  have hlent := h.lent key item hitem
  refine ⟨h.lawful, h.tokens, ?_, ?_, h.came, h.once, h.known, ?_, h.proper⟩
  · intro other rival hrival
    by_cases hkey : other = key
    · subst hkey
      rw [put_self] at hrival
      cases hrival
      refine ⟨?_, ?_⟩
      · rw [hpending]
        exact hlent.held
      · rw [hpending]
        exact hread
    rw [put_other _ _ hkey] at hrival
    exact h.lent other rival hrival
  · intro other rival hrival hother
    by_cases hkey : other = key
    · subst hkey
      rw [put_self] at hrival
      cases hrival
      exact hcalm hother
    rw [put_other _ _ hkey] at hrival
    exact h.calm other rival hrival (hothers other hkey hother)
  · intro frame hframe
    refine (h.settled frame hframe).imp_right (Or.imp_left ?_)
    rintro ⟨holder, feed, hholder, hslot⟩
    by_cases hkey : frame.device_key = key
    · rw [hkey, hitem] at hholder
      cases hholder
      exact ⟨item', feed, by rw [hkey, put_self], by rw [hpending]; exact hslot⟩
    · exact ⟨holder, feed, (put_other _ _ hkey).trans hholder, hslot⟩

/-- A change of the device that leaves its slots and what its recordings read. -/
theorem Good.put_same (h : Good busy w incoming) (hitem : w.devices key = some item)
    (hpending : item'.pending = item.pending) (hreads : reads item' = reads item)
    (hfailed : item'.status.failed = false → item.status.failed = false) :
    Good busy (w.put key item') incoming := by
  refine h.put hitem (fun _ _ hother => hother) hpending ?_ fun hnone hno => ?_
  · rw [hreads]
    exact (h.lent key item hitem).read
  · rw [hreads]
    exact h.calm key item hitem hnone (hfailed hno)

/-! ## A frame that goes back -/

theorem given_snoc (he : gives token e = true)
    (other : Nat) : given (told ++ [e]) other = given told other + if other = token then 1 else 0 := by
  rw [given_append, given_gives he]

theorem polled_frames_snoc (he : gives token e = true) : polled_frames (told ++ [e]) = polled_frames told := by
  rw [polled_frames_append, polled_frames_gives he, append_nil]

/-- A frame of the poll that finds no slot goes back. -/
theorem Good.return_incoming (h : Good busy w (frame :: incoming)) (natives : Natives) :
    Good busy (w.discard_frame natives frame.token) incoming := by
  set e := Event.discarded frame.token (w.is_read frame.token) with hedef
  have he : gives frame.token e = true := beq_self_eq_true _
  obtain ⟨hframe, hzero⟩ := h.came frame mem_cons_self
  have hfresh : ∀ other ∈ polled_frames w.told, other ≠ frame → other.token ≠ frame.token :=
    fun other hother hne htoken => hne (h.token_inj hother hframe htoken)
  obtain ⟨hout, honce⟩ := nodup_cons.mp h.once
  have hcount : ∀ other ∈ polled_frames w.told, other ≠ frame →
      given (w.told ++ [e]) other.token = given w.told other.token := by
    intro other hother hne
    rw [given_snoc he, if_neg (hfresh other hother hne), Nat.add_zero]
  refine ⟨h.lawful.discard_frame _ _, ?_, ?_, h.calm, ?_, honce, ?_, ?_, ?_⟩
  · change (polled_frames (w.told ++ [e])).map Frame.token = _
    rw [polled_frames_snoc he, h.tokens]
    exact (returns_step w.pool (.discard_frame frame.token (natives frame.token))
      nofun).symm
  · intro key item hitem
    have hlent := h.lent key item hitem
    refine ⟨fun feed other hslot => ?_, hlent.read⟩
    obtain ⟨hpolled, hkey, hfeed, hgiven, hin⟩ := hlent.held feed other hslot
    have hne : other ≠ frame := fun heq => hin (heq ▸ mem_cons_self)
    refine ⟨?_, hkey, hfeed, ?_, fun hmem => hin (mem_cons_of_mem _ hmem)⟩
    · change other ∈ polled_frames (w.told ++ [e])
      rw [polled_frames_snoc he]
      exact hpolled
    · exact (hcount other hpolled hne).trans hgiven
  · intro other hother
    obtain ⟨hpolled, hgiven⟩ := h.came other (mem_cons_of_mem _ hother)
    refine ⟨?_, (hcount other hpolled ?_).trans hgiven⟩
    · change other ∈ polled_frames (w.told ++ [e])
      rw [polled_frames_snoc he]
      exact hpolled
    · rintro rfl
      exact hout hother
  · intro token htoken
    change token ∈ (polled_frames (w.told ++ [e])).map Frame.token
    rw [polled_frames_snoc he]
    by_cases hsame : token = frame.token
    · rw [hsame]
      exact mem_map_of_mem hframe
    refine h.known token fun hno => htoken ?_
    change given (w.told ++ [e]) token = 0
    rw [given_snoc he, if_neg hsame, hno]
  · intro other hother
    change other ∈ polled_frames (w.told ++ [e]) at hother
    rw [polled_frames_snoc he] at hother
    by_cases hsame : other = frame
    · refine .inr (.inr ?_)
      change given (w.told ++ [e]) other.token = 1
      rw [hsame, given_snoc he, if_pos rfl, hzero]
    rcases h.settled other hother with hin | hplaced | hgiven
    · exact .inl ((mem_cons.mp hin).resolve_left hsame)
    · exact .inr (.inl hplaced)
    · exact .inr (.inr ((hcount other hother hsame).trans hgiven))
  · exact explained_snoc h.proper (h.incoming_unread mem_cons_self)

/-- A frame that waits with a device without open recordings goes back, and its slot is free. -/
theorem Good.return_slot (h : Good busy w incoming) (hitem : w.devices key = some item)
    (hslot : item.pending feed = some frame) (he : gives frame.token e = true)
    (hproper : Proper w.told e) (hlawful : w'.pool.Lawful)
    (hreturns : returns w'.pool.history = returns w.pool.history)
    (hdevices : w'.devices = Function.update w.devices key (some item'))
    (hpending : item'.pending = Function.update item.pending feed none) (hreads : reads item' = [])
    (htold : w'.told = w.told ++ [e]) : Good busy w' incoming := by
  obtain ⟨hframe, hframe_key, hframe_feed, hzero, hout⟩ := (h.lent key item hitem).held feed frame hslot
  have hfresh : ∀ other ∈ polled_frames w.told, other ≠ frame → other.token ≠ frame.token :=
    fun other hother hne htoken => hne (h.token_inj hother hframe htoken)
  have hframes : polled_frames w'.told = polled_frames w.told := by
    rw [htold, polled_frames_snoc he]
  have hcount : ∀ other ∈ polled_frames w.told, other ≠ frame →
      given w'.told other.token = given w.told other.token := by
    intro other hother hne
    rw [htold, given_snoc he, if_neg (hfresh other hother hne), Nat.add_zero]
  have hself : w'.devices key = some item' := by rw [hdevices, update_self]
  have hother : ∀ k, k ≠ key → w'.devices k = w.devices k := by
    intro k hk
    rw [hdevices, update_of_ne hk]
  -- Each frame that waits after the step waited before it, and is another frame.
  have hheld : ∀ k holder feed' other, w'.devices k = some holder →
      holder.pending feed' = some other → other ≠ frame ∧
        ∃ before, w.devices k = some before ∧ before.pending feed' = some other := by
    intro k holder feed' other hholder hslot'
    by_cases hk : k = key
    · subst hk
      rw [hself] at hholder
      cases hholder
      rw [hpending] at hslot'
      by_cases hfeed : feed' = feed
      · rw [hfeed, update_self] at hslot'
        cases hslot'
      rw [update_of_ne hfeed] at hslot'
      refine ⟨?_, item, hitem, hslot'⟩
      rintro rfl
      refine hfeed (Fin.ext ?_)
      rw [← ((h.lent _ item hitem).held feed' other hslot').2.2.1, hframe_feed]
    rw [hother k hk] at hholder
    refine ⟨?_, holder, hholder, hslot'⟩
    rintro rfl
    exact hk (((h.lent k holder hholder).held feed' other hslot').2.1.symm.trans hframe_key)
  refine ⟨hlawful, ?_, ?_, ?_, ?_, h.once, ?_, ?_, ?_⟩
  · rw [hframes, hreturns, h.tokens]
  · intro k holder hholder
    refine ⟨fun feed' other hslot' => ?_, fun token htoken => ?_⟩
    · obtain ⟨hne, before, hbefore, hslot'⟩ := hheld k holder feed' other hholder hslot'
      obtain ⟨hpolled, hk, hfeed, hgiven, hin⟩ := (h.lent k before hbefore).held feed' other hslot'
      rw [hframes]
      exact ⟨hpolled, hk, hfeed, (hcount other hpolled hne).trans hgiven, hin⟩
    · by_cases hk : k = key
      · subst hk
        rw [hself] at hholder
        cases hholder
        rw [hreads] at htoken
        exact absurd htoken not_mem_nil
      rw [hother k hk] at hholder
      exact (h.lent k holder hholder).read token htoken
  · intro k holder hholder hbusy hfailed
    by_cases hk : k = key
    · subst hk
      rw [hself] at hholder
      cases hholder
      exact hreads
    rw [hother k hk] at hholder
    exact h.calm k holder hholder hbusy hfailed
  · intro other hin
    obtain ⟨hpolled, hgiven⟩ := h.came other hin
    rw [hframes]
    refine ⟨hpolled, (hcount other hpolled ?_).trans hgiven⟩
    rintro rfl
    exact hout hin
  · intro token htoken
    rw [hframes]
    by_cases hsame : token = frame.token
    · rw [hsame]
      exact mem_map_of_mem hframe
    refine h.known token fun hno => htoken ?_
    rw [htold, given_snoc he, if_neg hsame, hno]
  · intro other hpolled
    rw [hframes] at hpolled
    by_cases hsame : other = frame
    · refine .inr (.inr ?_)
      rw [htold, hsame, given_snoc he, if_pos rfl, hzero]
    rcases h.settled other hpolled with hin | hplaced | hgiven
    · exact .inl hin
    · refine .inr (.inl ?_)
      obtain ⟨holder, feed', hholder, hslot'⟩ := hplaced
      by_cases hk : other.device_key = key
      · rw [hk, hitem] at hholder
        cases hholder
        refine ⟨item', feed', by rw [hk, hself], ?_⟩
        rw [hpending]
        by_cases hfeed : feed' = feed
        · rw [hfeed, hslot] at hslot'
          cases hslot'
          exact absurd rfl hsame
        rw [update_of_ne hfeed]
        exact hslot'
      · exact ⟨holder, feed', by rw [hother _ hk]; exact hholder, hslot'⟩
    · exact .inr (.inr ((hcount other hpolled hsame).trans hgiven))
  · rw [htold]
    exact explained_snoc h.proper hproper

/-- A frame that a submission read goes back with it. -/
theorem Good.consume_slot (h : Good busy w incoming) (hitem : w.devices key = some item)
    (hslot : item.pending feed = some frame) (hreads : reads item = []) (natives : Natives)
    {fence value : Nat}
    (hordered : ∃ tokens, frame.token ∈ tokens ∧ .ordered tokens fence value ∈ w.told)
    (after : Device) (hpending : after.pending = Function.update item.pending feed none)
    (hafter : reads after = []) :
    Good busy ((finish_consumption natives fence value w frame.token).put key after) incoming :=
  h.return_slot hitem hslot (e := .consumed frame.token fence value (w.is_read frame.token))
    (beq_self_eq_true _) ⟨h.slot_unread hitem hslot hreads, hordered⟩
    (h.lawful.finish_consumption _ _ _ _)
    (returns_step w.pool (.finish_consumption frame.token fence value (natives frame.token))
      nofun)
    rfl hpending hafter rfl

/-- The device has no open recording. -/
def Calm (w : World) (key : Nat) : Prop := ∀ item, w.devices key = some item → reads item = []

theorem Good.clear_slot (h : Good busy w incoming) (hcalm : w.Calm key) (natives : Natives) (feed : Feed) :
    Good busy (w.clear_slot natives key feed) incoming ∧ (w.clear_slot natives key feed).Calm key := by
  unfold World.clear_slot
  split
  · exact ⟨h, hcalm⟩
  rename_i item hitem
  split
  · exact ⟨h, hcalm⟩
  rename_i frame hslot
  have hreads := hcalm item hitem
  refine ⟨?_, ?_⟩
  · refine h.return_slot hitem hslot (e := .discarded frame.token (w.is_read frame.token))
      (beq_self_eq_true _) (h.slot_unread hitem hslot hreads) ?_ ?_ rfl rfl hreads rfl
    · exact h.lawful.discard_frame _ _
    · exact returns_step w.pool (.discard_frame frame.token (natives frame.token)) nofun
  · intro item' hitem'
    rw [put_self] at hitem'
    cases hitem'
    exact hreads

theorem Good.discard (h : Good busy w incoming) (hcalm : w.Calm key) (natives : Natives) :
    Good busy (w.discard natives key) incoming ∧ (w.discard natives key).Calm key :=
  invariant (fun (t : World) feed (ht : Good busy t incoming ∧ t.Calm key) =>
    ht.1.clear_slot ht.2 natives feed) feeds ⟨h, hcalm⟩

/-! ## Arrivals -/

/-- A frame of the poll takes a free slot of its device. -/
theorem Good.place (h : Good none w (frame :: incoming)) (hitem : w.devices frame.device_key = some item)
    (hempty : item.pending feed = none) (hfeed : frame.published.feed = feed.val)
    (hpending : item'.pending = Function.update item.pending feed (some frame))
    (hreads : reads item' = reads item) (hfailed : item'.status.failed = item.status.failed) :
    Good none (w.put frame.device_key item') incoming := by
  obtain ⟨hframe, hzero⟩ := h.came frame mem_cons_self
  obtain ⟨hout, honce⟩ := nodup_cons.mp h.once
  refine ⟨h.lawful, h.tokens, ?_, ?_, fun other hother => h.came other (mem_cons_of_mem _ hother),
    honce, h.known, ?_, h.proper⟩
  · intro key holder hholder
    by_cases hkey : key = frame.device_key
    · subst hkey
      rw [put_self] at hholder
      cases hholder
      have hlent := h.lent _ item hitem
      refine ⟨fun feed' other hslot => ?_, fun token htoken => ?_⟩
      · rw [hpending] at hslot
        by_cases hsame : feed' = feed
        · rw [hsame, update_self] at hslot
          cases hslot
          exact ⟨hframe, rfl, by rw [hsame, hfeed], hzero, hout⟩
        rw [update_of_ne hsame] at hslot
        obtain ⟨hpolled, hkey, hother, hgiven, hin⟩ := hlent.held feed' other hslot
        exact ⟨hpolled, hkey, hother, hgiven, fun hmem => hin (mem_cons_of_mem _ hmem)⟩
      · rw [hreads] at htoken
        obtain ⟨feed', other, hslot, hother⟩ := hlent.read token htoken
        refine ⟨feed', other, ?_, hother⟩
        have hne : feed' ≠ feed := by
          rintro rfl
          rw [hempty] at hslot
          cases hslot
        rw [hpending, update_of_ne hne]
        exact hslot
    rw [put_other _ _ hkey] at hholder
    have hlent := h.lent key holder hholder
    refine ⟨fun feed' other hslot => ?_, hlent.read⟩
    obtain ⟨hpolled, hk, hother, hgiven, hin⟩ := hlent.held feed' other hslot
    exact ⟨hpolled, hk, hother, hgiven, fun hmem => hin (mem_cons_of_mem _ hmem)⟩
  · intro key holder hholder hbusy hno
    by_cases hkey : key = frame.device_key
    · subst hkey
      rw [put_self] at hholder
      cases hholder
      rw [hreads]
      exact h.calm _ item hitem hbusy (hfailed.symm.trans hno)
    rw [put_other _ _ hkey] at hholder
    exact h.calm key holder hholder hbusy hno
  · intro other hother
    rcases h.settled other hother with hin | hplaced | hgiven
    · rcases mem_cons.mp hin with rfl | hrest
      · exact .inr (.inl ⟨item', feed, put_self .., by rw [hpending, update_self]⟩)
      · exact .inl hrest
    · refine .inr (.inl ?_)
      obtain ⟨holder, feed', hholder, hslot⟩ := hplaced
      by_cases hkey : other.device_key = frame.device_key
      · rw [hkey, hitem] at hholder
        cases hholder
        have hne : feed' ≠ feed := by
          rintro rfl
          rw [hempty] at hslot
          cases hslot
        exact ⟨item', feed', by rw [hkey, put_self], by rw [hpending, update_of_ne hne]; exact hslot⟩
      · exact ⟨holder, feed', (put_other _ _ hkey).trans hholder, hslot⟩
    · exact .inr (.inr hgiven)

/-- What a slot that is cleared leaves of its device. -/
theorem clear_slot_item (natives : Natives) (hitem : w.devices key = some item) (feed : Feed) :
    (w.clear_slot natives key feed).devices key = some (set_slot item feed none) := by
  unfold clear_slot
  rw [hitem]
  dsimp only
  split
  · rename_i hslot
    rw [hitem, set_slot, ← hslot, Function.update_eq_self]
  · exact put_self ..

theorem Good.arrive (h : Good none w (frame :: incoming)) (natives : Natives) :
    Good none (w.arrive natives frame) incoming := by
  unfold World.arrive
  split
  · exact h.return_incoming natives
  rename_i item hitem
  split
  · rename_i hfeed
    dsimp only
    split
    · exact h.return_incoming natives
    rename_i hcurrent
    simp only [Bool.or_eq_true, not_or, Bool.not_eq_true] at hcurrent
    have hfailed : item.status.failed = false := hcurrent.1.2
    split
    · exact h.return_incoming natives
    set feed : Feed := ⟨frame.published.feed, hfeed⟩
    set newer : Device := { item with newest := Function.update item.newest feed frame.order }
    have hnewer : Good none (w.put frame.device_key newer) (frame :: incoming) := h.put_same hitem rfl rfl id
    have hself := put_self w frame.device_key newer
    have hcalm : (w.put frame.device_key newer).Calm frame.device_key := by
      intro other hother
      rw [hself] at hother
      cases hother
      exact h.calm _ item hitem (by simp) hfailed
    exact (hnewer.clear_slot hcalm natives feed).1.place (clear_slot_item natives hself feed)
      (update_self ..) rfl (by simp [set_slot]) rfl rfl
  · exact h.return_incoming natives

theorem Good.poll (h : Good none w []) (found : Polling) : Good none (w.poll found).1 (w.poll found).2 := by
  obtain ⟨hlawful, hreturns⟩ := h.lawful.poll_completed_frames MaximumPackets found
  unfold World.poll
  set answer := w.pool.poll_completed_frames MaximumPackets found
  have hnodup := returns_nodup hlawful.explained
  rw [hreturns, ← h.tokens] at hnodup
  obtain ⟨-, hnew, hapart⟩ := nodup_append.mp hnodup
  have hframes : polled_frames (w.told ++ answer.2.map Event.polled) = polled_frames w.told ++ answer.2 := by
    rw [polled_frames_append, polled_frames_polled]
  have hcount : ∀ token, given (w.told ++ answer.2.map Event.polled) token = given w.told token := by
    intro token
    rw [given_append, given_polled, Nat.add_zero]
  have hold : ∀ {frame}, frame ∈ polled_frames w.told → frame ∉ answer.2 := by
    intro frame hframe hin
    exact hapart frame.token (mem_map_of_mem hframe) frame.token (mem_map_of_mem hin) rfl
  refine ⟨hlawful, ?_, ?_, h.calm, ?_, List.Nodup.of_map _ hnew, ?_, ?_, ?_⟩
  · rw [hframes, map_append, h.tokens, hreturns]
  · intro key item hitem
    refine ⟨fun feed frame hslot => ?_, (h.lent key item hitem).read⟩
    obtain ⟨hpolled, hkey, hfeed, hgiven, -⟩ := (h.lent key item hitem).held feed frame hslot
    rw [hframes]
    exact ⟨mem_append_left _ hpolled, hkey, hfeed, (hcount _).trans hgiven, hold hpolled⟩
  · intro frame hin
    rw [hframes, hcount]
    refine ⟨mem_append_right _ hin, ?_⟩
    by_contra hgiven
    obtain ⟨other, hother, htoken⟩ := mem_map.mp (h.known frame.token hgiven)
    exact hapart other.token (mem_map_of_mem hother) frame.token (mem_map_of_mem hin) htoken
  · intro token htoken
    rw [hcount] at htoken
    rw [hframes, map_append]
    exact mem_append_left _ (h.known token htoken)
  · intro frame hframe
    rw [hframes] at hframe
    rw [hcount]
    rcases mem_append.mp hframe with hbefore | hin
    · exact .inr ((h.settled frame hbefore).resolve_left not_mem_nil)
    · exact .inl hin
  · dsimp only
    generalize answer.2 = frames
    induction frames using List.reverseRecOn with
    | nil => simpa using h.proper
    | append_singleton rest frame ih =>
      rw [map_append, ← append_assoc]
      exact explained_snoc ih trivial

theorem Good.arrivals (s : Service) (frames : List (Frame × Nat))
    (h : Good none w (frames.map Prod.fst)) : Good none (frames.foldl (arrivals s) w) [] := by
  induction frames generalizing w with
  | nil => exact h
  | cons turn rest ih => exact ih ((h.meanwhile (s.arrivals turn.2)).1.arrive s.natives)

end

end World

end taxi_camera.scene_runtime
