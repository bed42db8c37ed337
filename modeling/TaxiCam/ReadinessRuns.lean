-- The readiness over a run: a worker that accepts packets and services notices
-- under its lock, notices from any thread, and readers that never wait, under
-- the shared lock or from the cache. src/camera/body_pose_provider.cpp. What a
-- turn does under the exclusive lock is one step up to its next atomic.
import TaxiCam.FlightSession
import TaxiCam.Runs

namespace taxi_camera.flight_session

open runs List

def ReadinessCacheMaxAgeMs : Nat := 250

/-! ## The threads -/

/-- What the worker does under its lock. -/
inductive Work
  | session (p : SessionPacket)
  | identity (p : IdentityPacket) (now : Nat)
  | begin_request (type_request path_request : Nat)
  | aircraft (p : AircraftPacket)
  | camera (p : CameraPacket)
  | failure (text : String)
  | service

/-- Where the worker stands. From `checking` on it is in `service_world_invalidation`, which has its
own `loaded`, `exchanged` and `renewed`. -/
inductive Stage
  | idle
  | acquiring (work : Work)
  | held (work : Work)
  | storing (dropped : Bool)
  | releasing (reset : Bool)
  | notifying
  | checking
  | loaded (pending : InvalidWorld)
  | exchanged (pending : InvalidWorld)
  | renewed

namespace Stage

/-- The worker has the lock. -/
def holds : Stage → Bool
  | idle | acquiring _ | notifying | checking => false
  | held _ | storing _ | releasing _ | loaded _ | exchanged _ | renewed => true

/-- A notice is exchanged, and the session is not reset yet. -/
def window : Stage → Bool
  | exchanged _ | renewed => true
  | idle | acquiring _ | held _ | storing _ | releasing _ | notifying | checking | loaded _ => false

/-- The session has changed, and its epoch is not stored yet. -/
def drops : Stage → Bool
  | renewed | storing true => true
  | idle | acquiring _ | held _ | storing false | releasing _ | notifying | checking | loaded _
  | exchanged _ => false

end Stage

/-- What has happened, for the claims about a run. A sample is marked with one more than the number of
the changes that were completed before it. -/
structure History where
  notices : Nat := 0
  /-- The notices before the last exchange of a service. -/
  taken : Nat := 0
  /-- The notices that a service has reset the session for. -/
  serviced : Nat := 0
  /-- The session changes that are completed. -/
  changes : Nat := 0
  identity : Nat := 0
  aircraft : Nat := 0
  camera : Nat := 0
  /-- Every session epoch, the last one first. -/
  epochs : List Nat := [0]
  /-- The epochs of the ready readings. -/
  made : List Nat := []

/-- `nonblocking_readiness`, with what had happened when it began. -/
inductive Reader
  | out
  | started (begun : History) (now : Nat)
  | entered (begun : History) (now epoch : Nat)
  | loaded (begun : History) (now epoch : Nat) (pending : InvalidWorld)
  | locked (begun : History) (now : Nat)
  | exchanging (begun : History) (now : Nat) (out : AircraftSessionReadiness)
  | read (begun : History) (now : Nat) (out : AircraftSessionReadiness)
  | publishing (begun : History) (now : Nat) (out : AircraftSessionReadiness)

/-- The reader has the shared lock. -/
def Reader.holds : Reader → Bool
  | locked .. | exchanging .. | read .. => true
  | out | started .. | entered .. | loaded .. | publishing .. => false

/-- What a reader reports, with what had happened when it began and when it ended. -/
structure Answer where
  begun : History
  ended : History
  out : AircraftSessionReadiness

structure World where
  state : State := {}
  session_epoch : Nat := 0
  invalid_world : InvalidWorld := {}
  cache : AircraftSessionReadiness := {}
  sampled_ms : Nat := 0
  stage : Stage := .idle
  readers : Nat → Reader := fun _ => .out
  holders : List Nat := []
  history : History := {}
  answers : List Answer := []

namespace World

/-! ## The steps of the worker -/

variable (detect : String → String → Nat) (w : World)

/-- Both responses of a poll are accepted. -/
def completes (accepted : AircraftIdentityCache × Bool) : Bool :=
  accepted.2 && accepted.1.pending_type_ms == 0 && accepted.1.pending_path_ms == 0

def perform_session (p : SessionPacket) : World :=
  let accepted := w.state.aircraft_session.accept p
  let next := { w.state with aircraft_session := accepted.1 }
  let dropped := accepted.2 || !accepted.1.running
  { w with state := if dropped then next.reset_session else next, stage := .storing dropped }

def perform_identity (p : IdentityPacket) (now : Nat) : World :=
  let before := w.state.identity.sample detect now
  let accepted := w.state.identity.accept p now
  let after := accepted.1.sample detect now
  let changed := accepted.2 && before.sample_ms != 0 && after.sample_ms != before.sample_ms &&
    (before.type != after.type || before.path != after.path)
  let next := { w.state with identity := accepted.1 }
  { w with
    state := if changed then
        { next with aircraft_session := next.aircraft_session.changed }.reset_session
      else next
    stage := if changed then .storing true else .releasing false
    history := { w.history with
      identity := if completes accepted then w.history.changes + 1 else w.history.identity } }

def perform_aircraft (p : AircraftPacket) : World :=
  { w with
    state := w.state.accept_aircraft_packet p
    stage := .releasing false
    history := { w.history with
      aircraft := if State.aircraft_shaped p && p.pose_valid then w.history.changes + 1
        else w.history.aircraft } }

def perform_camera (p : CameraPacket) : World :=
  { w with
    state := (w.state.accept_camera_packet p).1
    stage := .releasing (w.state.accept_camera_packet p).2
    history := { w.history with
      camera := if State.camera_shaped p && p.valid then w.history.changes + 1 else w.history.camera } }

/-- Up to the store of the epoch, or the load of the notices. -/
def perform : Work → World
  | .session p => w.perform_session p
  | .identity p now => w.perform_identity detect p now
  | .begin_request type_request path_request =>
    { w with
      state := { w.state with identity := w.state.identity.begin_request type_request path_request }
      stage := .releasing false }
  | .aircraft p => w.perform_aircraft p
  | .camera p => w.perform_camera p
  | .failure text => { w with state := w.state.failure text, stage := .releasing false }
  | .service => { w with stage := .loaded w.invalid_world }

/-- The change is completed with the store. -/
def store (dropped : Bool) : World :=
  { w with
    session_epoch := w.state.aircraft_session.epoch
    stage := .releasing false
    history := { w.history with
      epochs := w.state.aircraft_session.epoch :: w.history.epochs
      changes := if dropped then w.history.changes + 1 else w.history.changes } }

/-- `notify_invalid_camera_world`. -/
def notify : World :=
  { w with
    invalid_world := { w.invalid_world with notice := true }
    history := { w.history with notices := w.history.notices + 1 } }

/-- The exchange of a service; it fails where the notices are not the loaded ones any more. -/
def exchange (pending : InvalidWorld) : World :=
  if pending.notice && w.invalid_world == pending then
    { w with
      invalid_world := { serviced := true }
      stage := .exchanged pending
      history := { w.history with taken := w.history.notices } }
  else { w with stage := .releasing false }

/-- A session that is not loading is another one, unless it was serviced before and not ready since. -/
def renew (pending : InvalidWorld) : World :=
  { w with
    state := { w.state with
      aircraft_session := if !pending.serviced && !w.state.aircraft_session.loading then
          w.state.aircraft_session.changed
        else w.state.aircraft_session }
    stage := .renewed }

def drop_samples : World :=
  { w with
    state := { w.state.reset_session with error := "camera_world_values" }
    stage := .storing true
    history := { w.history with serviced := w.history.taken } }

/-- The next step of the worker. -/
def work : World :=
  match w.stage with
  | .idle => w
  | .acquiring work => if w.holders.isEmpty then { w with stage := .held work } else w
  | .held work => w.perform detect work
  | .storing dropped => w.store dropped
  | .releasing reset => { w with stage := if reset then .notifying else .idle }
  | .notifying => { w.notify with stage := .checking }
  | .checking => { w with stage := if w.invalid_world.notice then .acquiring .service else .idle }
  | .loaded pending => w.exchange pending
  | .exchanged pending => w.renew pending
  | .renewed => w.drop_samples

/-- A service looks at the notices before it asks for the lock. -/
def take_up (work : Work) : World :=
  match w.stage, work with
  | .idle, .service => { w with stage := .checking }
  | .idle, work => { w with stage := .acquiring work }
  | _, _ => w

/-! ## The steps of a reader -/

def reader (r : Nat) (next : Reader) : World := { w with readers := Function.update w.readers r next }

def answer (r : Nat) (begun : History) (out : AircraftSessionReadiness) : World :=
  { w with answers := w.answers ++ [Answer.mk begun w.history out] }.reader r .out

/-- The cached reading is of the epoch and young enough. -/
def serves (now epoch : Nat) : Bool :=
  w.sampled_ms != 0 && decide (w.sampled_ms ≤ now) && decide (now - w.sampled_ms ≤ ReadinessCacheMaxAgeMs) &&
    w.cache.epoch == epoch

def cached_answer (now epoch : Nat) (pending : InvalidWorld) : AircraftSessionReadiness :=
  if !w.serves now epoch then
    { epoch, loading := pending != {}, error := "aircraft_session_cache_busy" }
  else if pending.notice then
    { w.cache with
      cached := true
      ready := false
      flight_loaded := false
      loading := true
      error := "camera_world_revalidation" }
  else { w.cache with cached := true }

/-- A reading is made. -/
def make (r : Nat) (begun : History) (now : Nat) (out : AircraftSessionReadiness) : World :=
  { w with history := { w.history with
      made := if out.ready then out.epoch :: w.history.made else w.history.made } }.reader r
    (.read begun now out)

/-- `readiness_locked` up to its exchange. -/
def read_locked (r : Nat) (begun : History) (now : Nat) : World :=
  let out := w.state.readiness detect now w.invalid_world
  if out.ready && w.invalid_world == { serviced := true } then w.reader r (.exchanging begun now out)
  else w.make r begun now out

/-- The exchange of a reader; another reader may have cleared the notice. -/
def clear (r : Nat) (begun : History) (now : Nat) (out : AircraftSessionReadiness) : World :=
  if w.invalid_world = { serviced := true } then
    { w with invalid_world := {} }.make r begun now (w.state.revalidate out true)
  else w.make r begun now (w.state.revalidate out (w.invalid_world == ({} : InvalidWorld)))

def publish (now : Nat) (out : AircraftSessionReadiness) : World := { w with cache := out, sampled_ms := now }

/-- The next step of a reader. `busy` is what else makes it give up a lock: a writer that waits for the
state, another reader at the cache. -/
def turn (r : Nat) (busy : Bool) : World :=
  match w.readers r with
  | .out => w
  | .started begun now => w.reader r (.entered begun now w.session_epoch)
  | .entered begun now epoch => w.reader r (.loaded begun now epoch w.invalid_world)
  | .loaded begun now epoch pending =>
    if w.stage.holds || busy then w.answer r begun (w.cached_answer now epoch pending)
    else { w with holders := r :: w.holders }.reader r (.locked begun now)
  | .locked begun now => w.read_locked detect r begun now
  | .exchanging begun now out => w.clear r begun now out
  | .read begun now out => { w with holders := w.holders.erase r }.reader r (.publishing begun now out)
  | .publishing begun now out => (if busy then w else w.publish now out).answer r begun out

def start (r now : Nat) : World :=
  match w.readers r with
  | .out => w.reader r (.started w.history now)
  | _ => w

/-! ## The runs -/

inductive Op
  | take_up (work : Work)
  | work
  | notify
  | start (r now : Nat)
  | turn (r : Nat) (busy : Bool)

def step (w : World) : Op → World
  | .take_up work => w.take_up work
  | .work => w.work detect
  | .notify => w.notify
  | .start r now => w.start r now
  | .turn r busy => w.turn detect r busy

/-- The steps outside of which the code can report a session that is gone: a cached reading is served
while a service stands between its exchange and its reset, unless its reader saw the notice; the first
Sim event stops a simulator that was read as ready; a saturated epoch. -/
def admitted (w : World) : Op → Bool
  | .work =>
    w.state.aircraft_session.epoch != UINT64_MAX &&
      match w.stage with
      | .held (.session p) => !w.state.aircraft_session.stops_first p ||
          !w.history.made.contains w.state.aircraft_session.epoch
      | _ => true
  | .turn r _ =>
    match w.readers r with
    | .loaded _ now epoch pending =>
      !w.stage.window || pending.notice || !w.serves now epoch || !w.cache.ready
    | _ => true
  | _ => true

end World

/-! ## What a reader is to report -/

/-- The session epochs from the one that was there at `begun`. -/
def History.during (begun ended : History) : List Nat :=
  ended.epochs.take (ended.epochs.length - begun.epochs.length + 1)

/-- Every sample was accepted after the changes that were completed at `begun`. -/
structure Resampled (begun ended : History) : Prop where
  identity : begun.changes < ended.identity
  aircraft : begun.changes < ended.aircraft
  camera : begun.changes < ended.camera

/-- A ready session of this epoch may be reported. -/
structure Right (begun ended : History) (epoch : Nat) : Prop where
  serviced : begun.notices ≤ ended.serviced
  resampled : Resampled begun ended
  epoch : epoch ∈ begun.during ended

/-- Every reported readiness is right, and no notice is lost: what is not serviced is still noted, or
a service that took it is about to reset the session. -/
structure World.Kept (w : World) : Prop where
  answers : ∀ a ∈ w.answers, a.out.ready = true → Right a.begun a.ended a.out.epoch
  noted : w.history.serviced < w.history.notices →
    w.invalid_world.notice = true ∨ w.stage.window = true

/-! ## How the history goes on -/

structure Grows (h t : History) : Prop where
  notices : h.notices ≤ t.notices
  taken : h.taken ≤ t.taken
  serviced : h.serviced ≤ t.serviced
  changes : h.changes ≤ t.changes
  identity : h.identity ≤ t.identity
  aircraft : h.aircraft ≤ t.aircraft
  camera : h.camera ≤ t.camera
  epochs : ∃ later, t.epochs = later ++ h.epochs
  made : ∀ e ∈ t.made, e ∈ h.made ∨ Resampled h t
  keeps : ∀ e ∈ h.made, e ∈ t.made

variable {h t u : History} {epoch : Nat}

theorem Resampled.grows (hr : Resampled h t) (hg : Grows t u) : Resampled h u where
  identity := Nat.lt_of_lt_of_le hr.identity hg.identity
  aircraft := Nat.lt_of_lt_of_le hr.aircraft hg.aircraft
  camera := Nat.lt_of_lt_of_le hr.camera hg.camera

theorem Resampled.earlier (hr : Resampled t u) (hg : Grows h t) : Resampled h u where
  identity := Nat.lt_of_le_of_lt hg.changes hr.identity
  aircraft := Nat.lt_of_le_of_lt hg.changes hr.aircraft
  camera := Nat.lt_of_le_of_lt hg.changes hr.camera

theorem Resampled.same (hr : Resampled h h) (hchanges : t.changes = h.changes)
    (hidentity : t.identity = h.identity) (haircraft : t.aircraft = h.aircraft)
    (hcamera : t.camera = h.camera) : Resampled t t where
  identity := hchanges ▸ hidentity ▸ hr.identity
  aircraft := hchanges ▸ haircraft ▸ hr.aircraft
  camera := hchanges ▸ hcamera ▸ hr.camera

@[simp] theorem Grows.refl (h : History) : Grows h h :=
  ⟨le_refl _, le_refl _, le_refl _, le_refl _, le_refl _, le_refl _, le_refl _, ⟨[], rfl⟩,
    fun _ he => .inl he, fun _ he => he⟩

theorem Grows.trans (hg : Grows h t) (hu : Grows t u) : Grows h u where
  notices := le_trans hg.notices hu.notices
  taken := le_trans hg.taken hu.taken
  serviced := le_trans hg.serviced hu.serviced
  changes := le_trans hg.changes hu.changes
  identity := le_trans hg.identity hu.identity
  aircraft := le_trans hg.aircraft hu.aircraft
  camera := le_trans hg.camera hu.camera
  epochs := by
    obtain ⟨later, hlater⟩ := hg.epochs
    obtain ⟨latest, hlatest⟩ := hu.epochs
    exact ⟨latest ++ later, by rw [hlatest, hlater, append_assoc]⟩
  made e he := by
    rcases hu.made e he with hbefore | hnew
    · exact (hg.made e hbefore).imp_right fun hr => hr.grows hu
    · exact .inr (hnew.earlier hg)
  keeps e he := hu.keeps e (hg.keeps e he)

/-- An epoch of the read stays one. -/
theorem Grows.during (hg : Grows h t) (hu : Grows t u) (he : epoch ∈ h.during t) : epoch ∈ h.during u := by
  obtain ⟨before, hbefore⟩ := hg.epochs
  obtain ⟨later, hlater⟩ := hu.epochs
  have hlength : u.epochs.length - h.epochs.length + 1 = later.length + (t.epochs.length - h.epochs.length + 1) := by
    rw [hlater, hbefore]
    simp only [length_append]
    omega
  unfold History.during
  rw [hlength, hlater, take_length_add_append]
  exact mem_append_right later he

/-- The epoch that is there is one of the read. -/
theorem Grows.latest {before : List Nat} (ht : t.epochs = epoch :: before) : epoch ∈ h.during t := by
  unfold History.during
  rw [ht, take_succ_cons]
  exact mem_cons_self

theorem Right.grows (hr : Right h t epoch) (hg : Grows h t) (hu : Grows t u) : Right h u epoch where
  serviced := le_trans hr.serviced hu.serviced
  resampled := hr.resampled.grows hu
  epoch := hg.during hu hr.epoch

namespace World

/-! ## The invariant -/

/-- A sample that is there was accepted after the last change. -/
structure Sampled (s : State) (h : History) : Prop where
  identity : min s.identity.type_ms s.identity.path_ms ≠ 0 → h.changes < h.identity
  aircraft : s.aircraft_ms ≠ 0 → h.changes < h.aircraft
  camera : s.camera_ms ≠ 0 → h.changes < h.camera

/-- No reading of the session was ready. -/
def Unread (w : World) : Prop := w.state.aircraft_session.epoch ∉ w.history.made

/-- The session between the worker and its readers. -/
structure Core (w : World) : Prop where
  free : w.stage.holds = true → w.holders = []
  latest : ∃ before, w.history.epochs = w.session_epoch :: before
  published : w.stage.drops = false → w.session_epoch = w.state.aircraft_session.epoch
  behind : w.session_epoch ≤ w.state.aircraft_session.epoch
  bounded : ∀ e ∈ w.history.made, e ≤ w.session_epoch
  closed : w.state.aircraft_session.closed = true → w.Unread
  revalidated : w.invalid_world.serviced = true → w.stage.window = false → w.Unread
  exchanged : ∀ pending, w.stage = .exchanged pending → pending.serviced = true → w.Unread
  renewed : w.stage.drops = true → w.Unread
  dropped : w.stage = .storing true →
    w.state.identity = {} ∧ w.state.aircraft_ms = 0 ∧ w.state.camera_ms = 0
  sampled : Sampled w.state w.history
  marked : w.history.identity ≤ w.history.changes + 1 ∧ w.history.aircraft ≤ w.history.changes + 1 ∧
    w.history.camera ≤ w.history.changes + 1
  current : w.session_epoch ∈ w.history.made → Resampled w.history w.history
  noticed : w.history.taken < w.history.notices → w.invalid_world.notice = true
  taken : w.history.taken ≤ w.history.notices
  serviced : w.history.serviced ≤ w.history.taken
  served : w.stage.window = false → w.history.serviced = w.history.taken
  cached : w.sampled_ms ≠ 0 → w.cache.ready = true → w.cache.epoch ∈ w.history.made

/-- The epoch that a reader loaded: a ready reading of it is good for the reader. -/
structure Loaded (begun ended : History) (epoch : Nat) : Prop where
  grows : Grows begun ended
  seen : epoch ∈ begun.during ended
  made : epoch ∈ ended.made → Resampled begun ended

/-- What holds of a reader, wherever it stands. -/
def Sound (w : World) : Reader → Prop
  | .out => True
  | .started begun _ | .locked begun _ => Grows begun w.history
  | .entered begun _ epoch => Loaded begun w.history epoch
  | .loaded begun _ epoch pending =>
    Loaded begun w.history epoch ∧ (pending.notice = false → begun.notices ≤ w.history.taken)
  | .exchanging begun _ out =>
    Grows begun w.history ∧ begun.notices ≤ w.history.serviced ∧ out.epoch = w.session_epoch ∧
      w.state.aircraft_session.closed = false ∧ Resampled w.history w.history
  | .read begun _ out | .publishing begun _ out =>
    Grows begun w.history ∧
      (out.ready = true → Right begun w.history out.epoch ∧ out.epoch ∈ w.history.made)

structure Lawful (w : World) : Prop where
  core : Core w
  holding : ∀ r, (w.readers r).holds = true → r ∈ w.holders
  readers : ∀ r, w.Sound (w.readers r)
  answers : ∀ a ∈ w.answers, a.out.ready = true → Right a.begun a.ended a.out.epoch

/-- What a step leaves for the readers under the lock. -/
structure Steady (w v : World) : Prop where
  session_epoch : v.session_epoch = w.session_epoch
  closed : v.state.aircraft_session.closed = w.state.aircraft_session.closed
  changes : v.history.changes = w.history.changes

variable {w v : World}
variable {out : AircraftSessionReadiness} {begun : History} {pending : InvalidWorld}
variable {a c i now r : Nat} {next : Reader} {s : Stage}

theorem Loaded.later (hl : Loaded begun h epoch) (hg : Grows h t) : Loaded begun t epoch where
  grows := hl.grows.trans hg
  seen := hl.grows.during hg hl.seen
  made he := by
    rcases hg.made epoch he with hbefore | hnew
    · exact (hl.made hbefore).grows hg
    · exact hnew.earlier hl.grows

/-- A reader stays sound under the steps of the others. -/
theorem Sound.meanwhile {reader : Reader} (hs : w.Sound reader) (hg : Grows w.history v.history)
    (hsteady : reader.holds = true → Steady w v) : v.Sound reader := by
  cases reader with
  | out => trivial
  | started begun now => exact Grows.trans hs hg
  | locked begun now => exact Grows.trans hs hg
  | entered begun now epoch => exact Loaded.later hs hg
  | loaded begun now epoch pending =>
    exact ⟨hs.1.later hg, fun hp => le_trans (hs.2 hp) hg.taken⟩
  | exchanging begun now out =>
    obtain ⟨hgrows, hserviced, hepoch, hclosed, hresampled⟩ := hs
    have hsame := hsteady rfl
    refine ⟨hgrows.trans hg, le_trans hserviced hg.serviced, hepoch.trans hsame.session_epoch.symm,
      hsame.closed.trans hclosed, ?_⟩
    have hlater := hresampled.grows hg
    exact ⟨hsame.changes ▸ hlater.identity, hsame.changes ▸ hlater.aircraft, hsame.changes ▸ hlater.camera⟩
  | read begun now out =>
    refine ⟨hs.1.trans hg, fun hready => ⟨(hs.2 hready).1.grows hs.1 hg, ?_⟩⟩
    exact hg.keeps _ (hs.2 hready).2
  | publishing begun now out =>
    refine ⟨hs.1.trans hg, fun hready => ⟨(hs.2 hready).1.grows hs.1 hg, ?_⟩⟩
    exact hg.keeps _ (hs.2 hready).2

/-! ## The steps of a reader keep it -/

/-- The worker is out of the lock while a reader has it. -/
theorem Lawful.worker_out (h : Lawful w) (hr : (w.readers r).holds = true) : w.stage.holds = false := by
  rw [← Bool.not_eq_true]
  intro hholds
  have hmem := h.holding r hr
  rw [h.core.free hholds] at hmem
  cases hmem

theorem Lawful.turned (h : Lawful w) (hcore : Core v) (hg : Grows w.history v.history) (hsteady : Steady w v)
    (hreaders : v.readers = Function.update w.readers r next) (hnext : v.Sound next)
    (hmine : next.holds = true → r ∈ v.holders) (hothers : ∀ q ∈ w.holders, q ≠ r → q ∈ v.holders)
    (hanswers : ∀ a ∈ v.answers, a ∈ w.answers ∨
      (a.out.ready = true → Right a.begun a.ended a.out.epoch)) : Lawful v where
  core := hcore
  holding q hq := by
    rw [hreaders] at hq
    by_cases hqr : q = r
    · subst hqr
      rw [Function.update_self] at hq
      exact hmine hq
    rw [Function.update_of_ne hqr] at hq
    exact hothers q (h.holding q hq) hqr
  readers q := by
    rw [hreaders]
    by_cases hqr : q = r
    · subst hqr
      rw [Function.update_self]
      exact hnext
    rw [Function.update_of_ne hqr]
    exact (h.readers q).meanwhile hg fun _ => hsteady
  answers a ha := by
    rcases hanswers a ha with hbefore | hnew
    · exact h.answers a hbefore
    · exact hnew

/-- A step of a reader that changes nothing but where it stands. -/
theorem Lawful.moved (h : Lawful w) (hnext : w.Sound next)
    (hmine : next.holds = true → r ∈ w.holders) : Lawful (w.reader r next) :=
  h.turned { h.core with } (Grows.refl _) ⟨rfl, rfl, rfl⟩ rfl
    ((Sound.meanwhile hnext (Grows.refl _) fun _ => ⟨rfl, rfl, rfl⟩)) hmine (fun _ hq _ => hq)
    fun _ ha => .inl ha

theorem Lawful.answered (h : Lawful w)
    (hright : out.ready = true → Right begun w.history out.epoch) : Lawful (w.answer r begun out) :=
  h.turned { h.core with } (Grows.refl _) ⟨rfl, rfl, rfl⟩ rfl trivial nofun
    (fun _ hq _ => hq) fun a ha => by
      rcases mem_append.mp ha with hbefore | hnew
      · exact .inl hbefore
      rw [mem_singleton] at hnew
      subst hnew
      exact .inr hright

theorem serves_spec (hs : w.serves now epoch = true) : w.sampled_ms ≠ 0 ∧ w.cache.epoch = epoch := by
  simp only [serves, Bool.and_eq_true, bne_iff_ne, beq_iff_eq] at hs
  exact ⟨hs.1.1.1, hs.2⟩

theorem cached_answer_ready (hready : (w.cached_answer now epoch pending).ready = true) :
    w.serves now epoch = true ∧ pending.notice = false ∧ w.cache.ready = true ∧
      (w.cached_answer now epoch pending).epoch = w.cache.epoch := by
  unfold cached_answer at hready ⊢
  cases hserves : w.serves now epoch with
  | false =>
    rw [hserves] at hready
    cases hready
  | true =>
    rw [hserves] at hready
    cases hnotice : pending.notice with
    | true =>
      rw [hnotice] at hready
      cases hready
    | false =>
      rw [hnotice] at hready
      exact ⟨rfl, rfl, hready, rfl⟩

/-- From the cache, outside of the window. -/
theorem Lawful.answer_cached (h : Lawful w) (hs : Loaded begun w.history epoch)
    (hnotice : pending.notice = false → begun.notices ≤ w.history.taken)
    (hadmitted : (!w.stage.window || pending.notice || !w.serves now epoch || !w.cache.ready) = true) :
    Lawful (w.answer r begun (w.cached_answer now epoch pending)) := by
  apply h.answered
  intro hready
  obtain ⟨hserves, hpending, hcache, hepoch⟩ := cached_answer_ready hready
  obtain ⟨hsampled, hsame⟩ := serves_spec hserves
  have hwindow : w.stage.window = false := by simpa [hpending, hserves, hcache] using hadmitted
  have hmade := h.core.cached hsampled hcache
  rw [hsame] at hmade
  rw [hepoch, hsame]
  exact ⟨h.core.served hwindow ▸ hnotice hpending, hs.made hmade, hs.seen⟩

theorem window_of_not_holds (hs : s.holds = false) : s.window = false := by
  cases s <;> simp_all [Stage.holds, Stage.window]

theorem drops_of_not_holds (hs : s.holds = false) : s.drops = false := by
  cases s <;> simp_all [Stage.holds, Stage.drops]

/-- A ready reading under the lock. -/
structure Readable (w : World) (out : AircraftSessionReadiness) : Prop where
  epoch : out.epoch = w.session_epoch
  opened : w.state.aircraft_session.closed = false
  serviced : w.invalid_world.serviced = false
  resampled : Resampled w.history w.history

theorem made_grows (out : AircraftSessionReadiness) (hready : out.ready = true → Resampled w.history w.history) :
    Grows w.history { w.history with
      made := if out.ready then out.epoch :: w.history.made else w.history.made } where
  notices := le_refl _
  taken := le_refl _
  serviced := le_refl _
  changes := le_refl _
  identity := le_refl _
  aircraft := le_refl _
  camera := le_refl _
  epochs := ⟨[], rfl⟩
  made e he := by
    cases hr : out.ready with
    | false =>
      rw [hr] at he
      exact .inl he
    | true =>
      have hresampled := hready hr
      exact .inr ⟨hresampled.identity, hresampled.aircraft, hresampled.camera⟩
  keeps e he := by
    split
    · exact mem_cons_of_mem _ he
    · exact he

theorem Core.made (h : Core w) (hout : w.stage.holds = false) (hready : out.ready = true → w.Readable out) :
    Core (w.make r begun now out) := by
  cases hr : out.ready with
  | false =>
    have hsame : w.make r begun now out = w.reader r (.read begun now out) := by simp [make, hr]
    rw [hsame]
    exact { h with }
  | true =>
    have hreadable := hready hr
    have hsame : w.make r begun now out = { w with
        history := { w.history with made := out.epoch :: w.history.made } }.reader r
          (.read begun now out) := by simp [make, hr]
    rw [hsame]
    exact { h with
      bounded := fun e he => by
        rcases mem_cons.mp he with hnew | hbefore
        · exact le_of_eq (hnew.trans hreadable.epoch)
        · exact h.bounded e hbefore
      closed := fun hclosed => absurd hclosed (by simp [reader, hreadable.opened])
      revalidated := fun hserviced => absurd hserviced (by simp [reader, hreadable.serviced])
      exchanged := fun pending hstage => by
        change w.stage = _ at hstage
        rw [hstage] at hout
        cases hout
      renewed := fun hdrops => by
        change w.stage.drops = true at hdrops
        rw [drops_of_not_holds hout] at hdrops
        cases hdrops
      sampled := ⟨h.sampled.identity, h.sampled.aircraft, h.sampled.camera⟩
      current := fun _ =>
        ⟨hreadable.resampled.identity, hreadable.resampled.aircraft, hreadable.resampled.camera⟩
      cached := fun hsampled hcache => mem_cons_of_mem _ (h.cached hsampled hcache) }

/-- A reader makes its reading. -/
theorem Lawful.made (h : Lawful w) (hr : (w.readers r).holds = true) (hg : Grows begun w.history)
    (hserviced : out.ready = true → begun.notices ≤ w.history.serviced)
    (hready : out.ready = true → w.Readable out) : Lawful (w.make r begun now out) := by
  have hgrows := made_grows out fun hout => (hready hout).resampled
  refine h.turned (h.core.made (h.worker_out hr) hready) hgrows ⟨rfl, rfl, rfl⟩ rfl
    ⟨hg.trans hgrows, fun hout => ⟨Right.grows ?_ hg hgrows, ?_⟩⟩ (fun _ => h.holding r hr)
    (fun _ hq _ => hq) fun _ ha => .inl ha
  · have hreadable := hready hout
    obtain ⟨before, hbefore⟩ := h.core.latest
    exact ⟨hserviced hout, hreadable.resampled.earlier hg, hreadable.epoch ▸ Grows.latest hbefore⟩
  · change out.epoch ∈ if out.ready then out.epoch :: w.history.made else w.history.made
    rw [hout, if_pos rfl]
    exact mem_cons_self

/-- What a ready telemetry says of the samples. -/
theorem Sampled.resampled {s : State} (hs : Sampled s h) (ht : s.telemetry detect now = true) : Resampled h h := by
  simp only [State.telemetry, AircraftIdentityCache.sample, fresh, Bool.and_eq_true, bne_iff_ne] at ht
  exact ⟨hs.identity ht.1.1.1.1.1, hs.aircraft ht.1.2.1.1, hs.camera ht.2.1.1⟩

theorem readiness_ready {s : State} (hready : (s.readiness detect now pending).ready = true) :
    s.aircraft_session.closed = false ∧ pending.notice = false ∧ s.telemetry detect now = true := by
  simp only [State.readiness, Bool.and_eq_true, Bool.not_eq_true'] at hready
  obtain ⟨⟨⟨hloading, hrunning⟩, hnotice⟩, htelemetry⟩ := hready
  exact ⟨by simp [AircraftSessionLifecycle.closed, hloading, hrunning], hnotice, htelemetry⟩

/-- Without a notice a service has taken all of them. -/
theorem Core.all_taken (h : Core w) (hnotice : w.invalid_world.notice = false) :
    w.history.notices ≤ w.history.taken := by
  by_contra hlt
  have hnoted := h.noticed (Nat.lt_of_not_le hlt)
  rw [hnotice] at hnoted
  cases hnoted

theorem Lawful.read_locked (h : Lawful w)
    (hr : w.readers r = .locked begun now) : Lawful (w.read_locked detect r begun now) := by
  have hholds : (w.readers r).holds = true := by rw [hr]; rfl
  have hg : Grows begun w.history := by
    have hsound := h.readers r
    rwa [hr] at hsound
  have hout := h.worker_out hholds
  have hepoch := h.core.published (drops_of_not_holds hout)
  have hserviced : w.invalid_world.notice = false → begun.notices ≤ w.history.serviced := fun hnotice =>
    le_trans hg.notices (h.core.served (window_of_not_holds hout) ▸ h.core.all_taken hnotice)
  unfold World.read_locked
  dsimp only
  split
  · rename_i hexchange
    simp only [Bool.and_eq_true, beq_iff_eq] at hexchange
    obtain ⟨hclosed, hnotice, htelemetry⟩ := readiness_ready hexchange.1
    exact h.moved ⟨hg, hserviced hnotice, hepoch.symm, hclosed, h.core.sampled.resampled htelemetry⟩
      fun _ => h.holding r hholds
  rename_i hmakes
  refine h.made hholds hg (fun hready => hserviced (readiness_ready hready).2.1) fun hready => ?_
  obtain ⟨hclosed, hnotice, htelemetry⟩ := readiness_ready hready
  refine ⟨hepoch.symm, hclosed, ?_, h.core.sampled.resampled htelemetry⟩
  rw [← Bool.not_eq_true]
  intro hserviced
  apply hmakes
  have hworld : w.invalid_world = { serviced := true } := by
    cases hw : w.invalid_world
    rw [hw] at hnotice hserviced
    simp_all
  rw [hready]
  simp [hworld]

/-- The notices are cleared under the lock. -/
theorem Lawful.cleared (h : Lawful w) (hworld : w.invalid_world = { serviced := true }) :
    Lawful { w with invalid_world := {} } where
  core := { h.core with
    revalidated := nofun
    noticed := fun hlt => by
      have hnotice := h.core.noticed hlt
      rw [hworld] at hnotice
      cases hnotice }
  holding := h.holding
  readers r := (h.readers r).meanwhile (Grows.refl _) fun _ => ⟨rfl, rfl, rfl⟩
  answers := h.answers

theorem Lawful.clear (h : Lawful w)
    (hr : w.readers r = .exchanging begun now out) : Lawful (w.clear r begun now out) := by
  have hholds : (w.readers r).holds = true := by rw [hr]; rfl
  have hsound := h.readers r
  rw [hr] at hsound
  obtain ⟨hg, hserviced, hepoch, hopened, hresampled⟩ := hsound
  unfold World.clear
  split
  · rename_i hworld
    exact (h.cleared hworld).made hholds hg (fun _ => hserviced) fun _ => ⟨hepoch, hopened, rfl, hresampled⟩
  refine h.made hholds hg (fun _ => hserviced) fun hready => ⟨hepoch, hopened, ?_, hresampled⟩
  have hworld : w.invalid_world = {} := by simpa [State.revalidate] using hready
  rw [hworld]

theorem Lawful.release (h : Lawful w) (hr : w.readers r = .read begun now out) :
    Lawful ({ w with holders := w.holders.erase r }.reader r (.publishing begun now out)) := by
  have hholds : (w.readers r).holds = true := by rw [hr]; rfl
  have hsound := h.readers r
  rw [hr] at hsound
  have hcore : Core { w with holders := w.holders.erase r } := { h.core with
    free := fun hstage => absurd (h.worker_out hholds) (by
      rw [Bool.not_eq_false]
      exact hstage) }
  exact h.turned { hcore with } (Grows.refl _) ⟨rfl, rfl, rfl⟩ rfl hsound nofun
    (fun q hq hqr => (mem_erase_of_ne hqr).mpr hq) fun _ ha => .inl ha

theorem Lawful.publish (h : Lawful w)
    (hmade : out.ready = true → out.epoch ∈ w.history.made) : Lawful (w.publish now out) where
  core := { h.core with cached := fun _ hready => hmade hready }
  holding := h.holding
  readers r := (h.readers r).meanwhile (Grows.refl _) fun _ => ⟨rfl, rfl, rfl⟩
  answers := h.answers

theorem Lawful.lock (h : Lawful w) (hout : w.stage.holds = false) (hg : Grows begun w.history) :
    Lawful ({ w with holders := r :: w.holders }.reader r (.locked begun now)) := by
  have hcore : Core { w with holders := r :: w.holders } := { h.core with
    free := fun hstage => absurd hout (by
      rw [Bool.not_eq_false]
      exact hstage) }
  exact h.turned { hcore with } (Grows.refl _) ⟨rfl, rfl, rfl⟩ rfl hg (fun _ => mem_cons_self)
    (fun q hq _ => mem_cons_of_mem r hq) fun _ ha => .inl ha

theorem Lawful.turn (h : Lawful w) {busy : Bool} (hadmitted : w.admitted (.turn r busy) = true) :
    Lawful (w.turn detect r busy) := by
  have hsound := h.readers r
  unfold World.turn
  cases hr : w.readers r with
  | out => exact h
  | started begun now =>
    rw [hr] at hsound
    obtain ⟨before, hbefore⟩ := h.core.latest
    exact h.moved ⟨hsound, Grows.latest hbefore, fun hmade => (h.core.current hmade).earlier hsound⟩
      nofun
  | entered begun now epoch =>
    rw [hr] at hsound
    exact h.moved ⟨hsound, fun hnotice => le_trans hsound.grows.notices (h.core.all_taken hnotice)⟩
      nofun
  | loaded begun now epoch pending =>
    rw [hr] at hsound
    simp only [admitted, hr] at hadmitted
    dsimp only
    split
    · exact h.answer_cached hsound.1 hsound.2 hadmitted
    rename_i hfree
    rw [Bool.not_eq_true, Bool.or_eq_false_iff] at hfree
    exact h.lock hfree.1 hsound.1.grows
  | locked begun now => exact h.read_locked hr
  | exchanging begun now out => exact h.clear hr
  | read begun now out => exact h.release hr
  | publishing begun now out =>
    rw [hr] at hsound
    dsimp only
    split
    · exact h.answered fun hready => (hsound.2 hready).1
    · exact (h.publish fun hready => (hsound.2 hready).2).answered fun hready => (hsound.2 hready).1

theorem Lawful.start (h : Lawful w) (r now : Nat) : Lawful (w.start r now) := by
  unfold World.start
  split
  · exact h.moved (Grows.refl _) nofun
  · exact h

/-! ## The steps of the worker keep it -/

theorem Lawful.worked (h : Lawful w) (hcore : Core v) (hg : Grows w.history v.history)
    (hreaders : v.readers = w.readers) (hholders : v.holders = w.holders)
    (hanswers : v.answers = w.answers) (hsteady : w.stage.holds = true ∨ Steady w v) : Lawful v where
  core := hcore
  holding r hr := by
    rw [hreaders] at hr
    rw [hholders]
    exact h.holding r hr
  readers r := by
    rw [hreaders]
    apply (h.readers r).meanwhile hg
    intro hr
    rcases hsteady with hholds | hsteady
    · rw [h.worker_out hr] at hholds
      cases hholds
    · exact hsteady
  answers := hanswers ▸ h.answers

/-- Nothing of the session is under way. -/
structure Plain (s : Stage) : Prop where
  drops : s.drops = false
  window : s.window = false

theorem Core.staged (h : Core w) (hbefore : Plain w.stage) (hafter : Plain s)
    (hfree : s.holds = true → w.holders = []) : Core { w with stage := s } := { h with
  free := hfree
  published := fun _ => h.published hbefore.drops
  revalidated := fun hserviced _ => h.revalidated hserviced hbefore.window
  exchanged := fun pending hstage => by
    have hwindow := hafter.window
    change s = _ at hstage
    rw [hstage] at hwindow
    cases hwindow
  renewed := fun hdrops => absurd hdrops (by rw [hafter.drops]; exact Bool.false_ne_true)
  dropped := fun hstage => by
    have hdrops := hafter.drops
    change s = _ at hstage
    rw [hstage] at hdrops
    cases hdrops
  served := fun _ => h.served hbefore.window }

theorem Lawful.staged (h : Lawful w) (hbefore : Plain w.stage) (hafter : Plain s)
    (hfree : s.holds = true → w.holders = []) : Lawful { w with stage := s } :=
  h.worked (h.core.staged hbefore hafter hfree) (Grows.refl _) rfl rfl rfl (.inr ⟨rfl, rfl, rfl⟩)

/-- The marks of samples go up to the next change. -/
structure Marks (h : History) (identity aircraft camera : Nat) : Prop where
  identity : identity = h.identity ∨ identity = h.changes + 1
  aircraft : aircraft = h.aircraft ∨ aircraft = h.changes + 1
  camera : camera = h.camera ∨ camera = h.changes + 1

theorem mark_grows {old new changes : Nat} (hmarked : old ≤ changes + 1)
    (hnew : new = old ∨ new = changes + 1) : old ≤ new ∧ new ≤ changes + 1 := by
  omega

theorem Core.marks_grow (h : Core w) (hm : Marks w.history i a c) :
    Grows w.history { w.history with identity := i, aircraft := a, camera := c } where
  notices := le_refl _
  taken := le_refl _
  serviced := le_refl _
  changes := le_refl _
  identity := (mark_grows h.marked.1 hm.identity).1
  aircraft := (mark_grows h.marked.2.1 hm.aircraft).1
  camera := (mark_grows h.marked.2.2 hm.camera).1
  epochs := ⟨[], rfl⟩
  made _ he := .inl he
  keeps _ he := he

theorem Core.marks_kept (h : Core w) (hm : Marks w.history i a c) :
    i ≤ w.history.changes + 1 ∧ a ≤ w.history.changes + 1 ∧ c ≤ w.history.changes + 1 :=
  ⟨(mark_grows h.marked.1 hm.identity).2, (mark_grows h.marked.2.1 hm.aircraft).2,
    (mark_grows h.marked.2.2 hm.camera).2⟩

/-- The worker accepts a sample, or drops one, in the same session. -/
theorem Lawful.accepted (h : Lawful w) {s : State} {reset : Bool}
    (hholds : w.stage.holds = true) (hplain : Plain w.stage)
    (hsession : s.aircraft_session = w.state.aircraft_session) (hm : Marks w.history i a c)
    (hsampled : Sampled s { w.history with identity := i, aircraft := a, camera := c }) :
    Lawful { w with
      state := s
      stage := .releasing reset
      history := { w.history with identity := i, aircraft := a, camera := c } } := by
  have hgrows := h.core.marks_grow hm
  have hbase := h.core.staged hplain ⟨rfl, rfl⟩ (s := .releasing reset) fun _ => h.core.free hholds
  refine h.worked { hbase with
    published := fun hdrops => ?_
    behind := ?_
    closed := fun hclosed => ?_
    revalidated := fun hserviced hwindow => ?_
    exchanged := fun pending hstage => by cases hstage
    renewed := nofun
    dropped := nofun
    sampled := hsampled
    marked := h.core.marks_kept hm
    current := fun hmade => ?_ } hgrows rfl rfl rfl (.inl hholds)
  · rw [hsession]
    exact h.core.published hplain.drops
  · rw [hsession]
    exact h.core.behind
  · change s.aircraft_session.epoch ∉ w.history.made
    rw [hsession] at hclosed ⊢
    exact h.core.closed hclosed
  · change s.aircraft_session.epoch ∉ w.history.made
    rw [hsession]
    exact h.core.revalidated hserviced hplain.window
  · have hresampled := (h.core.current hmade).grows hgrows
    exact ⟨hresampled.identity, hresampled.aircraft, hresampled.camera⟩

/-- The worker drops every sample with a session that nobody has read. -/
theorem Lawful.dropped (h : Lawful w) {s : State} (hholds : w.stage.holds = true) (hplain : Plain w.stage)
    (hbehind : w.session_epoch ≤ s.aircraft_session.epoch)
    (hunread : s.aircraft_session.epoch ∉ w.history.made) (hm : Marks w.history i a c)
    (hzero : s.identity = {} ∧ s.aircraft_ms = 0 ∧ s.camera_ms = 0) :
    Lawful { w with
      state := s
      stage := .storing true
      history := { w.history with identity := i, aircraft := a, camera := c } } := by
  have hgrows := h.core.marks_grow hm
  refine h.worked { h.core with
    free := fun _ => h.core.free hholds
    published := nofun
    behind := hbehind
    closed := fun _ => hunread
    revalidated := fun _ _ => hunread
    exchanged := fun pending hstage => by cases hstage
    renewed := fun _ => hunread
    dropped := fun _ => hzero
    sampled := ?_
    marked := h.core.marks_kept hm
    current := fun hmade => ?_
    served := fun _ => h.core.served hplain.window } hgrows rfl rfl rfl (.inl hholds)
  · exact ⟨fun hms => absurd (by rw [hzero.1]; rfl) hms, fun hms => absurd hzero.2.1 hms,
      fun hms => absurd hzero.2.2 hms⟩
  · have hresampled := (h.core.current hmade).grows hgrows
    exact ⟨hresampled.identity, hresampled.aircraft, hresampled.camera⟩

theorem Core.marks_same (_ : Core w) : Marks w.history w.history.identity w.history.aircraft w.history.camera :=
  ⟨.inl rfl, .inl rfl, .inl rfl⟩

theorem mark_choice (b : Bool) (old changes : Nat) :
    (if b then changes + 1 else old) = old ∨ (if b then changes + 1 else old) = changes + 1 := by
  cases b with
  | true => exact .inr rfl
  | false => exact .inl rfl

theorem Lawful.perform_aircraft (h : Lawful w) {p : AircraftPacket}
    (hholds : w.stage.holds = true) (hplain : Plain w.stage) : Lawful (w.perform_aircraft p) := by
  have hsampled := h.core.sampled
  refine h.accepted hholds hplain ?_ ⟨.inl rfl, mark_choice _ _ _, .inl rfl⟩ ?_
  · unfold State.accept_aircraft_packet
    split
    · rfl
    split
    · rfl
    · rfl
  · unfold State.accept_aircraft_packet
    cases hshaped : State.aircraft_shaped p with
    | false => exact hsampled
    | true =>
      cases hvalid : p.pose_valid with
      | true => exact ⟨hsampled.identity, fun _ => Nat.lt_succ_self _, hsampled.camera⟩
      | false => exact ⟨hsampled.identity, fun hms => absurd rfl hms, fun hms => absurd rfl hms⟩

theorem Lawful.perform_camera (h : Lawful w) {p : CameraPacket}
    (hholds : w.stage.holds = true) (hplain : Plain w.stage) : Lawful (w.perform_camera p) := by
  have hsampled := h.core.sampled
  refine h.accepted hholds hplain ?_ ⟨.inl rfl, .inl rfl, mark_choice _ _ _⟩ ?_
  · unfold State.accept_camera_packet
    split
    · rfl
    split
    · rfl
    · rfl
  · unfold State.accept_camera_packet
    cases hshaped : State.camera_shaped p with
    | false => exact hsampled
    | true =>
      cases hvalid : p.valid with
      | true => exact ⟨hsampled.identity, hsampled.aircraft, fun _ => Nat.lt_succ_self _⟩
      | false => exact ⟨hsampled.identity, hsampled.aircraft, hsampled.camera⟩

/-- A value that is not complete leaves the one before in its place. -/
theorem settle_times (s : AircraftIdentityCache)
    (hopen : ¬(s.settle.pending_type_ms = 0 ∧ s.settle.pending_path_ms = 0)) :
    s.settle.type_ms = s.type_ms ∧ s.settle.path_ms = s.path_ms := by
  unfold AircraftIdentityCache.settle at hopen ⊢
  split
  · rename_i hboth
    rw [if_pos hboth] at hopen
    exact absurd ⟨rfl, rfl⟩ hopen
  · exact ⟨rfl, rfl⟩

theorem identity_accept_times (s : AircraftIdentityCache) (p : IdentityPacket) (now : Nat)
    (hopen : completes (s.accept p now) = false) :
    (s.accept p now).1.type_ms = s.type_ms ∧ (s.accept p now).1.path_ms = s.path_ms := by
  have hsettle : ∀ t : AircraftIdentityCache, completes (t.settle, true) = false →
      t.settle.type_ms = t.type_ms ∧ t.settle.path_ms = t.path_ms := fun t ht => by
    apply settle_times
    simpa [completes] using ht
  unfold AircraftIdentityCache.accept at hopen ⊢
  split
  · exact ⟨rfl, rfl⟩
  rename_i hshaped
  rw [if_neg hshaped] at hopen
  dsimp only at hopen ⊢
  split
  · exact ⟨rfl, rfl⟩
  rename_i hone
  rw [if_neg hone] at hopen
  split
  · rename_i htype
    rw [if_pos htype] at hopen
    exact hsettle _ hopen
  rename_i hpath
  rw [if_neg hpath] at hopen
  exact hsettle _ hopen

theorem Core.next_unread (h : Core w) : w.state.aircraft_session.epoch + 1 ∉ w.history.made := by
  intro hmade
  have hbounded := h.bounded _ hmade
  have hbehind := h.behind
  omega

theorem Lawful.perform_identity (h : Lawful w) {p : IdentityPacket}
    (hholds : w.stage.holds = true) (hplain : Plain w.stage)
    (hepoch : w.state.aircraft_session.epoch ≠ UINT64_MAX) :
    Lawful (w.perform_identity detect p now) := by
  have hmarks : Marks w.history
      (if completes (w.state.identity.accept p now) then w.history.changes + 1 else w.history.identity)
      w.history.aircraft w.history.camera := ⟨mark_choice _ _ _, .inl rfl, .inl rfl⟩
  unfold World.perform_identity
  dsimp only
  split
  · have hnext := AircraftSessionLifecycle.changed_epoch hepoch
    refine h.dropped hholds hplain ?_ ?_ hmarks ⟨rfl, rfl, rfl⟩
    · change w.session_epoch ≤ w.state.aircraft_session.changed.epoch
      rw [hnext]
      exact Nat.le_succ_of_le h.core.behind
    · change w.state.aircraft_session.changed.epoch ∉ w.history.made
      rw [hnext]
      exact h.core.next_unread
  refine h.accepted hholds hplain rfl hmarks ⟨fun hms => ?_, h.core.sampled.aircraft, h.core.sampled.camera⟩
  cases hdone : completes (w.state.identity.accept p now) with
  | true => exact Nat.lt_succ_self _
  | false =>
    obtain ⟨htype, hpath⟩ := identity_accept_times _ _ _ hdone
    apply h.core.sampled.identity
    rw [← htype, ← hpath]
    exact hms

theorem Lawful.perform_session (h : Lawful w) {p : SessionPacket}
    (hstage : w.stage = .held (.session p)) (hadmitted : w.admitted .work = true) :
    Lawful (w.perform_session p) := by
  have hholds : w.stage.holds = true := by rw [hstage]; rfl
  have hplain : Plain w.stage := by rw [hstage]; exact ⟨rfl, rfl⟩
  simp only [admitted, hstage, Bool.and_eq_true, bne_iff_ne, Bool.or_eq_true, Bool.not_eq_true'] at hadmitted
  obtain ⟨hepoch, hfirst⟩ := hadmitted
  have hturns : AircraftSessionLifecycle.Turns w.Unread w.state.aircraft_session
      (w.state.aircraft_session.accept p).1 (w.state.aircraft_session.accept p).2 :=
    AircraftSessionLifecycle.accept_turns hepoch h.core.closed fun hstops => by
      rcases hfirst with hgoes | hunread
      · rw [hgoes] at hstops
        cases hstops
      · simpa [Unread] using hunread
  have hunread : (w.state.aircraft_session.accept p).2 = true ∨ (w.state.aircraft_session.accept p).1.closed = true →
      (w.state.aircraft_session.accept p).1.epoch ∉ w.history.made := fun hends => by
    rcases hturns.renewed hends with hnext | hquiet
    · exact hnext ▸ h.core.next_unread
    rcases hturns.epoch with hsame | ⟨hnext, -⟩
    · exact hsame ▸ hquiet
    · exact hnext ▸ h.core.next_unread
  unfold World.perform_session
  dsimp only
  cases hdropped : ((w.state.aircraft_session.accept p).2 || !(w.state.aircraft_session.accept p).1.running) with
  | true =>
    refine h.dropped hholds hplain ?_ (hunread ?_) h.core.marks_same ⟨rfl, rfl, rfl⟩
    · have hbehind := h.core.behind
      change w.session_epoch ≤ (w.state.aircraft_session.accept p).1.epoch
      rcases hturns.epoch with hsame | ⟨hnext, -⟩ <;> omega
    · rw [Bool.or_eq_true] at hdropped
      refine hdropped.imp_right fun hstopped => ?_
      rw [AircraftSessionLifecycle.closed, hstopped, Bool.or_true]
  | false =>
    rw [Bool.or_eq_false_iff] at hdropped
    have hsame : (w.state.aircraft_session.accept p).1.epoch = w.state.aircraft_session.epoch := by
      rcases hturns.epoch with hsame | ⟨-, hdrops⟩
      · exact hsame
      rw [hdropped.1] at hdrops
      cases hdrops
    refine h.worked { h.core with
      free := fun _ => h.core.free hholds
      published := fun _ => (h.core.published hplain.drops).trans hsame.symm
      behind := le_of_le_of_eq h.core.behind hsame.symm
      closed := fun hclosed => hunread (.inr hclosed)
      revalidated := fun hserviced _ => ?_
      exchanged := fun pending hnext => by cases hnext
      renewed := fun hno => by cases hno
      dropped := fun hno => by cases hno
      sampled := ⟨h.core.sampled.identity, h.core.sampled.aircraft, h.core.sampled.camera⟩
      served := fun _ => h.core.served hplain.window } (Grows.refl _) rfl rfl rfl (.inl hholds)
    change (w.state.aircraft_session.accept p).1.epoch ∉ w.history.made
    rw [hsame]
    exact h.core.revalidated hserviced hplain.window

/-- The epoch is stored, and the change is completed. -/
theorem Lawful.store (h : Lawful w) {dropped : Bool} (hstage : w.stage = .storing dropped) :
    Lawful (w.store dropped) := by
  have hholds : w.stage.holds = true := by rw [hstage]; rfl
  have hwindow : w.stage.window = false := by rw [hstage]; rfl
  have hle : w.history.changes ≤ if dropped then w.history.changes + 1 else w.history.changes := by
    split
    · exact Nat.le_succ _
    · exact le_refl _
  have hgrows : Grows w.history (w.store dropped).history :=
    ⟨le_refl _, le_refl _, le_refl _, hle, le_refl _, le_refl _, le_refl _, ⟨[_], rfl⟩,
      fun _ he => .inl he, fun _ he => he⟩
  refine h.worked { h.core with
    free := fun _ => h.core.free hholds
    latest := ⟨_, rfl⟩
    published := fun _ => rfl
    behind := le_refl _
    bounded := fun e he => le_trans (h.core.bounded e he) h.core.behind
    revalidated := fun hserviced _ => h.core.revalidated hserviced hwindow
    exchanged := fun pending hnext => by cases hnext
    renewed := nofun
    dropped := nofun
    sampled := ?_
    marked := ?_
    current := fun hmade => ?_
    served := fun _ => h.core.served hwindow } hgrows rfl rfl rfl (.inl hholds)
  · cases dropped with
    | true =>
      obtain ⟨hidentity, haircraft, hcamera⟩ := h.core.dropped hstage
      exact ⟨fun hms => absurd (by change min w.state.identity.type_ms _ = 0; rw [hidentity]; rfl) hms,
        fun hms => absurd haircraft hms, fun hms => absurd hcamera hms⟩
    | false => exact ⟨h.core.sampled.identity, h.core.sampled.aircraft, h.core.sampled.camera⟩
  · obtain ⟨hidentity, haircraft, hcamera⟩ := h.core.marked
    have hnext := Nat.succ_le_succ hle
    exact ⟨le_trans hidentity hnext, le_trans haircraft hnext, le_trans hcamera hnext⟩
  · cases dropped with
    | true => exact absurd hmade (h.core.renewed (by rw [hstage]; rfl))
    | false =>
      have hsame := h.core.published (by rw [hstage]; rfl)
      change w.state.aircraft_session.epoch ∈ w.history.made at hmade
      rw [← hsame] at hmade
      have hresampled := h.core.current hmade
      exact ⟨hresampled.identity, hresampled.aircraft, hresampled.camera⟩

theorem Lawful.notify (h : Lawful w) : Lawful w.notify :=
  h.worked { h.core with
      sampled := ⟨h.core.sampled.identity, h.core.sampled.aircraft, h.core.sampled.camera⟩
      current := fun hmade => Resampled.same (h.core.current hmade) rfl rfl rfl rfl
      noticed := fun _ => rfl
      taken := Nat.le_succ_of_le h.core.taken }
    ⟨Nat.le_succ _, le_refl _, le_refl _, le_refl _, le_refl _, le_refl _, le_refl _, ⟨[], rfl⟩,
      fun _ he => .inl he, fun _ he => he⟩ rfl rfl rfl (.inr ⟨rfl, rfl, rfl⟩)

theorem Lawful.exchange (h : Lawful w) (hstage : w.stage = .loaded pending) : Lawful (w.exchange pending) := by
  have hholds : w.stage.holds = true := by rw [hstage]; rfl
  have hplain : Plain w.stage := by rw [hstage]; exact ⟨rfl, rfl⟩
  unfold World.exchange
  split
  · rename_i hnoted
    simp only [Bool.and_eq_true, beq_iff_eq] at hnoted
    have hgrows : Grows w.history { w.history with taken := w.history.notices } :=
      ⟨le_refl _, h.core.taken, le_refl _, le_refl _, le_refl _, le_refl _, le_refl _, ⟨[], rfl⟩,
        fun _ he => .inl he, fun _ he => he⟩
    refine h.worked { h.core with
      free := fun _ => h.core.free hholds
      published := fun _ => h.core.published hplain.drops
      revalidated := nofun
      exchanged := fun other hnext hserviced => ?_
      renewed := nofun
      dropped := nofun
      sampled := ⟨h.core.sampled.identity, h.core.sampled.aircraft, h.core.sampled.camera⟩
      current := fun hmade => Resampled.same (h.core.current hmade) rfl rfl rfl rfl
      noticed := fun hlt => absurd hlt (Nat.lt_irrefl _)
      taken := le_refl _
      serviced := le_trans h.core.serviced h.core.taken
      served := fun hno => by cases hno } hgrows rfl rfl rfl (.inl hholds)
    cases hnext
    exact h.core.revalidated (hnoted.2 ▸ hserviced) hplain.window
  · exact h.staged hplain ⟨rfl, rfl⟩ fun _ => h.core.free hholds

theorem Lawful.renew (h : Lawful w) (hstage : w.stage = .exchanged pending)
    (hepoch : w.state.aircraft_session.epoch ≠ UINT64_MAX) : Lawful (w.renew pending) := by
  have hholds : w.stage.holds = true := by rw [hstage]; rfl
  have hdrops : w.stage.drops = false := by rw [hstage]; rfl
  have hpublished := h.core.published hdrops
  have hafter : w.session_epoch ≤ (w.renew pending).state.aircraft_session.epoch ∧
      (w.renew pending).state.aircraft_session.epoch ∉ w.history.made := by
    unfold World.renew
    split
    · rw [AircraftSessionLifecycle.changed_epoch hepoch]
      exact ⟨Nat.le_succ_of_le h.core.behind, h.core.next_unread⟩
    rename_i hkeeps
    refine ⟨h.core.behind, ?_⟩
    cases hserviced : pending.serviced with
    | true => exact h.core.exchanged pending hstage hserviced
    | false =>
      have hloading : w.state.aircraft_session.loading = true := by simpa [hserviced] using hkeeps
      apply h.core.closed
      rw [AircraftSessionLifecycle.closed, hloading, Bool.true_or]
  exact h.worked { h.core with
    free := fun _ => h.core.free hholds
    published := fun hno => by cases hno
    behind := hafter.1
    closed := fun _ => hafter.2
    revalidated := fun _ hno => by cases hno
    exchanged := fun other hnext => by cases hnext
    renewed := fun _ => hafter.2
    dropped := fun hno => by cases hno
    sampled := ⟨h.core.sampled.identity, h.core.sampled.aircraft, h.core.sampled.camera⟩
    served := fun hno => by cases hno } (Grows.refl _) rfl rfl rfl (.inl hholds)

/-- With the reset the taken notices are serviced. -/
theorem Lawful.drop_samples (h : Lawful w) (hstage : w.stage = .renewed) : Lawful w.drop_samples := by
  have hholds : w.stage.holds = true := by rw [hstage]; rfl
  have hunread := h.core.renewed (by rw [hstage]; rfl)
  exact h.worked { h.core with
      free := fun _ => h.core.free hholds
      published := nofun
      closed := fun _ => hunread
      revalidated := fun _ _ => hunread
      exchanged := fun other hnext => by cases hnext
      renewed := fun _ => hunread
      dropped := fun _ => ⟨rfl, rfl, rfl⟩
      sampled := ⟨fun hms => absurd rfl hms, fun hms => absurd rfl hms, fun hms => absurd rfl hms⟩
      current := fun hmade => Resampled.same (h.core.current hmade) rfl rfl rfl rfl
      serviced := le_refl _
      served := fun _ => rfl }
    ⟨le_refl _, le_refl _, h.core.serviced, le_refl _, le_refl _, le_refl _, le_refl _, ⟨[], rfl⟩,
      fun _ he => .inl he, fun _ he => he⟩ rfl rfl rfl (.inl hholds)

theorem Lawful.perform (h : Lawful w) {work : Work} (hstage : w.stage = .held work)
    (hadmitted : w.admitted .work = true) : Lawful (w.perform detect work) := by
  have hholds : w.stage.holds = true := by rw [hstage]; rfl
  have hplain : Plain w.stage := by rw [hstage]; exact ⟨rfl, rfl⟩
  have hsampled := h.core.sampled
  cases work with
  | session p => exact h.perform_session hstage hadmitted
  | identity p now =>
    have hepoch : w.state.aircraft_session.epoch ≠ UINT64_MAX := by
      simp only [admitted, Bool.and_eq_true, bne_iff_ne] at hadmitted
      exact hadmitted.1
    exact h.perform_identity hholds hplain hepoch
  | begin_request type_request path_request =>
    exact h.accepted hholds hplain rfl h.core.marks_same ⟨hsampled.identity, hsampled.aircraft, hsampled.camera⟩
  | aircraft p => exact h.perform_aircraft hholds hplain
  | camera p => exact h.perform_camera hholds hplain
  | failure text =>
    exact h.accepted hholds hplain rfl h.core.marks_same
      ⟨hsampled.identity, fun hms => absurd rfl hms, fun hms => absurd rfl hms⟩
  | service => exact h.staged hplain ⟨rfl, rfl⟩ fun _ => h.core.free hholds

theorem Lawful.work (h : Lawful w) (hadmitted : w.admitted .work = true) : Lawful (w.work detect) := by
  unfold World.work
  cases hstage : w.stage with
  | idle => exact h
  | acquiring work =>
    dsimp only
    split
    · rename_i hfree
      exact h.staged (by rw [hstage]; exact ⟨rfl, rfl⟩) ⟨rfl, rfl⟩ fun _ => isEmpty_iff.mp hfree
    · exact h
  | held work => exact h.perform hstage hadmitted
  | storing dropped => exact h.store hstage
  | releasing reset =>
    refine h.staged (by rw [hstage]; exact ⟨rfl, rfl⟩) ?_ ?_
    · cases reset <;> exact ⟨rfl, rfl⟩
    · cases reset <;> exact nofun
  | notifying =>
    exact h.notify.staged (by change Plain w.stage; rw [hstage]; exact ⟨rfl, rfl⟩) ⟨rfl, rfl⟩ nofun
  | checking =>
    refine h.staged (by rw [hstage]; exact ⟨rfl, rfl⟩) ?_ ?_
    · cases w.invalid_world.notice <;> exact ⟨rfl, rfl⟩
    · cases w.invalid_world.notice <;> exact nofun
  | loaded pending => exact h.exchange hstage
  | exchanged pending =>
    simp only [admitted, hstage, Bool.and_true, bne_iff_ne] at hadmitted
    exact h.renew hstage hadmitted
  | renewed => exact h.drop_samples hstage

theorem Lawful.take_up (h : Lawful w) (work : Work) : Lawful (w.take_up work) := by
  unfold World.take_up
  split
  · rename_i hstage
    exact h.staged (by rw [hstage]; exact ⟨rfl, rfl⟩) ⟨rfl, rfl⟩ nofun
  · rename_i hstage _
    exact h.staged (by rw [hstage]; exact ⟨rfl, rfl⟩) ⟨rfl, rfl⟩ nofun
  · exact h

theorem Lawful.step (h : Lawful w) {op : Op} (hadmitted : w.admitted op = true) : Lawful (w.step detect op) := by
  cases op with
  | take_up work => exact h.take_up work
  | work => exact h.work hadmitted
  | notify => exact h.notify
  | start r now => exact h.start r now
  | turn r busy => exact h.turn hadmitted

theorem initial_lawful : Lawful {} where
  core := {
    free := fun _ => rfl
    latest := ⟨[], rfl⟩
    published := fun _ => rfl
    behind := le_refl _
    bounded := fun e he => by cases he
    closed := nofun
    revalidated := nofun
    exchanged := fun pending hno => by cases hno
    renewed := nofun
    dropped := nofun
    sampled := ⟨fun hno => absurd rfl hno, fun hno => absurd rfl hno, fun hno => absurd rfl hno⟩
    marked := ⟨Nat.zero_le _, Nat.zero_le _, Nat.zero_le _⟩
    current := nofun
    noticed := fun hno => absurd hno (Nat.lt_irrefl _)
    taken := le_refl _
    serviced := le_refl _
    served := fun _ => rfl
    cached := fun hno => absurd rfl hno }
  holding r hno := by cases hno
  readers _ := trivial
  answers a ha := by cases ha

theorem Lawful.kept (h : Lawful w) : w.Kept where
  answers := h.answers
  noted hlt := by
    cases hwindow : w.stage.window with
    | true => exact .inr rfl
    | false => exact .inl (h.core.noticed (h.core.served hwindow ▸ hlt))

/-- In every run of admitted steps what a reader reports as ready is ready: the notices that were given
before it began are serviced, the samples came after the changes that were completed before it began,
and its epoch was there during the read. -/
theorem readiness_is_of_its_session (detect : String → String → Nat) (ops : List Op)
    (hadmitted : Guarded (step detect) (fun w op => w.admitted op = true) {} ops) :
    (run (step detect) {} ops).Kept :=
  Lawful.kept (guarded_invariant (fun _ _ h hop => h.step hop) ops initial_lawful hadmitted)

/-! ## Two runs -/

/-- Every aircraft of the runs below is the A380 of the catalog. -/
def detect_a380 (_ _ : String) : Nat := 1

def type_packet : IdentityPacket :=
  { bytes := 296, declared := 296, receive := 8, request := 5, define := 5, count := 1
    text := "ATCCOM.ATC_NAME AIRBUS.0.text" }

def path_packet : IdentityPacket :=
  { bytes := 284, declared := 284, receive := 15, request := 6
    text := "SimObjects\\Airplanes\\FlyByWire_A380X\\aircraft.cfg" }

def performed (work : Work) (steps : Nat) : List Op := .take_up work :: List.replicate steps .work

/-- Every sample, at one time. -/
def telemetry_at (now : Nat) : List Op :=
  performed (.identity type_packet now) 3 ++ performed (.identity path_packet now) 3 ++
    performed (.aircraft ⟨96, true, true, now⟩) 3 ++ performed (.camera ⟨96, 96, 40, true, now⟩) 3

def read_at (r now steps : Nat) : List Op := .start r now :: List.replicate steps (.turn r false)

/-- A reading, a serviced notice, and a reading of the session after it. -/
theorem notice_between_two_readings :
    (run (step detect_a380) {} (telemetry_at 1000 ++ read_at 0 1000 6 ++ .notify ::
      performed .service 8 ++ telemetry_at 1100 ++ read_at 1 1100 7)).Kept ∧
      ((run (step detect_a380) {} (telemetry_at 1000 ++ read_at 0 1000 6 ++ .notify ::
        performed .service 8 ++ telemetry_at 1100 ++ read_at 1 1100 7)).answers.map fun a =>
          (a.out.ready, a.out.epoch)) = [(true, 0), (true, 1)] :=
  ⟨readiness_is_of_its_session detect_a380 _ (by decide +kernel), by decide +kernel⟩

/-- A service has exchanged a notice and has not reset the session yet: a reader that begins now is
served the reading from before the notice. -/
theorem reading_outlives_its_notice :
    ¬ ∀ (detect : String → String → Nat) (ops : List Op), (run (step detect) {} ops).Kept := by
  intro hkept
  have hanswers := (hkept detect_a380 (telemetry_at 1000 ++ read_at 0 1000 6 ++ .notify ::
    performed .service 4 ++ read_at 1 1001 3)).answers
  have hone : ∃ a ∈ (run (step detect_a380) {} (telemetry_at 1000 ++ read_at 0 1000 6 ++ .notify ::
      performed .service 4 ++ read_at 1 1001 3)).answers,
      a.out.ready = true ∧ ¬ a.begun.notices ≤ a.ended.serviced := by decide +kernel
  obtain ⟨a, ha, hready, hnot⟩ := hone
  exact hnot (hanswers a ha hready).serviced

end World

end taxi_camera.flight_session
