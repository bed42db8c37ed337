-- Only a verified newer installer is started, in every order of the updater's
-- calls, its worker's steps and the changes that other programs make to files.
import TaxiCam.UpdateProvenance

namespace taxi_camera.standalone.updater

open json runs List

variable {e : Outside} {s : Updater}

/-! ## What a start has to be -/

/-- A completed check took this digest. -/
def Sourced (e : Outside) (completed : List (Source × List Char)) (digest : List Char) : Prop :=
  ∃ source, (source, digest) ∈ completed ∧ TakenFrom e.running source digest

/-- The installer of the cache directory, unchanged since it was verified and held, with the hash that
a completed check took from its release. -/
structure Sound (e : Outside) (completed : List (Source × List Char)) (start : Start) : Prop where
  directory : start.cache ≠ []
  path : start.path = installer_path start.cache
  held : start.file = some start.verified
  plain : start.verified.plain = true
  hash : hex (e.sha256 start.verified.bytes) = start.sha256
  source : Sourced e completed start.sha256

/-! ## What the updater keeps -/

/-- What a check at this stage has made sure of. -/
def Promised (e : Outside) (c : Check) : Prop :=
  match c.stage with
  | .release => c.result.available = false
  | .sums asset => c.result.available = false ∧ ∃ release current, c.source = some { release } ∧
      parse_update_version e.running = some current ∧
      select_update_asset e.trusted release current = .Selected asset ∧ asset.digest = []
  | .download _ digest | .verify _ digest | .move _ digest => c.result.available = false ∧
      ∃ source, c.source = some source ∧ TakenFrom e.running source digest
  | .verify_again => c.result.available = false ∧
      ∃ source, c.source = some source ∧ TakenFrom e.running source c.result.sha256
  | .publish => c.result.available = true →
      ∃ source, c.source = some source ∧ TakenFrom e.running source c.result.sha256
  | .finish => True

/-- A launch that waits to start its program. -/
structure Holds (e : Outside) (cache : Path) (files : Path → Option File) (p : Pending) : Prop where
  available : p.result.available = true
  directory : cache ≠ []
  path : p.result.installer = installer_path cache
  file : files p.result.installer = some p.file
  verified : verified_update_file e (some p.file) p.result.sha256 = true

def Trusted (e : Outside) (completed : List (Source × List Char)) (result : UpdateResult) : Prop :=
  result.available = true → Sourced e completed result.sha256

structure Inv (e : Outside) (s : Updater) : Prop where
  result : Trusted e s.completed s.result
  kept : ∀ result ∈ s.kept, Trusted e s.completed result
  worker : ∀ c ∈ s.worker, Promised e c
  pending : ∀ p ∈ s.pending, Holds e s.cache s.files p ∧ Trusted e s.completed p.result
  starts : ∀ start ∈ s.starts, Sound e s.completed start

theorem Sourced.grow {completed more : List (Source × List Char)} {digest : List Char}
    (h : Sourced e completed digest) (hmore : ∀ x ∈ completed, x ∈ more) : Sourced e more digest := by
  obtain ⟨source, hmem, htaken⟩ := h
  exact ⟨source, hmore _ hmem, htaken⟩

/-! ## Files -/

variable {c : Check} {files : Path → Option File}

/-- Files change as long as the held one does not. -/
theorem Inv.with_files (h : Inv e s)
    (hsame : ∀ p ∈ s.pending, files p.result.installer = s.files p.result.installer) :
    Inv e { s with files } :=
  { h with
    pending := fun p hp => by
      obtain ⟨hholds, htrusted⟩ := h.pending p hp
      exact ⟨{ hholds with file := (hsame p hp).trans hholds.file }, htrusted⟩ }

theorem put_other {path other : Path} {file : Option File}
    (h : other ≠ path) : put files path file other = files other := if_neg h

theorem Inv.change (h : Inv e s) (path : Path) (file : Option File) : Inv e (s.change path file) := by
  rw [Updater.change]
  split
  · exact h
  rename_i hfree
  refine h.with_files fun p hp => put_other fun heq => ?_
  rw [Updater.held, Option.mem_def.mp hp] at hfree
  exact hfree (decide_eq_true heq.symm)

/-! ## The worker -/

theorem Inv.with_check (h : Inv e s) (hc : Promised e c) : Inv e (s.with_check c) :=
  { h with
    worker := fun c' hc' => by
      obtain rfl := Option.some.inj hc'
      exact hc }

/-- A check that gives up has no result. -/
theorem promised_stop (h : c.result.available = false) : Promised e c.stop := by
  intro havailable
  rw [Check.stop, h] at havailable
  cases havailable

theorem promised_read_release (h : c.result.available = false) (release : Option Value) :
    Promised e (c.read_release e release) := by
  unfold Check.read_release
  split
  · rename_i current release hrunning
    split
    · intro havailable
      exact absurd (h.symm.trans havailable) Bool.false_ne_true
    · exact promised_stop h
    rename_i asset hselect
    split
    · rename_i hnil
      exact ⟨h, release, current, rfl, hrunning, hselect, hnil⟩
    rename_i hdigest
    exact ⟨h, { release }, rfl, taken_of_metadata hrunning hselect hdigest⟩
  · exact promised_stop h

theorem promised_read_sums {asset : UpdateAsset} (hstage : c.stage = .sums asset)
    (h : Promised e c) (text : List Char) : Promised e (c.read_sums asset text) := by
  rw [Promised, hstage] at h
  obtain ⟨havailable, release, current, hsource, hrunning, hselect, hnil⟩ := h
  rw [Check.read_sums]
  split
  · rename_i digest hread
    refine ⟨havailable, { release, sums := some text }, ?_, taken_of_sums hrunning hselect hnil hread⟩
    exact congrArg (Option.map _) hsource
  · exact promised_stop havailable

theorem Inv.publish (h : Inv e s) (hc : Promised e c) (hstage : c.stage = .publish) : Inv e { s with
      result := c.result
      ready := !s.cancelled
      completed := match c.result.available, c.source with
        | true, some source => (source, c.result.sha256) :: s.completed
        | _, _ => s.completed } := by
  rw [Promised, hstage] at hc
  generalize hcompleted : (match c.result.available, c.source with
    | true, some source => (source, c.result.sha256) :: s.completed
    | _, _ => s.completed) = completed
  have hgrow : ∀ x ∈ s.completed, x ∈ completed := by
    intro x hx
    rw [← hcompleted]
    split
    · exact mem_cons_of_mem _ hx
    · exact hx
  refine ⟨fun havailable => ?_, fun r hr ha => (h.kept r hr ha).grow hgrow, h.worker, fun p hp => ?_,
    fun start hstart => ?_⟩
  · obtain ⟨source, hsource, htaken⟩ := hc havailable
    refine ⟨source, ?_, htaken⟩
    rw [← hcompleted, show c.result.available = true from havailable, hsource]
    exact mem_cons_self
  · obtain ⟨hholds, htrusted⟩ := h.pending p hp
    exact ⟨{ hholds with }, fun ha => (htrusted ha).grow hgrow⟩
  · have hsound := h.starts start hstart
    exact { hsound with source := hsound.source.grow hgrow }

theorem Inv.work (h : Inv e s) (a : Answer) : Inv e (s.work e a) := by
  rw [Updater.work]
  split
  · exact h
  rename_i c hworker
  have hc := h.worker c hworker
  split
  · rename_i hstage
    rw [Promised, hstage] at hc
    refine h.with_check ?_
    split
    · exact promised_read_release hc a.release
    · exact promised_stop hc
  · rename_i asset hstage
    refine h.with_check ?_
    split
    · exact promised_read_sums hstage hc a.text
    rw [Promised, hstage] at hc
    exact promised_stop hc.1
  · rename_i asset digest hstage
    rw [Promised, hstage] at hc
    split
    · exact h.with_check (promised_stop hc.1)
    rename_i hnew
    have hfiles : Inv e { s with
        files := put s.files (partial_path c.cache) (some { bytes := a.bytes, plain := true }) } := by
      refine h.with_files fun p hp => put_other fun heq => hnew (.inl ?_)
      rw [← heq, (h.pending p hp).1.file]
      exact Option.some_ne_none _
    dsimp only
    split
    · exact hfiles.with_check hc
    · exact hfiles.with_check (promised_stop hc.1)
  · rename_i asset digest hstage
    rw [Promised, hstage] at hc
    split
    · exact h.with_check hc
    · exact h.with_check (promised_stop hc.1)
  · rename_i asset digest hstage
    rw [Promised, hstage] at hc
    split
    · rename_i hmove
      obtain ⟨-, -, hnone, hfree⟩ := hmove
      have hfiles : Inv e { s with
          files := put (put s.files (partial_path c.cache) none) (installer_path c.cache)
            (s.files (partial_path c.cache)) } := by
        refine h.with_files fun p hp => ?_
        have hfile := (h.pending p hp).1.file
        rw [put_other, put_other]
        · intro heq
          rw [Updater.held, Option.mem_def.mp hp] at hfree
          simp [heq] at hfree
        · intro heq
          rw [heq, hnone] at hfile
          cases hfile
      exact hfiles.with_check hc
    · exact h.with_check (promised_stop hc.1)
  · rename_i hstage
    rw [Promised, hstage] at hc
    split
    · exact h.with_check fun _ => hc.2
    · exact h.with_check (promised_stop hc.1)
  · rename_i hstage
    exact (h.publish hc hstage).with_check trivial
  · exact { h with worker := fun c hc => by cases hc }

/-! ## The calls -/

theorem Inv.clean_cache (h : Inv e s) : Inv e s.clean_cache := by
  rw [Updater.clean_cache]
  split
  · exact h
  · exact (h.change _ _).change _ _

theorem pending_change (s : Updater) (path : Path) (file : Option File) :
    (s.change path file).pending = s.pending := by
  rw [Updater.change]
  split <;> rfl

theorem pending_clean_cache (s : Updater) : s.clean_cache.pending = s.pending := by
  rw [Updater.clean_cache]
  split
  · rfl
  · rw [pending_change, pending_change]

theorem Inv.begin (h : Inv e s) (hnone : s.pending = none) (manual : Bool) (directory : Path) :
    Inv e (s.begin manual directory) := by
  rw [Updater.begin]
  split
  · exact h
  split
  · exact { h with result := h.result }
  have hready : Inv e { s with ready := false } := { h with }
  have hclean := hready.clean_cache
  have hpending := pending_clean_cache { s with ready := false }
  generalize { s with ready := false }.clean_cache = s' at *
  refine ⟨hclean.result, hclean.kept, fun c hc => ?_, fun p hp => ?_, hclean.starts⟩
  · obtain rfl := Option.some.inj hc
    by_cases hdirectory : directory = []
    · rw [Promised, if_pos hdirectory]
      exact fun havailable => by cases havailable
    · rw [Promised, if_neg hdirectory]
  · have hp : s'.pending = some p := hp
    rw [hpending, hnone] at hp
    cases hp

theorem Inv.take (h : Inv e s) : Inv e s.take := by
  rw [Updater.take]
  split
  · exact { h with kept := fun r hr => (mem_cons.mp hr).elim (fun heq => heq ▸ h.result) (h.kept r) }
  · exact h

/-- The result is withdrawn at once, whatever becomes of the launch. -/
theorem Inv.withdraw (h : Inv e s) (error : String) :
    Inv e { s with result := { s.result with available := false }, error } :=
  { h with result := fun havailable => by cases havailable }

theorem Inv.launch (h : Inv e s) {result : UpdateResult} (hresult : Trusted e s.completed result)
    (blocked : Bool) (installation : Path) (pid : Nat) (opens : Bool) :
    Inv e (s.launch e result blocked installation pid opens) := by
  have hbefore := h.withdraw launch_failed
  rw [Updater.launch]
  split
  · exact hbefore
  rename_i hready
  split
  · exact h.withdraw launch_blocked
  split
  · exact hbefore
  split
  · rename_i file hfile
    split
    · rename_i hverified
      refine { hbefore with pending := fun p hp => ?_ }
      obtain rfl := Option.some.inj hp
      simp only [not_or, Bool.not_eq_true', Bool.not_eq_false, not_not, ne_eq] at hready
      exact ⟨⟨hready.1, hready.2.1, hready.2.2, hfile, hverified.2⟩, hresult⟩
    · exact hbefore
  · exact hbefore

/-- A digest that a check took is in small letters. -/
theorem lower_taken {running digest : List Char} {source : Source} (h : TakenFrom running source digest) :
    lower digest = digest := by
  obtain ⟨_, _, _, _, _, _, -, -, -, -, -, -, -, hdigest⟩ := h.taken
  rcases hdigest with ⟨hash, -, -, rfl⟩ | ⟨-, text, -, before, line, after, -, hnames, -⟩
  · exact lower_lower hash
  obtain ⟨hash, -, -, -, -, -, -, -, rfl⟩ := hnames
  exact lower_lower hash

theorem Holds.sound {p : Pending} (h : Holds e s.cache s.files p) (htrusted : Trusted e s.completed p.result) :
    Sound e s.completed
      { path := p.result.installer, cache := s.cache, sha256 := p.result.sha256, verified := p.file
        file := s.files p.result.installer } := by
  have hsource := htrusted h.available
  obtain ⟨source, -, htaken⟩ := hsource
  have hverified := h.verified
  simp only [verified_update_file, Bool.and_eq_true, decide_eq_true_eq] at hverified
  obtain ⟨⟨⟨-, hplain⟩, -⟩, hhash⟩ := hverified
  exact ⟨h.directory, h.path, h.file, hplain, by rwa [lower_hex, lower_taken htaken] at hhash, htrusted h.available⟩

theorem Inv.execute (h : Inv e s) (runs process : Bool) : Inv e (s.execute runs process) := by
  rw [Updater.execute]
  split
  · exact h
  rename_i p hp
  obtain ⟨hholds, htrusted⟩ := h.pending p hp
  refine ⟨h.result, h.kept, h.worker, fun p hp => (by cases hp), fun start hstart => ?_⟩
  dsimp only at hstart
  split at hstart
  · rcases mem_cons.mp hstart with rfl | hstart
    · exact hholds.sound htrusted
    · exact h.starts start hstart
  · exact h.starts start hstart

/-! ## Runs -/

theorem Inv.step (h : Inv e s) (a : Op) : Inv e (step e s a) := by
  have hfree : s.pending.isSome = false → s.pending = none := fun hnone => by
    simpa using hnone
  cases a with
  | begin manual directory =>
    rw [updater.step]
    split
    · exact h
    rename_i hnone
    exact h.begin (hfree (Bool.eq_false_of_not_eq_true hnone)) manual directory
  | take =>
    rw [updater.step]
    split
    · exact h
    · exact h.take
  | launch i blocked installation pid opens =>
    rw [updater.step]
    split
    · exact h
    split
    · rename_i result hkept
      exact h.launch (h.kept result (mem_of_getElem? hkept)) blocked installation pid opens
    · exact h
  | execute runs process => exact h.execute runs process
  | stop =>
    rw [updater.step]
    split
    · exact h
    · exact { h with }
  | work a => exact h.work a
  | change path file => exact h.change path file

/-- Every program that is started is the installer of the cache directory, held since it was verified
with the digest that a completed check took from a published release newer than the running one. -/
theorem only_verified_newer_installers_start (e : Outside) (files : Path → Option File) (ops : List Op) :
    ∀ start ∈ (run (step e) { files } ops).starts, Sound e (run (step e) { files } ops).completed start := by
  have hstart : Inv e ({ files } : Updater) :=
    { result := fun havailable => by cases havailable
      kept := fun _ hr => by cases hr
      worker := fun _ hc => by cases hc
      pending := fun _ hp => by cases hp
      starts := fun _ hs => by cases hs }
  exact (invariant (fun _ a h => h.step a) ops hstart).starts

/-- A release whose metadata gives the digest of its installer. -/
def stable_release : Value :=
  .object [("draft".toList, .boolean false), ("prerelease".toList, .boolean false),
    ("tag_name".toList, .string "v1.2.3-build.40".toList),
    ("assets".toList, .array [.object [("name".toList, .string "taxi-cam-1.2.3-windows-x64-setup.exe".toList),
      ("browser_download_url".toList, .string
        "https://github.com/rthoms334/taxi-cam/releases/download/v1.2.3-build.40/taxi-cam-1.2.3-windows-x64-setup.exe".toList),
      ("state".toList, .string "uploaded".toList), ("size".toList, .number 3),
      ("digest".toList, .string ("sha256:".toList ++ List.replicate 64 'A'))]])]

def test_world : Outside where
  sha256 _ := List.replicate 32 0xaa
  trusted _ := true
  running := "v1.2.3-build.39".toList

def update_run : List Op :=
  [.begin true "C:\\Updates\\00".toList] ++
    List.replicate 7 (.work { ok := true, release := some stable_release, bytes := [1, 2, 3] }) ++
    [.take, .launch 0 false "C:\\Taxi Cam".toList 7 true, .change "C:\\Updates\\00\\setup.exe".toList none,
      .execute true true]

theorem a_verified_installer_starts :
    ∃ start ∈ (run (step test_world) { files := fun _ => none } update_run).starts,
      start.path = "C:\\Updates\\00\\setup.exe".toList ∧ Sound test_world
        (run (step test_world) { files := fun _ => none } update_run).completed start := by
  have hpaths : (run (step test_world) { files := fun _ => none } update_run).starts.map (·.path) =
      ["C:\\Updates\\00\\setup.exe".toList] := by decide +kernel
  have hmem : "C:\\Updates\\00\\setup.exe".toList ∈
      (run (step test_world) { files := fun _ => none } update_run).starts.map (·.path) := by
    rw [hpaths]
    exact mem_singleton_self _
  obtain ⟨start, hstart, hpath⟩ := mem_map.mp hmem
  exact ⟨start, hstart, hpath,
    only_verified_newer_installers_start test_world (fun _ => none) update_run start hstart⟩

end taxi_camera.standalone.updater
