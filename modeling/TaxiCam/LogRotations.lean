-- What a run of appends leaves in the log and its older file, whatever calls of the
-- system fail: bounded files, and a suffix of what was written.
import TaxiCam.RotatingLog

namespace taxi_camera.standalone.rotating_log

open runs List

variable {limit : Nat} {s : System} {f g : Files} {record : Bytes} {d : Disk}

/-! ## Complete lines -/

/-- The lines stand in the log from behind a line feed up to a line feed. -/
def CompleteLines (log lines : Bytes) : Prop :=
  ∃ front back, log = front ++ lines ++ back ∧
    (lines = [] ∨ front.getLast? = some 10 ∧ lines.getLast? = some 10)

/-- Up to its last line feed, a text is empty or ends with one. -/
theorem up_to_last_line (t : Bytes) : ∃ back, t = (t.reverse.dropWhile (· ≠ 10)).reverse ++ back ∧
    ((t.reverse.dropWhile (· ≠ 10)).reverse = [] ∨ (t.reverse.dropWhile (· ≠ 10)).reverse.getLast? = some 10) := by
  refine ⟨(t.reverse.takeWhile (· ≠ 10)).reverse, ?_, ?_⟩
  · rw [← reverse_append, takeWhile_append_dropWhile, reverse_reverse]
  · cases hrest : t.reverse.dropWhile (· ≠ 10) with
    | nil => exact .inl rfl
    | cons c rest =>
      refine .inr ?_
      have hc : ¬(decide (c ≠ 10) = true) := by
        have hhead := List.head?_dropWhile_not (fun c : UInt8 => decide (c ≠ 10)) t.reverse
        rw [hrest] at hhead
        simpa using hhead
      have hten : c = 10 := by simpa using hc
      rw [List.getLast?_reverse, List.head?_cons, hten]

theorem complete_lines_spec (tail : Bytes) :
    CompleteLines tail (complete_lines tail) ∧ (tail ≠ [] → (complete_lines tail).length < tail.length) := by
  unfold complete_lines
  cases hfirst : tail.idxOf? 10 with
  | none =>
    refine ⟨⟨tail, [], by simp, .inl rfl⟩, fun hne => ?_⟩
    exact length_pos_of_ne_nil hne
  | some newline =>
    dsimp only
    obtain ⟨hlt, hat, -⟩ := List.findIdx?_eq_some_iff_getElem.mp hfirst
    obtain ⟨back, hback, hends⟩ := up_to_last_line (tail.drop (newline + 1))
    have hfront : (tail.take (newline + 1)).getLast? = some 10 := by
      rw [take_succ_eq_append_getElem hlt, List.getLast?_concat, beq_iff_eq.mp hat]
    refine ⟨⟨tail.take (newline + 1), back, ?_, ?_⟩, fun _ => ?_⟩
    · rw [append_assoc, ← hback, take_append_drop]
    · exact hends.imp_right fun h => ⟨hfront, h⟩
    · have hlength := congrArg List.length hback
      rw [length_drop, length_append] at hlength
      omega

variable {log : Bytes} {out : Files × Bool}

/-- A log within the limit is kept as it is. -/
theorem archived_of_le (h : log.length ≤ limit) : archived limit log = log := by
  unfold archived
  rw [if_neg (Nat.not_lt.mpr h), if_neg (Nat.not_lt.mpr h), Nat.sub_self, drop_zero]

/-- Of a longer one there are complete lines, no more than the limit. -/
theorem archived_of_gt (h : limit < log.length) :
    CompleteLines log (archived limit log) ∧ (archived limit log).length ≤ limit := by
  unfold archived
  rw [if_pos h, if_pos h]
  have htail : (log.drop (log.length - (limit + 1))).length = limit + 1 := by
    rw [length_drop]
    omega
  obtain ⟨⟨front, back, hsplit, hends⟩, hlength⟩ := complete_lines_spec (log.drop (log.length - (limit + 1)))
  have hshort := hlength (ne_nil_of_length_pos (by omega))
  refine ⟨⟨log.take (log.length - (limit + 1)) ++ front, back, ?_, ?_⟩, by omega⟩
  · rw [append_assoc, append_assoc, ← append_assoc front, ← hsplit, take_append_drop]
  · refine hends.imp_right fun ⟨hfront, hback⟩ => ⟨?_, hback⟩
    rw [List.getLast?_append, hfront, Option.some_or]

theorem archived_le (limit : Nat) (log : Bytes) : (archived limit log).length ≤ limit := by
  by_cases h : log.length ≤ limit
  · rw [archived_of_le h]
    exact h
  · exact (archived_of_gt (Nat.lt_of_not_le h)).2

/-! ## What one record can do -/

/-- The older file is the log, and the log is as before. -/
def Files.archive (limit : Nat) (f : Files) : Files :=
  f.put { f.disk with previous := archived limit f.disk.log }

/-- The older file is the log, and the log is empty. -/
def Files.rotated (limit : Nat) (f : Files) : Files :=
  (f.archive limit).put { log := [], previous := archived limit f.disk.log }

theorem rotate_cases (limit : Nat) (s : System) (f : Files) :
    rotate limit s f = (f, false) ∨
      (rotate limit s f = (f.archive limit, false) ∧ (s.seek_front && s.truncate) = false) ∨
      rotate limit s f = (f.rotated limit, true) := by
  unfold rotate
  dsimp only
  generalize (if f.disk.log.length > limit then limit + 1 else f.disk.log.length) = take
  split
  · exact .inl rfl
  split
  · exact .inl rfl
  split
  · exact .inl rfl
  split
  · exact .inl rfl
  split
  · exact .inr (.inr rfl)
  rename_i htruncate
  exact .inr (.inl ⟨rfl, Bool.not_eq_true _ ▸ htruncate⟩)

/-- The files that a record is written to: as they were when it fits, else rotated. -/
inductive Ready (limit : Nat) (f : Files) (record : Bytes) : Files → Prop
  | fits (h : f.disk.log.length ≤ limit - record.length) : Ready limit f record f
  | full (h : limit - record.length < f.disk.log.length) : Ready limit f record (f.rotated limit)

def Files.partly (f : Files) (record : Bytes) (bytes : Nat) : Files :=
  f.put { f.disk with log := f.disk.log ++ record.take bytes }

def Files.append (f : Files) (record : Bytes) : Files :=
  { f.put { f.disk with log := f.disk.log ++ record } with written := f.written ++ [record] }

/-- All that can become of the files with one record. -/
inductive Appended (limit : Nat) (s : System) (f : Files) (record : Bytes) : Files × Bool → Prop
  | kept : Appended limit s f record (f, false)
  | stuck (htruncate : (s.seek_front && s.truncate) = false) : Appended limit s f record (f.archive limit, false)
  | stopped {g : Files} (hg : Ready limit f record g) : Appended limit s f record (g, false)
  | wrote {g : Files} (hg : Ready limit f record g) : Appended limit s f record (g.append record, true)
  | rolled_back {g : Files} (hg : Ready limit f record g) (bytes : Nat) :
    Appended limit s f record ((g.partly record bytes).put g.disk, false)
  | torn {g : Files} (hg : Ready limit f record g) (bytes : Nat) (hback : (s.seek_back && s.roll_back) = false) :
    Appended limit s f record (g.partly record bytes, false)

theorem append_ready (hg : Ready limit f record g) :
    Appended limit s f record (if !s.seek_end then (g, false)
      else match s.write_stops with
        | none => ({ g.put { g.disk with log := g.disk.log ++ record } with written := g.written ++ [record] }, true)
        | some bytes =>
          let stop := g.disk.log.length
          let g := g.put { g.disk with log := g.disk.log ++ record.take bytes }
          if s.seek_back && s.roll_back then (g.put { g.disk with log := g.disk.log.take stop }, false)
          else (g, false)) := by
  split
  · exact .stopped hg
  split
  · exact .wrote hg
  rename_i bytes _
  dsimp only
  split
  · have hback : (g.disk.log ++ record.take bytes).take g.disk.log.length = g.disk.log := take_left
    have hdisk : (g.put { g.disk with log := g.disk.log ++ record.take bytes }).disk.log =
      g.disk.log ++ record.take bytes := rfl
    rw [hdisk, hback]
    exact .rolled_back hg bytes
  rename_i hback
  exact .torn hg bytes (Bool.not_eq_true _ ▸ hback)

theorem append_record_cases (limit : Nat) (s : System) (f : Files) (record : Bytes) :
    Appended limit s f record (append_record limit s f record) := by
  unfold append_record
  split
  · exact .kept
  by_cases hfull : f.disk.log.length > limit - record.length
  · rw [if_pos hfull]
    rcases rotate_cases limit s f with h | ⟨h, htruncate⟩ | h
    · rw [h]
      exact .kept
    · rw [h]
      exact .stuck htruncate
    rw [h]
    exact append_ready (.full hfull)
  rw [if_neg hfull]
  exact append_ready (.fits (Nat.le_of_not_lt hfull))

/-! ## Runs -/

/-- What every record keeps, every run keeps. -/
theorem run_keeps {P : Files → Prop} {Q : System → Prop}
    (hstep : ∀ s f record out, Q s → record.length ≤ limit → P f → Appended limit s f record out → P out.1)
    {calls : List Call} (hcalls : ∀ call ∈ calls, ∀ i, Q (call.system i)) (hf : P f) :
    P (run (step limit) f calls) := by
  have heach (system : Nat → System) (hsystem : ∀ i, Q (system i)) (records : List Bytes)
      (hrecords : ∀ record ∈ records, record.length ≤ limit) (i : Nat) (f : Files) (hf : P f) :
      P (append_each limit system i records f).1 := by
    induction records generalizing i f with
    | nil => exact hf
    | cons record rest ih =>
      have hone := hstep _ f record _ (hsystem i) (hrecords record mem_cons_self) hf
        (append_record_cases limit (system i) f record)
      rw [append_each]
      split
      · exact ih (fun other hother => hrecords other (mem_cons_of_mem _ hother)) (i + 1) _ hone
      · exact hone
  induction calls generalizing f with
  | nil => exact hf
  | cons call calls ih =>
    refine ih (fun other hother => hcalls other (mem_cons_of_mem _ hother)) ?_
    unfold step append_rotating_log_records
    split
    · exact hf
    split
    · exact hf
    rename_i hvalid
    split
    · exact hf
    split
    · exact hf
    refine heach _ (hcalls call mem_cons_self) _ (fun record hrecord => ?_) 0 f hf
    rw [Bool.not_eq_true, any_eq_false] at hvalid
    have hlength := hvalid record hrecord
    simp only [Bool.or_eq_true, decide_eq_true_eq, not_or] at hlength
    exact Nat.le_of_not_lt hlength.2

/-- Both files are within the limit. -/
def Within (limit : Nat) (d : Disk) : Prop := d.log.length ≤ limit ∧ d.previous.length ≤ limit

instance (limit : Nat) (d : Disk) : Decidable (Within limit d) :=
  inferInstanceAs (Decidable (d.log.length ≤ limit ∧ d.previous.length ≤ limit))

/-- The files are within the limit, and have been all the time. -/
structure Bounded (limit : Nat) (f : Files) : Prop where
  now : Within limit f.disk
  seen : ∀ d ∈ f.seen, Within limit d

theorem Bounded.put (h : Bounded limit f) (hd : Within limit d) : Bounded limit (f.put d) := by
  refine ⟨hd, fun d' hd' => ?_⟩
  rcases mem_append.mp hd' with hd' | hd'
  · exact h.seen d' hd'
  rw [mem_singleton.mp hd']
  exact hd

theorem Bounded.archive (h : Bounded limit f) : Bounded limit (f.archive limit) := by
  refine h.put ⟨h.now.1, ?_⟩
  exact archived_le limit f.disk.log

theorem Bounded.rotated (h : Bounded limit f) : Bounded limit (f.rotated limit) := by
  refine h.archive.put ⟨Nat.zero_le _, ?_⟩
  exact archived_le limit f.disk.log

theorem Ready.room (hg : Ready limit f record g) (hrecord : record.length ≤ limit) :
    g.disk.log.length + record.length ≤ limit := by
  cases hg with
  | fits h => omega
  | full h =>
    change 0 + record.length ≤ limit
    omega

theorem Ready.bounded (hg : Ready limit f record g) (h : Bounded limit f) : Bounded limit g := by
  cases hg with
  | fits _ => exact h
  | full _ => exact h.rotated

/-- One record keeps the files within the limit, whatever fails. -/
theorem bounded_of_appended (hrecord : record.length ≤ limit) (h : Bounded limit f)
    (happended : Appended limit s f record out) : Bounded limit out.1 := by
  have hpartly {g : Files} (hg : Ready limit f record g) (bytes : Nat) : Bounded limit (g.partly record bytes) := by
    have hroom := hg.room hrecord
    refine (hg.bounded h).put ⟨?_, (hg.bounded h).now.2⟩
    rw [length_append, length_take]
    omega
  cases happended with
  | kept => exact h
  | stuck _ => exact h.archive
  | stopped hg => exact hg.bounded h
  | wrote hg =>
    have hroom := hg.room hrecord
    have hput := (hg.bounded h).put (d := { log := _ ++ record, previous := _ })
      ⟨by rw [length_append]; exact hroom, (hg.bounded h).now.2⟩
    exact ⟨hput.now, hput.seen⟩
  | rolled_back hg bytes => exact (hpartly hg bytes).put (hg.bounded h).now
  | torn hg bytes _ => exact hpartly hg bytes

/-! ## Suffixes -/

/-- Truncating the log and rolling back a write do not fail. -/
def Recovers (s : System) : Prop := (s.seek_front && s.truncate) = true ∧ (s.seek_back && s.roll_back) = true

/-- The older file and the log end what was there at first and what was written; the last record
written stands at the end of the log, or of the older file when nothing is in the log since. -/
structure Suffix (limit : Nat) (d : Disk) (f : Files) : Prop where
  within : Within limit f.disk
  suffix : f.disk.previous ++ f.disk.log <:+ d.previous ++ d.log ++ f.written.flatten
  last : ∀ record, f.written.getLast? = some record →
    record <:+ f.disk.log ∨ f.disk.log = [] ∧ record <:+ f.disk.previous

theorem Suffix.rotated (h : Suffix limit d f) (hfull : f.disk.log ≠ []) : Suffix limit d (f.rotated limit) := by
  have hkept := archived_of_le h.within.1
  refine ⟨⟨Nat.zero_le _, archived_le limit _⟩, ?_, fun record hlast => .inr ⟨rfl, ?_⟩⟩
  · change archived limit f.disk.log ++ [] <:+ _
    rw [hkept, append_nil]
    exact (suffix_append _ _).trans h.suffix
  · change record <:+ archived limit f.disk.log
    rw [hkept]
    rcases h.last record hlast with hlog | ⟨hnil, -⟩
    · exact hlog
    · exact absurd hnil hfull

theorem Ready.suffix (hg : Ready limit f record g) (h : Suffix limit d f) : Suffix limit d g := by
  cases hg with
  | fits _ => exact h
  | full hfull =>
    refine h.rotated fun hnil => ?_
    rw [hnil] at hfull
    exact Nat.not_lt_zero _ hfull

theorem Suffix.append (h : Suffix limit d g) (hroom : g.disk.log.length + record.length ≤ limit) :
    Suffix limit d (g.append record) := by
  refine ⟨⟨?_, h.within.2⟩, ?_, fun other hlast => .inl ?_⟩
  · change (g.disk.log ++ record).length ≤ limit
    rw [length_append]
    exact hroom
  · change g.disk.previous ++ (g.disk.log ++ record) <:+ d.previous ++ d.log ++ (g.written ++ [record]).flatten
    obtain ⟨front, hfront⟩ := h.suffix
    refine ⟨front, ?_⟩
    rw [flatten_append, flatten_singleton, ← append_assoc g.disk.previous, ← append_assoc front,
      hfront, append_assoc (d.previous ++ d.log)]
  · have hother : (g.written ++ [record]).getLast? = some other := hlast
    rw [List.getLast?_concat] at hother
    rw [← Option.some.inj hother]
    exact suffix_append _ _

/-- One record keeps the suffix, when the log can be truncated and a write rolled back. -/
theorem suffix_of_appended (hs : Recovers s) (hrecord : record.length ≤ limit)
    (h : Suffix limit d f) (happended : Appended limit s f record out) : Suffix limit d out.1 := by
  cases happended with
  | kept => exact h
  | stuck htruncate =>
    rw [hs.1] at htruncate
    cases htruncate
  | stopped hg => exact hg.suffix h
  | wrote hg => exact (hg.suffix h).append (hg.room hrecord)
  | rolled_back hg bytes => exact ⟨(hg.suffix h).within, (hg.suffix h).suffix, (hg.suffix h).last⟩
  | torn hg bytes hback =>
    rw [hs.2] at hback
    cases hback

/-! ## An oversized log -/

/-- The oversized log is as it was, and the older file as it was or its complete lines. -/
def Old (limit : Nat) (d e : Disk) : Prop :=
  e.log = d.log ∧ (e.previous = d.previous ∨ e.previous = archived limit d.log)

/-- The oversized log was emptied once its lines were in the older file; from then on both files were
within the limit. -/
structure Emptied (limit : Nat) (d : Disk) (f : Files) : Prop where
  now : Within limit f.disk
  seen : ∃ before after, f.seen = before ++ { log := [], previous := archived limit d.log } :: after ∧
    (∀ e ∈ before, Old limit d e) ∧ ∀ e ∈ after, Within limit e

/-- What a run makes of an oversized log. -/
inductive Reduced (limit : Nat) (d : Disk) (f : Files) : Prop
  | old (now : Old limit d f.disk) (seen : ∀ e ∈ f.seen, Old limit d e)
  | emptied (h : Emptied limit d f)

theorem Emptied.put (h : Emptied limit d f) {e : Disk} (he : Within limit e) : Emptied limit d (f.put e) := by
  obtain ⟨before, after, hseen, hbefore, hafter⟩ := h.seen
  refine ⟨he, before, after ++ [e], ?_, hbefore, fun e' he' => ?_⟩
  · change f.seen ++ [e] = _
    rw [hseen, append_assoc, cons_append]
  · rcases mem_append.mp he' with he' | he'
    · exact hafter e' he'
    rw [mem_singleton.mp he']
    exact he

theorem Emptied.archive (h : Emptied limit d f) : Emptied limit d (f.archive limit) := by
  refine h.put ⟨h.now.1, ?_⟩
  exact archived_le limit f.disk.log

theorem Emptied.rotated (h : Emptied limit d f) : Emptied limit d (f.rotated limit) := by
  refine h.archive.put ⟨Nat.zero_le _, ?_⟩
  exact archived_le limit f.disk.log

theorem Ready.emptied (hg : Ready limit f record g) (hd : limit < d.log.length) (h : Reduced limit d f) :
    Emptied limit d g := by
  cases h with
  | emptied h =>
    cases hg with
    | fits _ => exact h
    | full _ => exact h.rotated
  | old hnow hseen =>
    cases hg with
    | fits hfits =>
      rw [hnow.1] at hfits
      omega
    | full _ =>
      refine ⟨⟨Nat.zero_le _, archived_le limit _⟩, f.seen ++ [{ f.disk with previous := archived limit f.disk.log }],
        [], ?_, fun e he => ?_, fun e he => absurd he not_mem_nil⟩
      · rw [← hnow.1]
        rfl
      · rcases mem_append.mp he with he | he
        · exact hseen e he
        rw [mem_singleton.mp he]
        exact ⟨hnow.1, .inr (by rw [hnow.1])⟩

/-- One record keeps what is known of an oversized log, whatever fails. -/
theorem reduced_of_appended (hd : limit < d.log.length) (hrecord : record.length ≤ limit)
    (h : Reduced limit d f) (happended : Appended limit s f record out) : Reduced limit d out.1 := by
  have hpartly {g : Files} (hg : Ready limit f record g) (bytes : Nat) : Emptied limit d (g.partly record bytes) := by
    have hroom := hg.room hrecord
    refine (hg.emptied hd h).put ⟨?_, (hg.emptied hd h).now.2⟩
    rw [length_append, length_take]
    omega
  cases happended with
  | kept => exact h
  | stuck _ =>
    cases h with
    | emptied h => exact .emptied h.archive
    | old hnow hseen =>
      have harchive : Old limit d { f.disk with previous := archived limit f.disk.log } :=
        ⟨hnow.1, .inr (by rw [hnow.1])⟩
      refine .old harchive fun e he => ?_
      rcases mem_append.mp he with he | he
      · exact hseen e he
      rw [mem_singleton.mp he]
      exact harchive
  | stopped hg => exact .emptied (hg.emptied hd h)
  | wrote hg =>
    have hroom := hg.room hrecord
    have hput := (hg.emptied hd h).put (e := { log := _ ++ record, previous := _ })
      ⟨by rw [length_append]; exact hroom, (hg.emptied hd h).now.2⟩
    exact .emptied ⟨hput.now, hput.seen⟩
  | rolled_back hg bytes => exact .emptied ((hpartly hg bytes).put (hg.emptied hd h).now)
  | torn hg bytes _ => exact .emptied (hpartly hg bytes)

/-! ## Whole calls -/

theorem Ready.written (hg : Ready limit f record g) : g.written = f.written := by
  cases hg with
  | fits _ => rfl
  | full _ => rfl

/-- A record that is reported written is. -/
theorem written_of_append_record (h : (append_record limit s f record).2 = true) :
    (append_record limit s f record).1.written = f.written ++ [record] := by
  have happended := append_record_cases limit s f record
  generalize append_record limit s f record = out at h happended
  cases happended with
  | wrote hg =>
    change _ ++ [record] = _
    rw [hg.written]
  | kept => cases h
  | stuck _ => cases h
  | stopped _ => cases h
  | rolled_back _ _ => cases h
  | torn _ _ _ => cases h

theorem written_of_append_each {system : Nat → System} {i : Nat} {records : List Bytes}
    (h : (append_each limit system i records f).2 = true) :
    (append_each limit system i records f).1.written = f.written ++ records := by
  induction records generalizing i f with
  | nil => exact (append_nil _).symm
  | cons record rest ih =>
    rw [append_each] at h ⊢
    by_cases hone : (append_record limit (system i) f record).2 = true
    · rw [if_pos hone] at h ⊢
      rw [ih h, written_of_append_record hone, append_assoc, singleton_append]
    rw [if_neg hone] at h
    cases h

/-- A call that succeeds wrote its records. -/
theorem written_of_call {call : Call} (h : (append_rotating_log_records limit f call).2 = true) :
    (append_rotating_log_records limit f call).1.written = f.written ++ call.records := by
  unfold append_rotating_log_records at h ⊢
  split at h
  · cases h
  rename_i hcall
  rw [if_neg hcall]
  split at h
  · cases h
  rename_i hvalid
  rw [if_neg hvalid]
  split at h
  · cases h
  rename_i hlocks
  rw [if_neg hlocks]
  split at h
  · cases h
  rename_i hopens
  rw [if_neg hopens]
  exact written_of_append_each h

/-! ## The log -/

/-- Every run of calls, from files within the limit and whatever fails, keeps them within it. As long
as the log can be truncated and a write rolled back, the older file and the log are a suffix of what
was there at first and what was written, and the last record written is whole in the log, or in the
older file when the log is empty since. -/
theorem logs_keep_a_suffix (limit : Nat) (d : Disk) (h : Within limit d) (calls : List Call) :
    (∀ e ∈ (run (step limit) (start d) calls).seen, Within limit e) ∧
    ((∀ call ∈ calls, ∀ i, Recovers (call.system i)) →
      (run (step limit) (start d) calls).disk.previous ++ (run (step limit) (start d) calls).disk.log <:+
          d.previous ++ d.log ++ (run (step limit) (start d) calls).written.flatten ∧
        ∀ record, (run (step limit) (start d) calls).written.getLast? = some record →
          record <:+ (run (step limit) (start d) calls).disk.log ∨
            (run (step limit) (start d) calls).disk.log = [] ∧
              record <:+ (run (step limit) (start d) calls).disk.previous) ∧
    (∀ (f : Files) (call : Call), (append_rotating_log_records limit f call).2 = true →
      (append_rotating_log_records limit f call).1.written = f.written ++ call.records) ∧
    (∀ old : Disk, limit < old.log.length → Reduced limit old (run (step limit) (start old) calls) ∧
      CompleteLines old.log (archived limit old.log) ∧ (archived limit old.log).length ≤ limit) := by
  refine ⟨?_, fun hcalls => ?_, fun f call => written_of_call, fun old hold => ⟨?_, archived_of_gt hold⟩⟩
  · have hstart : Bounded limit (start d) := ⟨h, fun e he => by rw [mem_singleton.mp he]; exact h⟩
    exact (run_keeps (Q := fun _ => True)
      (fun s f record out _ hrecord hf happended => bounded_of_appended hrecord hf happended)
      (fun _ _ _ => trivial) hstart).seen
  · have hstart : Suffix limit d (start d) := ⟨h, ⟨[], (append_nil _).symm⟩, fun record hlast => by cases hlast⟩
    have hrun := run_keeps (fun s f record out hs hrecord hf happended => suffix_of_appended hs hrecord hf happended)
      hcalls hstart
    exact ⟨hrun.suffix, hrun.last⟩
  · have hstart : Reduced limit old (start old) :=
      .old ⟨rfl, .inl rfl⟩ fun e he => by rw [mem_singleton.mp he]; exact ⟨rfl, .inl rfl⟩
    exact run_keeps (Q := fun _ => True)
      (fun s f record out _ hrecord hf happended => reduced_of_appended hold hrecord hf happended)
      (fun _ _ _ => trivial) hstart

/-- A record that fills the log, and one that rotates it, fails and is rolled back. -/
def failing_calls : List Call :=
  [{ records := [[97, 98, 10]] }, { records := [[99, 100, 10]], system := fun _ => { write_stops := some 1 } }]

theorem a_small_log_is_kept : Within 5 { log := [97, 10], previous := [] } ∧
    (∀ e ∈ (run (step 5) (start { log := [97, 10], previous := [] }) failing_calls).seen, Within 5 e) :=
  ⟨by decide, (logs_keep_a_suffix 5 { log := [97, 10], previous := [] } (by decide) failing_calls).1⟩

/-- The last record written is no longer in the log: the log was rotated for a record that then
failed. -/
theorem a_failed_record_empties_the_log :
    (∀ call ∈ failing_calls, ∀ i, Recovers (call.system i)) ∧
      (run (step 5) (start { log := [97, 10], previous := [] }) failing_calls).written.getLast? = some [97, 98, 10] ∧
      ¬[97, 98, 10] <:+: (run (step 5) (start { log := [97, 10], previous := [] }) failing_calls).disk.log := by
  refine ⟨fun call hcall i => ?_, by decide +kernel, by decide +kernel⟩
  rw [failing_calls, mem_cons, mem_singleton] at hcall
  rcases hcall with rfl | rfl
  · exact ⟨rfl, rfl⟩
  · exact ⟨rfl, rfl⟩

end taxi_camera.standalone.rotating_log
