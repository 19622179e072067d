import NameHunt.CommandLine.Session
import NameHunt.Proofs.Hunt.Recording
import NameHunt.Proofs.Hunt.Repeats
import NameHunt.Proofs.Hunt.Totals
import NameHunt.Proofs.Store.History

/-!
# Checkpoints

The cache is saved after every so many answers, counted through all entries. An answer goes into the
cache before it counts, so that a file that was saved holds all answers up to then, and no more than
the answers since are missing from it.

* `checkpointsIn`: the bits that the checkpoints of a log reported.
* `Ledger`: how the calls that save fit the log and the state.
* `Ledger.record`, `Ledger.checkpoint`: an answer that comes in, and a call that is due.
* `ledger_of_runs`: the ledger fits in every run.
* `Checkpointed`: what was to be saved, what is in the file, and what is missing from it.
* `Runs.checkpointed`: so it is in every hunt that is kept in a store.
-/

namespace NameHunt.Hunt

variable {store : Store} {every : Nat} {cache : Cache} {log notes : List Note} {action : Action}
  {s t : State (FileSystem × List (Attempt FileSystem))}

/-- The number of bits that a checkpoint reports. -/
def Note.bits? : Note → Option Nat
  | told (.checkpoint bits) => some bits
  | _ => none

/-- The numbers of bits that the checkpoints reported. -/
def checkpointsIn (log : List Note) : List Nat :=
  log.filterMap Note.bits?

theorem checkpointsIn_append (log log' : List Note) :
    checkpointsIn (log ++ log') = checkpointsIn log ++ checkpointsIn log' :=
  List.filterMap_append

/-- Saving in a store, as the rules of a hunt have it. -/
def keeping (store : Store) (cache : Cache) (fs : FileSystem) : FileSystem × Bool :=
  ((store.save cache fs).1, (store.save cache fs).2.isNone)

/-- The rules of a call of the program save in its store. -/
theorem save_rules (settings : Settings) (store : Store) :
    (Session.rules settings (some store)).save = some (keeping store) := by
  simp only [Session.rules, Option.map_some, Option.some.injEq]
  funext cache fs
  rw [keeping]

theorem saving_keeping (store : Store) (cache : Cache) (fs : FileSystem) :
    store.Saving cache fs (keeping store cache fs).2 (keeping store cache fs).1 := by
  simpa only [keeping] using store.saving_save cache fs

/-- How the calls that save fit the log and the state after it. -/
structure Ledger (store : Store) (every : Nat) (cache : Cache) (log : List Note)
    (s : State (FileSystem × List (Attempt FileSystem))) : Prop where
  grown : s.cache = cache.insertAll (answeredIn log)
  /-- A call was made whenever so many answers had come. -/
  answered : (answeredIn log).length = every * s.disk.2.length + s.sinceCheckpoint
  /-- A call was for the cache with all the answers that had come. -/
  caches : ∀ j attempt, s.disk.2[j]? = some attempt →
    attempt.cache = cache.insertAll ((answeredIn log).take (every * (j + 1)))
  written : ∀ attempt ∈ s.disk.2, attempt.saved = true →
    attempt.disk.read store.path = .ok attempt.cache.encode
  /-- The file holds the cache of the last call that succeeded. -/
  kept : ∀ attempt, (s.disk.2.filter Attempt.saved).getLast? = some attempt →
    s.disk.1.read store.path = .ok attempt.cache.encode
  events : checkpointsIn log =
    (s.disk.2.filter Attempt.saved).map fun attempt => attempt.cache.bitsSet

/-- The ledger is of the cache, the answers and the disk alone. -/
theorem Ledger.congr (h : Ledger store every cache log s) (hcache : t.cache = s.cache)
    (hsince : t.sinceCheckpoint = s.sinceCheckpoint) (hdisk : t.disk = s.disk) :
    Ledger store every cache log t := by
  constructor
  · rw [hcache, h.grown]
  · rw [hdisk, hsince, h.answered]
  · rw [hdisk]
    exact h.caches
  · rw [hdisk]
    exact h.written
  · rw [hdisk]
    exact h.kept
  · rw [hdisk, h.events]

/-- Notes without an answer and without a checkpoint do not count. -/
theorem Ledger.quiet (h : Ledger store every cache log s) (hanswered : answeredIn notes = [])
    (hevents : checkpointsIn notes = []) : Ledger store every cache (log ++ notes) s := by
  have hall : answeredIn (log ++ notes) = answeredIn log := by
    rw [answeredIn_append, hanswered, List.append_nil]
  have hreported : checkpointsIn (log ++ notes) = checkpointsIn log := by
    rw [checkpointsIn_append, hevents, List.append_nil]
  constructor
  · rw [hall, h.grown]
  · rw [hall, h.answered]
  · rw [hall]
    exact h.caches
  · exact h.written
  · exact h.kept
  · rw [hreported, h.events]

theorem Ledger.mul_le (h : Ledger store every cache log s) {j : Nat}
    {attempt : Attempt FileSystem} (hattempt : s.disk.2[j]? = some attempt) :
    every * (j + 1) ≤ (answeredIn log).length := by
  have hlt : j < s.disk.2.length := (List.getElem?_eq_some_iff.1 hattempt).1
  have hle : every * (j + 1) ≤ every * s.disk.2.length := Nat.mul_le_mul_left every hlt
  rw [h.answered]
  omega

/-- An answer that comes in leaves the earlier calls as they were. -/
theorem Ledger.record (h : Ledger store every cache log s) (domain : String) (outcome : Outcome) :
    Ledger store every cache (log ++ [.returned domain outcome, .told (.checked outcome)])
      (s.record outcome) := by
  have hall : answeredIn (log ++ [.returned domain outcome, .told (.checked outcome)]) =
      answeredIn log ++ if outcome.success then [outcome.domain] else [] := by
    rw [answeredIn_append]
    cases hsuccess : outcome.success <;> simp [answeredIn, hsuccess]
  constructor
  · show (if outcome.success then s.cache.insert outcome.domain else s.cache) = _
    rw [hall, Cache.insertAll_append, ← h.grown]
    split <;> rfl
  · show _ = every * s.disk.2.length + (s.sinceCheckpoint + if outcome.success then 1 else 0)
    rw [hall, List.length_append, h.answered, Nat.add_assoc]
    split <;> rfl
  · intro j attempt hattempt
    rw [hall, List.take_append_of_le_length (h.mul_le hattempt)]
    exact h.caches j attempt hattempt
  · exact h.written
  · exact h.kept
  · have hnone : checkpointsIn [.returned domain outcome, .told (.checked outcome)] = [] := rfl
    rw [checkpointsIn_append, hnone, List.append_nil]
    exact h.events

/-- What is called when it is due, and what is put down and reported of it. -/
theorem checkpoint_of_due {rules : Rules FileSystem} (hsave : rules.save = some (keeping store))
    (hdue : rules.checkpointEvery ≤ s.sinceCheckpoint) :
    (s.checkpoint rules.recording).sinceCheckpoint = 0 ∧
      (s.checkpoint rules.recording).disk = ((keeping store s.cache s.disk.1).1,
        s.disk.2 ++ [⟨s.cache, (keeping store s.cache s.disk.1).1,
          (keeping store s.cache s.disk.1).2⟩]) ∧
      s.checkpointNotes rules.recording =
        if (keeping store s.cache s.disk.1).2 then [.told (.checkpoint s.cache.bitsSet)]
        else [] := by
  have hrecording : rules.recording.save = some (recordingSave (keeping store)) := by
    rw [Rules.recording, hsave, Option.map_some]
  have hdue' : rules.recording.checkpointEvery ≤ s.sinceCheckpoint := hdue
  refine ⟨?_, ?_, ?_⟩
  · simp only [State.checkpoint, hrecording, if_pos hdue']
  · simp only [State.checkpoint, hrecording, if_pos hdue', recordingSave]
  · simp only [State.checkpointNotes, hrecording, hdue', recordingSave, decide_true, Bool.true_and]

/-- The call that is made when it is due. -/
theorem Ledger.checkpoint {rules : Rules FileSystem} (hsave : rules.save = some (keeping store))
    (h : Ledger store rules.checkpointEvery cache log s)
    (hdue : s.sinceCheckpoint = rules.checkpointEvery) :
    Ledger store rules.checkpointEvery cache (log ++ s.checkpointNotes rules.recording)
      (s.checkpoint rules.recording) := by
  obtain ⟨hsince, hdisk, hnotes⟩ := checkpoint_of_due hsave hdue.ge
  have hcache := (s.checkpoint_frame rules.recording).2.1
  have hall : answeredIn (log ++ s.checkpointNotes rules.recording) = answeredIn log := by
    rw [answeredIn_append]
    simp [answeredIn]
  have hsaving := saving_keeping store s.cache s.disk.1
  have hlength : (answeredIn log).length = rules.checkpointEvery * (s.disk.2.length + 1) := by
    rw [h.answered, hdue, Nat.mul_succ]
  generalize keeping store s.cache s.disk.1 = call at hdisk hnotes hsaving
  obtain ⟨after, saved⟩ := call
  constructor
  · rw [hall, hcache, h.grown]
  · rw [hall, hsince, hdisk, List.length_append, hlength]
    rfl
  · intro j attempt hattempt
    rw [hdisk] at hattempt
    rw [hall]
    obtain hold | ⟨hj, rfl⟩ : s.disk.2[j]? = some attempt ∨
        j = s.disk.2.length ∧ attempt = ⟨s.cache, after, saved⟩ := by
      by_cases hlt : j < s.disk.2.length
      · rw [List.getElem?_append_left hlt] at hattempt
        exact .inl hattempt
      · rw [List.getElem?_append_right (Nat.le_of_not_lt hlt), List.getElem?_singleton] at hattempt
        split at hattempt
        · cases hattempt
          exact .inr ⟨by omega, rfl⟩
        · cases hattempt
    · exact h.caches j attempt hold
    · rw [hj, ← hlength, List.take_length]
      exact h.grown
  · intro attempt hattempt hsaved
    rw [hdisk] at hattempt
    obtain hold | hnew := List.mem_append.1 hattempt
    · exact h.written attempt hold hsaved
    · obtain rfl := List.mem_singleton.1 hnew
      obtain rfl : saved = true := hsaved
      exact hsaving.read_done
  · rw [hdisk, List.filter_append]
    intro attempt hlast
    cases saved with
    | true =>
      obtain rfl : _ = attempt := by simpa using hlast
      exact hsaving.read_done
    | false =>
      -- A call that fails leaves the file of an earlier one alone.
      exact hsaving.read_of_read (h.kept attempt (by simpa using hlast))
  · rw [hnotes, hdisk, checkpointsIn_append, List.filter_append, List.map_append, h.events]
    cases saved <;> rfl

theorem checkpoint_of_early {rules : Rules FileSystem}
    (hearly : s.sinceCheckpoint < rules.checkpointEvery) :
    s.checkpoint rules.recording = s ∧ s.checkpointNotes rules.recording = [] := by
  have hearly' : ¬ rules.recording.checkpointEvery ≤ s.sinceCheckpoint := Nat.not_le.2 hearly
  unfold State.checkpoint State.checkpointNotes
  cases rules.recording.save with
  | none => exact ⟨rfl, rfl⟩
  | some save => simp [hearly']

/-- The ledger fits after every action, and a call is never overdue. -/
theorem Ledger.move {rules : Rules FileSystem} (hsave : rules.save = some (keeping store))
    (h : Ledger store rules.checkpointEvery cache log s)
    (hearly : s.sinceCheckpoint < rules.checkpointEvery)
    (hmove : Moves rules.recording s action notes t) :
    Ledger store rules.checkpointEvery cache (log ++ notes) t ∧
      t.sinceCheckpoint < rules.checkpointEvery := by
  cases hmove with
  | @complete sweep mayLaunch place domain outcome hphase hselect hplace =>
    have hrecord := h.record domain outcome
    have hsince : (s.record outcome).sinceCheckpoint ≤ rules.checkpointEvery := by
      show s.sinceCheckpoint + (if outcome.success then 1 else 0) ≤ _
      split <;> omega
    have hnotes : log ++ .returned domain outcome :: .told (.checked outcome) ::
          (s.record outcome).checkpointNotes rules.recording =
        log ++ [.returned domain outcome, .told (.checked outcome)] ++
          (s.record outcome).checkpointNotes rules.recording := by simp
    rw [hnotes]
    by_cases hdue : (s.record outcome).sinceCheckpoint = rules.checkpointEvery
    · refine ⟨(hrecord.checkpoint hsave hdue).congr rfl rfl rfl, ?_⟩
      show ((s.record outcome).checkpoint rules.recording).sinceCheckpoint < _
      rw [(checkpoint_of_due hsave hdue.ge).1]
      omega
    · have hearly' := lt_of_le_of_ne hsince hdue
      obtain ⟨hstate, hnone⟩ := checkpoint_of_early hearly'
      rw [hnone, List.append_nil, State.complete, hstate]
      exact ⟨hrecord.congr rfl rfl rfl, hearly'⟩
  | _ => exact ⟨(h.quiet rfl rfl).congr rfl rfl rfl, hearly⟩

/-- The ledger fits in every run. -/
theorem ledger_of_runs {rules : Rules FileSystem} (hsave : rules.save = some (keeping store))
    (hevery : 1 ≤ rules.checkpointEvery) {entries : List Entry} {cancelled : Bool}
    {disk : FileSystem}
    (h : Runs rules.recording (.start entries cancelled cache (disk, [])) log t) :
    Ledger store rules.checkpointEvery cache log t ∧ t.sinceCheckpoint < rules.checkpointEvery := by
  induction h with
  | refl => exact ⟨⟨rfl, rfl, nofun, nofun, nofun, rfl⟩, hevery⟩
  | snoc hruns hstep ih => exact ih.1.move hsave ih.2 (moves_of_step hstep)

/-- What a hunt was to save, what is in the file, and what is missing from it. -/
structure Checkpointed (store : Store) (every : Nat) (cache : Cache) (log : List Note)
    (t : State FileSystem) (attempts : List (Attempt FileSystem)) : Prop where
  /-- There was one attempt for so many answers, in whatever entries they came. -/
  length : attempts.length = t.summary.checked / every
  answered : (answeredIn log).length = t.summary.checked
  attempted : ∀ j attempt, attempts[j]? = some attempt →
    attempt.cache = cache.insertAll ((answeredIn log).take (every * (j + 1)))
  written : ∀ attempt ∈ attempts, attempt.saved = true →
    store.load attempt.disk = .ok (some attempt.cache)
  /-- A checkpoint reports the bits of the file that was just written. -/
  events : checkpointsIn log =
    (attempts.filter Attempt.saved).map fun attempt => attempt.cache.bitsSet
  /-- The file holds the cache of the last attempt that succeeded. -/
  kept : ∀ attempt, (attempts.filter Attempt.saved).getLast? = some attempt →
    store.load t.disk = .ok (some attempt.cache)
  /-- Unless an attempt failed, fewer answers than are between two checkpoints are missing from the
  file. -/
  missing : (∀ attempt ∈ attempts, attempt.saved = true) → ∀ last, attempts.getLast? = some last →
    store.load t.disk = .ok (some last.cache) ∧
      ∃ recorded missing, answeredIn log = recorded ++ missing ∧
        last.cache = cache.insertAll recorded ∧ t.cache = last.cache.insertAll missing ∧
        missing.length < every

theorem checkpointed_of_ledger (h : Ledger store every cache log t)
    (hchecked : (answeredIn log).length = t.summary.checked) (hearly : t.sinceCheckpoint < every) :
    Checkpointed store every cache log t.forget t.disk.2 := by
  have hkept : ∀ attempt, (t.disk.2.filter Attempt.saved).getLast? = some attempt →
      store.load t.disk.1 = .ok (some attempt.cache) := fun attempt hlast =>
    Store.load_of_encode (h.kept attempt hlast)
  have hquotient : t.disk.2.length = t.summary.checked / every := by
    rw [← hchecked, h.answered, Nat.mul_add_div (by omega), Nat.div_eq_of_lt hearly, Nat.add_zero]
  have hwritten : ∀ attempt ∈ t.disk.2, attempt.saved = true →
      store.load attempt.disk = .ok (some attempt.cache) := fun attempt hmem hsaved =>
    Store.load_of_encode (h.written attempt hmem hsaved)
  refine ⟨hquotient, hchecked, h.caches, hwritten, h.events, hkept, fun hall last hlast => ?_⟩
  have hfilter : t.disk.2.filter Attempt.saved = t.disk.2 := List.filter_eq_self.2 hall
  refine ⟨hkept last (by rw [hfilter, hlast]), ?_⟩
  -- The last attempt was for all answers but those since then.
  let due := every * t.disk.2.length
  have hcache : last.cache = cache.insertAll ((answeredIn log).take due) := by
    rw [List.getLast?_eq_getElem?] at hlast
    have hpos : 0 < t.disk.2.length := by
      have hlt := (List.getElem?_eq_some_iff.1 hlast).1
      omega
    rw [h.caches _ last hlast, Nat.sub_add_cancel hpos]
  refine ⟨(answeredIn log).take due, (answeredIn log).drop due, (List.take_append_drop _ _).symm,
    hcache, ?_, ?_⟩
  · show t.cache = _
    rw [hcache, ← Cache.insertAll_append, List.take_append_drop, h.grown]
  · rw [List.length_drop, h.answered]
    omega

/-- Every hunt that is kept in a store saves its cache after every so many answers, whatever its
look-ups say. -/
theorem Runs.checkpointed {rules : Rules FileSystem} (hsave : rules.save = some (keeping store))
    (hevery : 1 ≤ rules.checkpointEvery) {entries : List Entry} {cancelled : Bool}
    {disk : FileSystem} {t : State FileSystem}
    (h : Runs rules (.start entries cancelled cache disk) log t) :
    (∃ t', t'.forget = t ∧
        Runs rules.recording (.start entries cancelled cache (disk, [])) log t') ∧
      ∀ t', t'.forget = t →
        Runs rules.recording (.start entries cancelled cache (disk, [])) log t' →
          Checkpointed store rules.checkpointEvery cache log t t'.disk.2 := by
  refine ⟨h.exists_recording rfl, ?_⟩
  rintro t' rfl h'
  obtain ⟨hledger, hearly⟩ := ledger_of_runs hsave hevery h'
  exact checkpointed_of_ledger hledger h'.length_answeredIn hearly

/-- The rules of a call of the program: two look-ups at once, and the cache is saved after every
other answer. -/
def keptInPairs : Rules FileSystem :=
  Session.rules { Settings.standard with concurrency := 2, checkpointEvery := 2 } (some .plain)

theorem checkpointed_doubled :
    ∃ log t, ∃ t' : State (FileSystem × List (Attempt FileSystem)),
      Runs keptInPairs (.start [doubled] false eightSlots .empty) log t ∧
      t'.forget = t ∧ 1 ≤ t'.disk.2.length ∧
      Checkpointed .plain 2 eightSlots log t t'.disk.2 := by
  have hnew : eightSlots.test "ab.com" = false :=
    Bits.get_replicate 1 (eightSlots.slot "ab.com")
  have hrepeated : 2 ≤ ["ab.com", "ab.com"].count "ab.com" := by decide
  obtain ⟨log, t, hruns, -, -, htwice⟩ := exists_answered_twice
    (Nat.le_refl keptInPairs.concurrency) (List.mem_singleton.2 rfl) examined_doubled hrepeated hnew
    FileSystem.empty
  obtain ⟨⟨t', hforget, hruns'⟩, hall⟩ :=
    Runs.checkpointed (save_rules _ .plain) (by decide) hruns
  have hcheckpointed := hall t' hforget hruns'
  refine ⟨log, t, t', hruns, hforget, ?_, hcheckpointed⟩
  have hlength : (answeredIn log).count "ab.com" ≤ (answeredIn log).length := List.count_le_length
  rw [hcheckpointed.length, ← hcheckpointed.answered]
  show 1 ≤ (answeredIn log).length / 2
  omega

end NameHunt.Hunt
