import NameHunt.Proofs.Hunt.Actions

/-!
# Putting down what is saved

The state of a hunt does not tell how often the cache was to be saved. Rules that put down each call
of the function that saves make a hunt of which the original is the part without the list of calls.

* `Attempt`: a call of the function that saves.
* `Rules.recording`: the same rules with a list of the calls.
* `State.forget`, `projection_forget`: without the list every action does the same.
* `Runs.exists_recording`: every run is one in which the calls are put down.
-/

namespace NameHunt.Hunt

variable {σ : Type}

/-- A call of the function that saves, with the disk after it. -/
structure Attempt (σ : Type) where
  cache : Cache
  disk : σ
  saved : Bool

/-- A function that saves and keeps a list of its calls. -/
def recordingSave (save : Cache → σ → σ × Bool) (cache : Cache)
    (disk : σ × List (Attempt σ)) : (σ × List (Attempt σ)) × Bool :=
  let (after, saved) := save cache disk.1
  ((after, disk.2 ++ [⟨cache, after, saved⟩]), saved)

/-- The same rules with a list of the calls that save. -/
def Rules.recording (rules : Rules σ) : Rules (σ × List (Attempt σ)) where
  concurrency := rules.concurrency
  checkpointEvery := rules.checkpointEvery
  save := rules.save.map recordingSave

/-- A hunt without the list of calls. -/
def State.forget (s : State (σ × List (Attempt σ))) : State σ where
  phase := s.phase
  entries := s.entries
  cancelled := s.cancelled
  cache := s.cache
  summary := s.summary
  sinceCheckpoint := s.sinceCheckpoint
  launched := s.launched
  events := s.events
  disk := s.disk.1

theorem forget_checkpoint (rules : Rules σ) (s : State (σ × List (Attempt σ))) :
    (s.checkpoint rules.recording).forget = s.forget.checkpoint rules := by
  unfold State.checkpoint Rules.recording
  cases rules.save with
  | none => rfl
  | some save =>
    show State.forget (if rules.checkpointEvery ≤ s.sinceCheckpoint then _ else s) =
      if rules.checkpointEvery ≤ s.sinceCheckpoint then _ else _
    split <;> rfl

/-- The list of calls has no influence on what happens. -/
theorem projection_forget (rules : Rules σ) :
    Projection rules.recording rules State.forget where
  concurrency := rfl
  phase _ := rfl
  entries _ := rfl
  cancelled _ := rfl
  cache _ := rfl
  raise _ := rfl
  turn _ _ := rfl
  close _ := rfl
  take _ _ _ := rfl
  reject _ _ _ := rfl
  begin _ _ _ _ := rfl
  finish _ _ := rfl
  skip _ _ := rfl
  launch _ _ _ := rfl
  record s outcome := forget_checkpoint rules (s.record outcome)

/-- Every run is one in which the calls that save are put down. -/
theorem Runs.exists_recording {rules : Rules σ} {s t : State σ} {log : List Note}
    (h : Runs rules s log t) {s' : State (σ × List (Attempt σ))}
    (hforget : s'.forget = s) :
    ∃ t', t'.forget = t ∧ Runs rules.recording s' log t' := by
  induction h with
  | refl => exact ⟨s', hforget, .refl s'⟩
  | snoc hruns hstep ih =>
    obtain ⟨t', rfl, hruns'⟩ := ih
    rw [(projection_forget rules).step_eq] at hstep
    obtain ⟨u', hstep', rfl⟩ := Option.map_eq_some_iff.1 hstep
    exact ⟨u', rfl, hruns'.snoc hstep'⟩

end NameHunt.Hunt
