import NameHunt.Proofs.Hunt.Recording
import NameHunt.Proofs.Hunt.Totals

/-!
# Keeping the cache does not change the hunt

The cache is saved in the middle of a hunt, and saving may fail. A hunt that keeps no cache does the
same under the same actions, and reports the same but for the checkpoints. A checkpoint is reported
for each call that succeeds, and for no other.

* `Rules.unkept`, `State.unkept`: a hunt that keeps no cache.
* `projection_unkept`: it goes along with the hunt that keeps one.
* `Moves.recorded`: the calls that an action makes, and the checkpoints that it reports.
* `flaky`: saving that fails in any given calls.
* `Unseen`: what there is to a cache that is kept.
* `persistence_unseen`: no more than that.
-/

namespace NameHunt

/-- The number of bits that a checkpoint reports. -/
def Event.bits? : Event → Option Nat
  | checkpoint bits => some bits
  | _ => none

/-- Whether an event is anything but a checkpoint. -/
def Event.isLasting (event : Event) : Bool :=
  event.bits?.isNone

namespace Hunt

variable {σ : Type} {rules : Rules σ} {action : Action}

/-- The same rules for a hunt that keeps no cache. -/
def Rules.unkept (rules : Rules σ) : Rules Unit where
  concurrency := rules.concurrency
  checkpointEvery := rules.checkpointEvery
  save := none

/-- A hunt as it is if it keeps no cache. There are no checkpoints, and the answers are counted from
the start. -/
def State.unkept (s : State σ) : State Unit where
  phase := s.phase
  entries := s.entries
  cancelled := s.cancelled
  cache := s.cache
  summary := s.summary
  sinceCheckpoint := s.summary.checked
  launched := s.launched
  events := s.events.filter Event.isLasting
  disk := ()

/-- A checkpoint is nothing to a hunt that keeps no cache. -/
theorem unkept_checkpoint (rules : Rules σ) (s : State σ) :
    (s.checkpoint rules).unkept = s.unkept := by
  unfold State.checkpoint
  split
  · rfl
  · rename_i save _
    split
    · cases hsaved : (save s.cache s.disk).2 <;> simp only [State.unkept, hsaved] <;> rfl
    · rfl

theorem unkept_record (s : State σ) (outcome : Outcome) :
    (s.record outcome).unkept = s.unkept.record outcome := by
  simp only [State.unkept, State.record, Summary.checked_record]
  rfl

/-- A hunt that keeps no cache goes along with the hunt that keeps one. -/
theorem projection_unkept (rules : Rules σ) : Projection rules rules.unkept State.unkept where
  concurrency := rfl
  phase _ := rfl
  entries _ := rfl
  cancelled _ := rfl
  cache _ := rfl
  raise _ := rfl
  turn _ _ := rfl
  close _ := rfl
  take _ _ _ := rfl
  reject _ _ _ := rfl
  begin _ _ _ _ := rfl
  finish _ _ := rfl
  skip _ _ := rfl
  launch _ _ _ := rfl
  record s outcome := (unkept_checkpoint rules _).trans (unkept_record s outcome)

/-! ### The calls that save -/

/-- The bits that the checkpoints reported, newest first. -/
def State.bits (s : State σ) : List Nat :=
  s.events.filterMap Event.bits?

/-- A checkpoint makes no call, or one for the cache as it is, which is reported if it succeeds. -/
theorem recorded_checkpoint (rules : Rules σ) (s : State (σ × List (Attempt σ))) :
    s.checkpoint rules.recording = s ∨
      ∃ (save : Cache → σ → σ × Bool) (attempt : Attempt σ), rules.save = some save ∧
        save s.cache s.disk.1 = (attempt.disk, attempt.saved) ∧ attempt.cache = s.cache ∧
        (s.checkpoint rules.recording).disk = (attempt.disk, s.disk.2 ++ [attempt]) ∧
        (s.checkpoint rules.recording).bits =
          (if attempt.saved then [attempt.cache.bitsSet] else []) ++ s.bits := by
  cases hsave : rules.save with
  | none =>
    have hnone : rules.recording.save = none := by rw [Rules.recording, hsave, Option.map_none]
    left
    simp only [State.checkpoint, hnone]
  | some save =>
    have hsome : rules.recording.save = some (recordingSave save) := by
      rw [Rules.recording, hsave, Option.map_some]
    by_cases hdue : rules.recording.checkpointEvery ≤ s.sinceCheckpoint
    · right
      refine ⟨save, ⟨s.cache, (save s.cache s.disk.1).1, (save s.cache s.disk.1).2⟩, rfl, rfl, rfl,
        ?_, ?_⟩
      · simp only [State.checkpoint, hsome, if_pos hdue, recordingSave]
      · simp only [State.bits, State.checkpoint, hsome, if_pos hdue, recordingSave]
        by_cases hsaved : (save s.cache s.disk.1).2 = true <;> simp [hsaved, Event.bits?]
    · left
      simp only [State.checkpoint, hsome, if_neg hdue]

/-- A move makes no call that saves, or one, which is reported if it succeeds. -/
theorem Moves.recorded {s t : State (σ × List (Attempt σ))} {notes : List Note}
    (h : Moves rules.recording s action notes t) :
    (t.disk = s.disk ∧ t.bits = s.bits) ∨
      ∃ (save : Cache → σ → σ × Bool) (attempt : Attempt σ), rules.save = some save ∧
        save attempt.cache s.disk.1 = (attempt.disk, attempt.saved) ∧
        t.disk = (attempt.disk, s.disk.2 ++ [attempt]) ∧
        t.bits = (if attempt.saved then [attempt.cache.bitsSet] else []) ++ s.bits := by
  cases h with
  | @complete sweep mayLaunch place domain outcome =>
    obtain hidle | ⟨save, attempt, hsave, hcall, hcache, hdisk, hbits⟩ :=
      recorded_checkpoint rules (s.record outcome)
    · left
      show ((s.record outcome).checkpoint rules.recording).disk = s.disk ∧
        ((s.record outcome).checkpoint rules.recording).bits = s.bits
      rw [hidle]
      exact ⟨rfl, rfl⟩
    · exact .inr ⟨save, attempt, hsave, hcache ▸ hcall, hdisk, hbits⟩
  | _ => exact .inl ⟨rfl, rfl⟩

/-- The checkpoints that were reported are the calls that succeeded. -/
def Reported (s : State (σ × List (Attempt σ))) : Prop :=
  s.bits.reverse = (s.disk.2.filter Attempt.saved).map fun attempt => attempt.cache.bitsSet

theorem Reported.step {s t : State (σ × List (Attempt σ))} (hs : Reported s)
    (h : step rules.recording s action = some t) : Reported t := by
  obtain ⟨hdisk, hbits⟩ | ⟨save, attempt, -, -, hdisk, hbits⟩ := (moves_of_step h).recorded
  · rw [Reported, hdisk, hbits]
    exact hs
  · rw [Reported, hdisk, hbits, List.reverse_append, hs, List.filter_append, List.map_append]
    cases hsaved : attempt.saved <;> simp [hsaved]

/-! ### Saving that fails -/

/-- Saving that fails in given calls. Its disk counts the calls. -/
def flaky (fails : Nat → Bool) (_ : Cache) (calls : Nat) : Nat × Bool :=
  (calls + 1, !fails calls)

/-- The same rules with saving that fails in given calls. -/
def Rules.flaky (rules : Rules σ) (fails : Nat → Bool) : Rules Nat where
  concurrency := rules.concurrency
  checkpointEvery := rules.checkpointEvery
  save := some (Hunt.flaky fails)

/-- The calls of a list are counted, and those fail that are to fail. -/
def Fails (fails : Nat → Bool) (disk : Nat × List (Attempt Nat)) : Prop :=
  disk.1 = disk.2.length ∧ ∀ j attempt, disk.2[j]? = some attempt → attempt.saved = !fails j

theorem fails_start (fails : Nat → Bool) : Fails fails (0, []) :=
  ⟨rfl, fun j attempt h => by simp at h⟩

theorem Fails.concat {fails : Nat → Bool} {disk : Nat × List (Attempt Nat)}
    {attempt : Attempt Nat} (h : Fails fails disk)
    (hcall : flaky fails attempt.cache disk.1 = (attempt.disk, attempt.saved)) :
    Fails fails (attempt.disk, disk.2 ++ [attempt]) := by
  obtain ⟨hlength, hall⟩ := h
  obtain ⟨hnext, hsaved⟩ := Prod.mk.inj hcall
  refine ⟨?_, fun j attempt' hattempt => ?_⟩
  · rw [List.length_append, ← hlength]
    exact hnext.symm
  · rw [List.getElem?_append] at hattempt
    split at hattempt
    · exact hall j attempt' hattempt
    · rename_i hlast
      obtain ⟨hj, rfl⟩ : j = disk.2.length ∧ attempt = attempt' := by
        rw [List.getElem?_singleton] at hattempt
        split at hattempt
        · exact ⟨by omega, Option.some.inj hattempt⟩
        · cases hattempt
      rw [← hsaved, hj, hlength]

theorem Fails.step {fails : Nat → Bool} {s t : State (Nat × List (Attempt Nat))}
    (hs : Fails fails s.disk) (h : step (rules.flaky fails).recording s action = some t) :
    Fails fails t.disk := by
  obtain ⟨hdisk, -⟩ | ⟨save, attempt, hsave, hcall, hdisk, -⟩ := (moves_of_step h).recorded
  · rwa [hdisk]
  · obtain rfl := Option.some.inj hsave
    rw [hdisk]
    exact hs.concat hcall

/-! ### What there is to a cache that is kept -/

/-- What there is to a cache that is kept under some actions. -/
structure Unseen (rules : Rules σ) (entries : List Entry) (cancelled : Bool) (cache : Cache)
    (disk : σ) (actions : List Action) : Prop where
  /-- A hunt that keeps no cache comes to the same, whatever calls that save failed. -/
  without : ∀ t, steps rules (.start entries cancelled cache disk) actions = some t →
    steps rules.unkept (.start entries cancelled cache ()) actions = some t.unkept
  /-- What a hunt comes to that keeps no cache, it comes to with any way to save. -/
  within : ∀ t', steps rules.unkept (.start entries cancelled cache ()) actions = some t' →
    ∃ t, steps rules (.start entries cancelled cache disk) actions = some t ∧ t.unkept = t'
  /-- The checkpoints are the calls that succeeded, in their order. -/
  reported : ∀ t, steps rules (.start entries cancelled cache disk) actions = some t →
    ∃ t', steps rules.recording (.start entries cancelled cache (disk, [])) actions = some t' ∧
      t'.forget = t ∧
      t.events.reverse.filterMap Event.bits? =
        (t'.disk.2.filter Attempt.saved).map fun attempt => attempt.cache.bitsSet
  /-- Any calls may be the ones that fail. -/
  any : ∀ fails : Nat → Bool, ∀ t',
    steps rules.unkept (.start entries cancelled cache ()) actions = some t' →
      ∃ t, steps (rules.flaky fails).recording (.start entries cancelled cache (0, [])) actions =
          some t ∧
        t.forget.unkept = t' ∧
        ∀ j attempt, t.disk.2[j]? = some attempt → attempt.saved = !fails j

/-- A hunt with a cache that is kept and one without come to the same under the same actions. -/
theorem steps_unkept (rules : Rules σ) (entries : List Entry) (cancelled : Bool) (cache : Cache)
    (disk : σ) (actions : List Action) :
    steps rules.unkept (.start entries cancelled cache ()) actions =
      (steps rules (.start entries cancelled cache disk) actions).map State.unkept :=
  (projection_unkept rules).steps_eq (.start entries cancelled cache disk) actions

theorem exists_recorded {entries : List Entry} {cancelled : Bool} {cache : Cache} {disk : σ}
    {actions : List Action} {t : State σ}
    (h : steps rules (.start entries cancelled cache disk) actions = some t) :
    ∃ t', steps rules.recording (.start entries cancelled cache (disk, [])) actions = some t' ∧
      t'.forget = t := by
  have hforget := (projection_forget rules).steps_eq (.start entries cancelled cache (disk, []))
    actions
  exact Option.map_eq_some_iff.1 (hforget.symm.trans h)

/-- Keeping the cache changes nothing else in a hunt, whatever calls that save fail. -/
theorem persistence_unseen (rules : Rules σ) (entries : List Entry) (cancelled : Bool)
    (cache : Cache) (disk : σ) (actions : List Action) :
    Unseen rules entries cancelled cache disk actions where
  without := by
    intro t h
    rw [steps_unkept rules entries cancelled cache disk, h, Option.map_some]
  within := by
    intro t' h
    rw [steps_unkept rules entries cancelled cache disk] at h
    exact Option.map_eq_some_iff.1 h
  reported := by
    intro t h
    obtain ⟨t', h', rfl⟩ := exists_recorded h
    refine ⟨t', h', rfl, ?_⟩
    have hstart : Reported (.start entries cancelled cache (disk, [])) := rfl
    rw [List.filterMap_reverse]
    exact steps_induction (fun s t action hs h => hs.step h) hstart h'
  any := by
    intro fails t' h
    have hflaky := steps_unkept (rules.flaky fails) entries cancelled cache 0 actions
    obtain ⟨t, ht, rfl⟩ := Option.map_eq_some_iff.1 (hflaky.symm.trans h)
    obtain ⟨u, hu, rfl⟩ := exists_recorded ht
    have hfails : Fails fails u.disk := by
      refine steps_induction (P := fun s => Fails fails s.disk) ?_ (fails_start fails) hu
      exact fun s t action hs h => hs.step h
    exact ⟨u, hu, rfl, hfails.2⟩

end Hunt

end NameHunt
