import NameHunt.Proofs.Domains
import NameHunt.Proofs.Hunt.Account
import NameHunt.Proofs.Hunt.Persistence

/-!
# Rejections and checkpoints

An entry is left out for a fault that it has by itself, whatever the words. A checkpoint is reported
right after the answer that it was due for.

* `Entry.fault?`: why an entry is left out; `examine_error_iff`: no other fault is found.
* `Follows`: what a checkpoint comes after.
* `Punctual`, `Punctual.record`: a hunt in which no checkpoint is overdue.
-/

namespace NameHunt

/-! ### Why an entry is left out -/

/-- Why an entry is left out: for the first fault of its pattern or of its extensions, or because
its combinations cannot be counted. -/
def Entry.fault? (entry : Entry) : Option Error :=
  match analyze entry with
  | .error error => some error
  | .ok analysis =>
    if analysis.combinations.saturated then some (.patternTooLarge analysis.segments.describe)
    else none

/-- Whether an entry is hunted. -/
def Entry.isAccepted (entry : Entry) : Bool :=
  entry.fault?.isNone

/-- A pattern whose count is flagged has no generator. -/
theorem Generator.create_of_saturated {p : Pattern} (h : p.count.saturated = true)
    (strategy : Strategy) (words : Words) :
    create p strategy words = .error (.patternTooLarge p.describe) := by
  have hnone : p.count.value? = none := by rw [Count.value?, if_pos h]
  simp only [create, hnone]

namespace Hunt

variable {σ : Type} {rules : Rules σ} {s t : State σ} {action : Action} {notes : List Note}

/-- An entry is examined in vain for its own fault, and for no other. -/
theorem examine_error_iff {entry : Entry} {words : Words} {error : Error} :
    examine entry words = .error error ↔ entry.fault? = some error := by
  rw [examine_eq, Entry.fault?]
  cases hanalyze : analyze entry with
  | error fault => simp
  | ok analysis =>
    have hcount : analysis.combinations = analysis.segments.count := by
      obtain ⟨-, -, rfl⟩ := analyze_eq_ok hanalyze
      rfl
    cases hflag : analysis.combinations.saturated with
    | true =>
      have hcreate := Generator.create_of_saturated (hcount ▸ hflag) .auto words
      simp [Candidates.ofAnalysis, hcreate, hflag]
    | false =>
      obtain ⟨g, rest, hcreate⟩ := Generator.exists_create_auto (hcount ▸ hflag) words
      simp [Candidates.ofAnalysis_of_create hcreate, hflag]

/-- An entry that is examined with success has no fault. -/
theorem isAccepted_of_examine {entry : Entry} {words : Words} {found : Analysis × Candidates}
    (h : examine entry words = .ok found) : entry.isAccepted = true := by
  cases hfault : entry.fault? with
  | none => rw [Entry.isAccepted, hfault, Option.isNone_none]
  | some error =>
    rw [examine_error_iff.2 hfault] at h
    cases h

theorem isAccepted_of_error {entry : Entry} {words : Words} {error : Error}
    (h : examine entry words = .error error) : entry.isAccepted = false := by
  rw [Entry.isAccepted, examine_error_iff.1 h, Option.isNone_some]

/-! ### Checkpoints -/

/-- A checkpoint comes right after an answer that says something. -/
def Follows (before event : Event) : Prop :=
  event.bits?.isSome = true → ∃ outcome, before = .checked outcome ∧ outcome.success = true

/-- No checkpoint is overdue, and none was. -/
structure Punctual (rules : Rules σ) (s : State σ) : Prop where
  early : rules.save = none ∨ s.sinceCheckpoint < rules.checkpointEvery
  /-- The events are newest first. -/
  follows : s.events.IsChain fun event before => Follows before event

/-- Anything but a checkpoint may come at any time. -/
theorem isChain_cons_of_isLasting {event : Event} {events : List Event}
    (h : events.IsChain fun event before => Follows before event)
    (hlasting : event.isLasting = true) :
    (event :: events).IsChain fun event before => Follows before event := by
  refine List.isChain_cons.2 ⟨fun before _ hcheckpoint => ?_, h⟩
  rw [Event.isLasting, Option.isNone_iff_eq_none] at hlasting
  simp [hlasting] at hcheckpoint

/-- Where a checkpoint is due the answer that came in was the one that it was due for. -/
theorem Punctual.record (hevery : 1 ≤ rules.checkpointEvery) (h : Punctual rules s)
    (outcome : Outcome) : Punctual rules ((s.record outcome).checkpoint rules) := by
  have hchecked : (s.record outcome).events.IsChain fun event before => Follows before event :=
    isChain_cons_of_isLasting h.follows rfl
  unfold State.checkpoint
  cases hsave : rules.save with
  | none => exact ⟨.inl hsave, hchecked⟩
  | some save =>
    by_cases hdue : rules.checkpointEvery ≤ (s.record outcome).sinceCheckpoint
    · -- A failure counts for nothing, and before it no checkpoint was due.
      have hsuccess : outcome.success = true := by
        by_contra hfailed
        have hearly : s.sinceCheckpoint < rules.checkpointEvery := by simpa [hsave] using h.early
        simp [State.record, hfailed] at hdue
        omega
      simp only [if_pos hdue]
      refine ⟨.inr hevery, ?_⟩
      cases hsaved : (save (s.record outcome).cache (s.record outcome).disk).2 with
      | true => exact List.isChain_cons_cons.2 ⟨fun _ => ⟨outcome, rfl, hsuccess⟩, hchecked⟩
      | false => exact hchecked
    · simp only [if_neg hdue]
      exact ⟨.inr (Nat.lt_of_not_le hdue), hchecked⟩

theorem Punctual.move (hevery : 1 ≤ rules.checkpointEvery) (h : Punctual rules s)
    (hmove : Moves rules s action notes t) : Punctual rules t := by
  cases hmove with
  | complete => exact ⟨(h.record hevery _).early, (h.record hevery _).follows⟩
  | cancel | close | take | settle | exhaust | pend | launch => exact ⟨h.early, h.follows⟩
  | reject | begin | finish | skip | giveUp =>
    exact ⟨h.early, isChain_cons_of_isLasting h.follows rfl⟩

/-- In every run a checkpoint comes right after an answer that says something. -/
theorem follows_of_runs (hevery : 1 ≤ rules.checkpointEvery) {entries : List Entry}
    {cancelled : Bool} {cache : Cache} {disk : σ} {log : List Note}
    (h : Runs rules (.start entries cancelled cache disk) log t) :
    t.events.reverse.IsChain Follows := by
  suffices hpunctual : Punctual rules t from List.isChain_reverse.2 hpunctual.follows
  induction h with
  | refl => exact ⟨.inr hevery, .nil⟩
  | snoc hruns hstep ih => exact ih.move hevery (moves_of_step hstep)

end Hunt

end NameHunt
