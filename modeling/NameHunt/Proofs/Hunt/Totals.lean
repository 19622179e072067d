import NameHunt.Proofs.Hunt.Log

/-!
# The events of a hunt and their totals

The totals of a hunt count its events.

* `Event.isStarted`, `Event.isChecked` and so on: kinds of events.
* `eventsIn`: the events of a log; `Runs.events_eq`: they are those of the state.
* `Summary.tell`: what one event adds to the totals.
* `Totals`, `Totals.tell`: totals that count the events.
* `totals_of_runs`, `Runs.totals`: the totals of every run count its events.
* `length_answeredIn`: the answers of a log are the events of one kind.
-/

namespace NameHunt

namespace Event

/-- An entry is hunted. -/
def isStarted : Event → Bool
  | started _ => true
  | _ => false

/-- An entry is left out. -/
def isRejected : Event → Bool
  | rejected _ _ => true
  | _ => false

/-- A domain is left out. -/
def isSkipped : Event → Bool
  | skipped _ => true
  | _ => false

/-- A look-up came back with an outcome of this kind. -/
def isChecked (kind : Outcome → Bool) : Event → Bool
  | checked outcome => kind outcome
  | _ => false

end Event

namespace Summary

/-- The totals after one more event. -/
def tell (summary : Summary) : Event → Summary
  | .started _ => { summary with patterns := summary.patterns + 1 }
  | .rejected _ _ => { summary with rejected := summary.rejected + 1 }
  | .skipped _ => { summary with skipped := summary.skipped + 1 }
  | .checked outcome => summary.record outcome
  | .checkpoint _ | .finished _ => summary

theorem checked_record (summary : Summary) (outcome : Outcome) :
    (summary.record outcome).checked = summary.checked + if outcome.success then 1 else 0 := by
  unfold record
  split
  · split <;> rfl
  · rfl

end Summary

namespace Hunt

variable {σ : Type} {rules : Rules σ} {s t : State σ} {action : Action} {log notes : List Note}

/-! ### The events of a log -/

/-- The event that is reported. -/
@[simp] def Note.event? : Note → Option Event
  | told event => some event
  | _ => none

/-- The events of a log. -/
def eventsIn (log : List Note) : List Event :=
  log.filterMap Note.event?

@[simp] theorem eventsIn_nil : eventsIn [] = [] := rfl

@[simp] theorem eventsIn_append (log log' : List Note) :
    eventsIn (log ++ log') = eventsIn log ++ eventsIn log' :=
  List.filterMap_append

@[simp] theorem eventsIn_told_cons (event : Event) (log : List Note) :
    eventsIn (.told event :: log) = event :: eventsIn log :=
  rfl

@[simp] theorem eventsIn_map_told (events : List Event) :
    eventsIn (events.map .told) = events := by
  rw [eventsIn, List.filterMap_map]
  exact List.filterMap_some

@[simp] theorem eventsIn_map_launched (domains : List String) :
    eventsIn (domains.map .launched) = [] := by
  rw [eventsIn, List.filterMap_map]
  exact List.filterMap_eq_nil_iff.2 fun _ _ => rfl

@[simp] theorem eventsIn_returns (s : State σ) (action : Action) :
    eventsIn (s.returns action) = [] := by
  unfold State.returns
  split
  · rename_i place outcome
    cases s.inFlight[place]? <;> rfl
  · rfl

theorem mem_eventsIn {event : Event} {log : List Note} :
    event ∈ eventsIn log ↔ .told event ∈ log := by
  rw [eventsIn, List.mem_filterMap]
  refine ⟨?_, fun hmem => ⟨_, hmem, rfl⟩⟩
  rintro ⟨note, hmem, hevent⟩
  cases note with
  | told event' => exact Option.some.inj hevent ▸ hmem
  | _ => cases hevent

theorem Moves.events_eq (h : Moves rules s action notes t) :
    t.events.reverse = s.events.reverse ++ eventsIn notes := by
  obtain ⟨launched, events, -, hevents, rfl⟩ := h.grows
  rw [hevents, List.reverse_append, eventsIn_append, eventsIn_append, eventsIn_map_launched,
    eventsIn_returns, eventsIn_map_told, List.nil_append, List.nil_append]

/-- The events that a run adds are those of its log. -/
theorem Runs.events_eq (h : Runs rules s log t) :
    t.events.reverse = s.events.reverse ++ eventsIn log := by
  induction h with
  | refl => rw [eventsIn_nil, List.append_nil]
  | snoc hruns hstep ih =>
    rw [(moves_of_step hstep).events_eq, ih, eventsIn_append, List.append_assoc]

/-- The domains about which something was found out are as many as the events that say so. -/
theorem length_answeredIn (log : List Note) :
    (answeredIn log).length = (eventsIn log).countP (Event.isChecked Outcome.success) := by
  rw [answeredIn, List.length_map, ← List.countP_eq_length_filter, outcomesIn, eventsIn,
    List.countP_filterMap, List.countP_filterMap]
  refine List.countP_congr fun note _ => ?_
  cases note with
  | told event => cases event <;> exact Iff.rfl
  | _ => exact Iff.rfl

/-! ### Totals -/

/-- The totals are the numbers of events. -/
structure Totals (summary : Summary) (events : List Event) : Prop where
  patterns : summary.patterns = events.countP Event.isStarted
  rejected : summary.rejected = events.countP Event.isRejected
  checked : summary.checked = events.countP (Event.isChecked Outcome.success)
  available : summary.available =
    events.countP (Event.isChecked fun outcome => outcome.success && outcome.available)
  failed : summary.failed = events.countP (Event.isChecked fun outcome => !outcome.success)
  skipped : summary.skipped = events.countP Event.isSkipped

/-- One more event is counted where it belongs. A domain that is said to be available without an
answer counts as a failure. -/
theorem Totals.tell {summary : Summary} {events : List Event} (h : Totals summary events)
    (event : Event) : Totals (summary.tell event) (event :: events) := by
  obtain ⟨hpatterns, hrejected, hchecked, havailable, hfailed, hskipped⟩ := h
  cases event with
  | checked outcome =>
    obtain ⟨domain, available, success, duration, error⟩ := outcome
    cases success <;> cases available <;> constructor <;>
      simp [Summary.tell, Summary.record, List.countP_cons, Event.isStarted, Event.isRejected,
        Event.isChecked, Event.isSkipped, *]
  | _ =>
    constructor <;>
      simp [Summary.tell, List.countP_cons, Event.isStarted, Event.isRejected, Event.isChecked,
        Event.isSkipped, *]

/-- The order of the events does not count. -/
theorem Totals.perm {summary : Summary} {events events' : List Event} (h : Totals summary events)
    (hperm : events.Perm events') : Totals summary events' where
  patterns := h.patterns.trans (hperm.countP_eq _)
  rejected := h.rejected.trans (hperm.countP_eq _)
  checked := h.checked.trans (hperm.countP_eq _)
  available := h.available.trans (hperm.countP_eq _)
  failed := h.failed.trans (hperm.countP_eq _)
  skipped := h.skipped.trans (hperm.countP_eq _)

theorem Totals.checkpoint (h : Totals s.summary s.events) (rules : Rules σ) :
    Totals (s.checkpoint rules).summary (s.checkpoint rules).events := by
  unfold State.checkpoint
  split
  · exact h
  · rename_i save _
    split
    · show Totals s.summary
        (if (save s.cache s.disk).2 then .checkpoint s.cache.bitsSet :: s.events else s.events)
      split
      · exact h.tell (.checkpoint s.cache.bitsSet)
      · exact h
    · exact h

theorem Totals.move (h : Totals s.summary s.events) (hmove : Moves rules s action notes t) :
    Totals t.summary t.events := by
  cases hmove with
  | close => exact ⟨h.patterns, h.rejected, h.checked, h.available, h.failed, h.skipped⟩
  | @complete sweep mayLaunch place domain outcome =>
    have hrecord : Totals (s.record outcome).summary (s.record outcome).events :=
      h.tell (.checked outcome)
    exact hrecord.checkpoint rules
  | cancel | take | settle | exhaust | pend | launch => exact h
  | reject => exact h.tell (.rejected _ _)
  | begin => exact h.tell (.started _)
  | skip => exact h.tell (.skipped _)
  | finish | giveUp => exact h.tell (.finished _)

section Start

variable {entries : List Entry} {cancelled : Bool} {cache : Cache} {disk : σ}

theorem totals_of_runs (h : Runs rules (.start entries cancelled cache disk) log t) :
    Totals t.summary t.events := by
  induction h with
  | refl => exact ⟨rfl, rfl, rfl, rfl, rfl, rfl⟩
  | snoc hruns hstep ih => exact ih.move (moves_of_step hstep)

/-- The totals of every run count the events of its log. -/
theorem Runs.totals (h : Runs rules (.start entries cancelled cache disk) log t) :
    Totals t.summary (eventsIn log) := by
  have hevents : t.events.reverse = eventsIn log := h.events_eq
  exact (totals_of_runs h).perm (hevents ▸ t.events.reverse_perm.symm)

/-- Every answer of a run is counted. -/
theorem Runs.length_answeredIn (h : Runs rules (.start entries cancelled cache disk) log t) :
    (answeredIn log).length = t.summary.checked :=
  (Hunt.length_answeredIn log).trans h.totals.checked.symm

end Start

end Hunt

end NameHunt
