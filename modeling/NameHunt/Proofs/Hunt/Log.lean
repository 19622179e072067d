import NameHunt.Hunt.Run

/-!
# Runs of a hunt and what they leave behind

A run is any row of actions that the rules allow. Look-ups that come back may speak of any domain;
that they speak of the domain they were launched for is said of a log where a result needs it. The
log of a run holds the launches, the returns and the events in the order in which they happened.

* `Note`: a launch, a return or an event.
* `launchedIn`, `returnedIn`, `outcomesIn`, `checkedIn`, `answeredIn`, `skippedIn`: parts of a log.
* `Truthful`: look-ups speak of the domains they were launched for.
* `Echoed`: each return has its outcome reported, after it and in order.
* `Runs`: runs with their logs.
* `Course`: runs with their actions and their logs.
* `Moves`: all that one action can do.
* `Moves.notesTo_eq`, `Moves.step_eq`: the notes of a move, and the action that does it.
* `moves_of_step`: an action does nothing else.
* `Moves.truthful_iff`: what a truthful note says of the action.
* `Runs.echoed`: the log of every run is echoed.
-/

namespace NameHunt.Hunt

/-- Something that a hunt does. -/
inductive Note where
  /-- A look-up is launched. -/
  | launched (domain : String)
  /-- The look-up that was launched for a domain comes back. -/
  | returned (domain : String) (outcome : Outcome)
  /-- An event is reported. -/
  | told (event : Event)
  deriving Repr, DecidableEq

variable {σ : Type}

namespace Note

/-- The domain of a launch. -/
@[simp] def launch? : Note → Option String
  | launched domain => some domain
  | _ => none

/-- The look-up that comes back: what it was launched for, and its outcome. -/
@[simp] def return? : Note → Option (String × Outcome)
  | returned domain outcome => some (domain, outcome)
  | _ => none

/-- The outcome that is reported. -/
@[simp] def outcome? : Note → Option Outcome
  | told (.checked outcome) => some outcome
  | _ => none

/-- The domain that is left out because the cache knows it. -/
@[simp] def skip? : Note → Option String
  | told (.skipped domain) => some domain
  | _ => none

/-- Whether the note is of the domains of an entry, and not of the entry itself. -/
@[simp] def isInner : Note → Bool
  | launched _ | returned _ _ => true
  | told (.skipped _) | told (.checked _) | told (.checkpoint _) => true
  | told _ => false

end Note

/-- The domains that were launched. -/
def launchedIn (log : List Note) : List String :=
  log.filterMap Note.launch?

/-- The look-ups that came back, each with the domain it was launched for. -/
def returnsIn (log : List Note) : List (String × Outcome) :=
  log.filterMap Note.return?

/-- The domains that the look-ups that came back were launched for. -/
def returnedIn (log : List Note) : List String :=
  (returnsIn log).map Prod.fst

/-- The outcomes that were reported. -/
def outcomesIn (log : List Note) : List Outcome :=
  log.filterMap Note.outcome?

/-- The domains that outcomes were reported of. -/
def checkedIn (log : List Note) : List String :=
  (outcomesIn log).map Outcome.domain

/-- The domains about which something was found out. -/
def answeredIn (log : List Note) : List String :=
  ((outcomesIn log).filter Outcome.success).map Outcome.domain

/-- The domains that were left out because the cache knows them. -/
def skippedIn (log : List Note) : List String :=
  log.filterMap Note.skip?

@[simp] theorem launchedIn_cons (note : Note) (log : List Note) :
    launchedIn (note :: log) = note.launch?.toList ++ launchedIn log := by
  rw [launchedIn, List.filterMap_cons]
  cases note.launch? <;> rfl

@[simp] theorem returnsIn_cons (note : Note) (log : List Note) :
    returnsIn (note :: log) = note.return?.toList ++ returnsIn log := by
  rw [returnsIn, List.filterMap_cons]
  cases note.return? <;> rfl

@[simp] theorem returnedIn_cons (note : Note) (log : List Note) :
    returnedIn (note :: log) = note.return?.toList.map Prod.fst ++ returnedIn log := by
  simp [returnedIn]

@[simp] theorem outcomesIn_cons (note : Note) (log : List Note) :
    outcomesIn (note :: log) = note.outcome?.toList ++ outcomesIn log := by
  rw [outcomesIn, List.filterMap_cons]
  cases note.outcome? <;> rfl

@[simp] theorem skippedIn_cons (note : Note) (log : List Note) :
    skippedIn (note :: log) = note.skip?.toList ++ skippedIn log := by
  rw [skippedIn, List.filterMap_cons]
  cases note.skip? <;> rfl

@[simp] theorem checkedIn_cons (note : Note) (log : List Note) :
    checkedIn (note :: log) = note.outcome?.toList.map Outcome.domain ++ checkedIn log := by
  simp [checkedIn]

@[simp] theorem launchedIn_nil : launchedIn [] = [] := rfl

@[simp] theorem returnsIn_nil : returnsIn [] = [] := rfl

@[simp] theorem returnedIn_nil : returnedIn [] = [] := rfl

@[simp] theorem outcomesIn_nil : outcomesIn [] = [] := rfl

@[simp] theorem answeredIn_nil : answeredIn [] = [] := rfl

@[simp] theorem skippedIn_nil : skippedIn [] = [] := rfl

@[simp] theorem launchedIn_append (log log' : List Note) :
    launchedIn (log ++ log') = launchedIn log ++ launchedIn log' :=
  List.filterMap_append

@[simp] theorem returnsIn_append (log log' : List Note) :
    returnsIn (log ++ log') = returnsIn log ++ returnsIn log' :=
  List.filterMap_append

@[simp] theorem returnedIn_append (log log' : List Note) :
    returnedIn (log ++ log') = returnedIn log ++ returnedIn log' := by
  simp [returnedIn]

@[simp] theorem outcomesIn_append (log log' : List Note) :
    outcomesIn (log ++ log') = outcomesIn log ++ outcomesIn log' :=
  List.filterMap_append

@[simp] theorem answeredIn_append (log log' : List Note) :
    answeredIn (log ++ log') = answeredIn log ++ answeredIn log' := by
  simp [answeredIn]

@[simp] theorem skippedIn_append (log log' : List Note) :
    skippedIn (log ++ log') = skippedIn log ++ skippedIn log' :=
  List.filterMap_append

theorem mem_returnsIn {log : List Note} {domain : String} {outcome : Outcome} :
    (domain, outcome) ∈ returnsIn log ↔ .returned domain outcome ∈ log := by
  rw [returnsIn, List.mem_filterMap]
  refine ⟨?_, fun hmem => ⟨_, hmem, rfl⟩⟩
  rintro ⟨note, hmem, hreturn⟩
  cases note with
  | returned domain' outcome' =>
    obtain ⟨rfl, rfl⟩ := Prod.mk.inj (Option.some.inj hreturn)
    exact hmem
  | _ => cases hreturn

/-! ### Truthful logs -/

/-- Look-ups that come back speak of the domains they were launched for. -/
def Truthful (log : List Note) : Prop :=
  ∀ domain outcome, .returned domain outcome ∈ log → outcome.domain = domain

theorem Truthful.mono {log log' : List Note} (h : Truthful log') (hsub : log ⊆ log') :
    Truthful log :=
  fun domain outcome hmem => h domain outcome (hsub hmem)

theorem truthful_append {log log' : List Note} :
    Truthful (log ++ log') ↔ Truthful log ∧ Truthful log' := by
  constructor
  · exact fun h => ⟨h.mono (List.subset_append_left _ _), h.mono (List.subset_append_right _ _)⟩
  · rintro ⟨h, h'⟩ domain outcome hmem
    exact (List.mem_append.1 hmem).elim (h domain outcome) (h' domain outcome)

/-- Where nothing comes back nothing is said. -/
theorem truthful_of_returnsIn {log : List Note} (h : returnsIn log = []) : Truthful log := by
  intro domain outcome hmem
  simp [← mem_returnsIn, h] at hmem

/-- The domains that the outcomes speak of are those that the look-ups were launched for. -/
theorem Truthful.map_domain {log : List Note} (h : Truthful log) :
    ((returnsIn log).map Prod.snd).map Outcome.domain = returnedIn log := by
  rw [List.map_map, returnedIn]
  exact List.map_congr_left fun found hfound => h found.1 found.2 (mem_returnsIn.1 hfound)

/-! ### Echoed logs -/

/-- The outcomes that are reported are those that came back, in order, and none is reported before
it came back. -/
structure Echoed (log : List Note) : Prop where
  whole : outcomesIn log = (returnsIn log).map Prod.snd
  early : ∀ front, front <+: log → outcomesIn front <+: (returnsIn front).map Prod.snd

namespace Echoed

variable {log log' : List Note}

/-- Where no outcome is reported and nothing comes back there is nothing to echo. -/
theorem of_silent (houtcomes : outcomesIn log = []) (hreturns : returnsIn log = []) :
    Echoed log where
  whole := by simp [houtcomes, hreturns]
  early := by
    intro front hfront
    have hnone := hfront.filterMap Note.outcome?
    rw [← outcomesIn, ← outcomesIn, houtcomes, List.prefix_nil] at hnone
    rw [hnone]
    exact List.nil_prefix

/-- A look-up that comes back is reported next. -/
theorem of_return (domain : String) {outcome : Outcome} (houtcomes : outcomesIn log = [outcome])
    (hreturns : returnsIn log = []) : Echoed (.returned domain outcome :: log) where
  whole := by simp [houtcomes, hreturns]
  early := by
    intro front hfront
    obtain rfl | ⟨rest, rfl, hrest⟩ := List.prefix_cons_iff.1 hfront
    · exact List.prefix_refl _
    · have hreported := hrest.filterMap Note.outcome?
      rw [← outcomesIn, ← outcomesIn, houtcomes] at hreported
      refine List.IsPrefix.trans ?_ (hreported.trans ?_)
      · simp
      · simp

theorem append (h : Echoed log) (h' : Echoed log') : Echoed (log ++ log') where
  whole := by rw [outcomesIn_append, h.whole, h'.whole, returnsIn_append, List.map_append]
  early := by
    intro front hfront
    obtain hwithin | ⟨rest, rfl⟩ :=
      List.prefix_or_prefix_of_prefix hfront (List.prefix_append log log')
    · exact h.early front hwithin
    · have hrest := h'.early rest ((List.prefix_append_right_inj log).1 hfront)
      rw [outcomesIn_append, h.whole, returnsIn_append, List.map_append]
      exact (List.prefix_append_right_inj _).2 hrest

/-- In a truthful log the outcomes are of the domains that came back. -/
theorem checkedIn_eq (h : Echoed log) (htruthful : Truthful log) :
    checkedIn log = returnedIn log := by
  rw [checkedIn, h.whole, htruthful.map_domain]

theorem checkedIn_prefix (h : Echoed log) (htruthful : Truthful log) {front : List Note}
    (hfront : front <+: log) : checkedIn front <+: returnedIn front := by
  rw [checkedIn, ← (htruthful.mono hfront.subset).map_domain]
  exact (h.early front hfront).map Outcome.domain

/-- An outcome that is reported came back. -/
theorem exists_returned (h : Echoed log) {outcome : Outcome} (hmem : outcome ∈ outcomesIn log) :
    ∃ domain, .returned domain outcome ∈ log := by
  rw [h.whole] at hmem
  obtain ⟨⟨domain, outcome⟩, hreturn, rfl⟩ := List.mem_map.1 hmem
  exact ⟨domain, mem_returnsIn.1 hreturn⟩

end Echoed

/-! ### Runs -/

/-- The domains whose look-ups are under way. -/
def State.inFlight (s : State σ) : List String :=
  match s.phase with
  | .turning sweep | .acting sweep _ => sweep.inFlight
  | _ => []

/-- The look-up that an action brings back. -/
def State.returns (s : State σ) : Action → List Note
  | .complete place outcome =>
    (s.inFlight[place]?.map fun domain => Note.returned domain outcome).toList
  | _ => []

/-- What was launched, came back and was reported by an action between two states, oldest first. No
action launches and brings back. -/
def State.notesTo (s : State σ) (action : Action) (t : State σ) : List Note :=
  (t.launched.take (t.launched.length - s.launched.length)).reverse.map .launched ++
    s.returns action ++
    (t.events.take (t.events.length - s.events.length)).reverse.map .told

theorem State.returned_mem_notesTo {s t : State σ} {action : Action} {domain : String}
    {outcome : Outcome} (h : .returned domain outcome ∈ s.notesTo action t) :
    .returned domain outcome ∈ s.returns action := by
  simpa only [State.notesTo, List.mem_append, List.mem_map, reduceCtorEq, and_false, exists_false,
    false_or, or_false] using h

/-- Runs from one state to another, with their logs. -/
inductive Runs (rules : Rules σ) : State σ → List Note → State σ → Prop
  | refl (s : State σ) : Runs rules s [] s
  | snoc {s t u : State σ} {log : List Note} {action : Action} :
      Runs rules s log t → step rules t action = some u →
        Runs rules s (log ++ t.notesTo action u) u

/-- Runs from one state to another, with the actions that were taken and with their logs. -/
inductive Course (rules : Rules σ) : State σ → List Action → List Note → State σ → Prop
  | refl (s : State σ) : Course rules s [] [] s
  | snoc {s t u : State σ} {actions : List Action} {log : List Note} {action : Action} :
      Course rules s actions log t → step rules t action = some u →
        Course rules s (actions ++ [action]) (log ++ t.notesTo action u) u

theorem Course.runs {rules : Rules σ} {s t : State σ} {actions : List Action} {log : List Note}
    (h : Course rules s actions log t) : Runs rules s log t := by
  induction h with
  | refl => exact .refl _
  | snoc hcourse hstep ih => exact ih.snoc hstep

theorem Runs.exists_course {rules : Rules σ} {s t : State σ} {log : List Note}
    (h : Runs rules s log t) : ∃ actions, Course rules s actions log t := by
  induction h with
  | refl => exact ⟨[], .refl _⟩
  | snoc hruns hstep ih =>
    obtain ⟨actions, hcourse⟩ := ih
    exact ⟨actions ++ [_], hcourse.snoc hstep⟩

/-- What a checkpoint reports, if one is due and the cache could be saved. -/
def State.checkpointNotes (rules : Rules σ) (s : State σ) : List Note :=
  match rules.save with
  | none => []
  | some save =>
    if rules.checkpointEvery ≤ s.sinceCheckpoint && (save s.cache s.disk).2 then
      [.told (.checkpoint s.cache.bitsSet)]
    else []

/-- A checkpoint leaves the flag, the cache and the launches alone. -/
theorem State.checkpoint_frame (rules : Rules σ) (s : State σ) :
    (s.checkpoint rules).cancelled = s.cancelled ∧ (s.checkpoint rules).cache = s.cache ∧
      (s.checkpoint rules).launched = s.launched := by
  unfold State.checkpoint
  split
  · exact ⟨rfl, rfl, rfl⟩
  · split <;> exact ⟨rfl, rfl, rfl⟩

/-- A checkpoint reports nothing but the number of bits. -/
theorem State.checkpointNotes_eq (rules : Rules σ) (s : State σ) :
    s.checkpointNotes rules = [] ∨
      s.checkpointNotes rules = [.told (.checkpoint s.cache.bitsSet)] := by
  unfold State.checkpointNotes
  split
  · exact .inl rfl
  · split
    · exact .inr rfl
    · exact .inl rfl

@[simp] theorem launchedIn_checkpointNotes (rules : Rules σ) (s : State σ) :
    launchedIn (s.checkpointNotes rules) = [] := by
  obtain h | h := s.checkpointNotes_eq rules <;> simp [h]

@[simp] theorem returnsIn_checkpointNotes (rules : Rules σ) (s : State σ) :
    returnsIn (s.checkpointNotes rules) = [] := by
  obtain h | h := s.checkpointNotes_eq rules <;> simp [h]

@[simp] theorem returnedIn_checkpointNotes (rules : Rules σ) (s : State σ) :
    returnedIn (s.checkpointNotes rules) = [] := by
  simp [returnedIn]

@[simp] theorem outcomesIn_checkpointNotes (rules : Rules σ) (s : State σ) :
    outcomesIn (s.checkpointNotes rules) = [] := by
  obtain h | h := s.checkpointNotes_eq rules <;> simp [h]

@[simp] theorem checkedIn_checkpointNotes (rules : Rules σ) (s : State σ) :
    checkedIn (s.checkpointNotes rules) = [] := by
  simp [checkedIn]

@[simp] theorem skippedIn_checkpointNotes (rules : Rules σ) (s : State σ) :
    skippedIn (s.checkpointNotes rules) = [] := by
  obtain h | h := s.checkpointNotes_eq rules <;> simp [h]

theorem isInner_of_mem_checkpointNotes {rules : Rules σ} {s : State σ} {note : Note}
    (h : note ∈ s.checkpointNotes rules) : note.isInner = true := by
  obtain hnotes | hnotes := s.checkpointNotes_eq rules
  · simp [hnotes] at h
  · rw [hnotes, List.mem_singleton] at h
    rw [h]
    rfl

/-- All that an action can do, with the notes that it leaves. -/
inductive Moves (rules : Rules σ) (s : State σ) : Action → List Note → State σ → Prop
  | cancel : Moves rules s .cancel [] { s with cancelled := true }
  | close (hphase : s.phase = .boundary) (hdone : s.cancelled = true ∨ s.entries = []) :
      Moves rules s .look []
        { s with phase := .closed, summary := { s.summary with cancelled := s.cancelled } }
  | take {entry : Entry} {rest : List Entry} (hphase : s.phase = .boundary)
      (hentries : s.entries = entry :: rest) (hopen : s.cancelled = false) :
      Moves rules s .look [] { s with phase := .examining entry, entries := rest }
  | reject {entry : Entry} {words : Words} {error : Error} (hphase : s.phase = .examining entry)
      (hexamine : examine entry words = .error error) :
      Moves rules s (.examine words) [.told (.rejected entry.pattern error)]
        (s.reject entry.pattern error)
  | begin {entry : Entry} {words : Words} {analysis : Analysis} {source : Candidates}
      (hphase : s.phase = .examining entry)
      (hexamine : examine entry words = .ok (analysis, source)) :
      Moves rules s (.examine words) [.told (.started analysis)]
        (s.begin entry.pattern analysis source)
  | finish {sweep : Sweep} (hphase : s.phase = .turning sweep)
      (hblocked : canLaunch rules s.cancelled sweep = false) (hidle : sweep.inFlight = []) :
      Moves rules s .settle [.told (.finished sweep.pattern)] (s.finish sweep.pattern)
  | settle {sweep : Sweep} {mayLaunch : Bool} (hphase : s.phase = .turning sweep)
      (hmay : canLaunch rules s.cancelled sweep = mayLaunch)
      (hlive : mayLaunch = false → sweep.inFlight ≠ []) :
      Moves rules s .settle [] { s with phase := .acting sweep mayLaunch }
  | exhaust {sweep : Sweep} (hphase : s.phase = .acting sweep true)
      (hpending : sweep.pending = none) (hnext : sweep.source.next? = none) :
      Moves rules s .pull [] { s with phase := .turning { sweep with exhausted := true } }
  | skip {sweep : Sweep} {domain : String} {source : Candidates}
      (hphase : s.phase = .acting sweep true) (hpending : sweep.pending = none)
      (hnext : sweep.source.next? = some (domain, source)) (hknown : s.cache.test domain = true) :
      Moves rules s .pull [.told (.skipped domain)]
        { s.skip domain with phase := .turning { sweep with source := source } }
  | pend {sweep : Sweep} {domain : String} {source : Candidates}
      (hphase : s.phase = .acting sweep true) (hpending : sweep.pending = none)
      (hnext : sweep.source.next? = some (domain, source)) (hnew : s.cache.test domain = false) :
      Moves rules s .pull []
        { s with phase := .turning { sweep with source := source, pending := some domain } }
  | launch {sweep : Sweep} {domain : String} (hphase : s.phase = .acting sweep true)
      (hpending : sweep.pending = some domain) :
      Moves rules s .launch [.launched domain] (s.launch sweep domain)
  | complete {sweep : Sweep} {mayLaunch : Bool} {place : Nat} {domain : String}
      {outcome : Outcome} (hphase : s.phase = .acting sweep mayLaunch)
      (hselect : mayLaunch = true → sweep.pending ≠ none)
      (hplace : sweep.inFlight[place]? = some domain) :
      Moves rules s (.complete place outcome)
        (.returned domain outcome :: .told (.checked outcome) ::
          (s.record outcome).checkpointNotes rules)
        (s.complete rules sweep place outcome)
  | giveUp {sweep : Sweep} (hphase : s.phase = .acting sweep false)
      (hidle : sweep.inFlight = []) :
      Moves rules s .giveUp [.told (.finished sweep.pattern)] (s.finish sweep.pattern)

/-- Nothing touches the flag but raising it. -/
theorem Moves.cancelled_eq {rules : Rules σ} {s t : State σ} {action : Action}
    {notes : List Note} (h : Moves rules s action notes t) (hcancel : action ≠ .cancel) :
    t.cancelled = s.cancelled := by
  cases h with
  | cancel => exact absurd rfl hcancel
  | complete => exact (State.checkpoint_frame rules _).1
  | _ => rfl

/-- Entries are taken, and the hunt is closed, at the boundary between entries only. -/
theorem Moves.stays {rules : Rules σ} {s t : State σ} {action : Action} {notes : List Note}
    (h : Moves rules s action notes t) (hphase : s.phase ≠ .boundary) :
    t.entries = s.entries ∧ (s.phase ≠ .closed → t.phase ≠ .closed) := by
  cases h with
  | cancel => exact ⟨rfl, id⟩
  | close hboundary => exact absurd hboundary hphase
  | take hboundary => exact absurd hboundary hphase
  | complete => exact ⟨entries_checkpoint rules _, fun _ => nofun⟩
  | _ => exact ⟨rfl, fun _ => nofun⟩

/-! ### An action does one of the moves -/

theorem State.notesTo_of_append {s t : State σ} {action : Action} {l : List String}
    {e : List Event} (hlaunched : t.launched = l ++ s.launched) (hevents : t.events = e ++ s.events) :
    s.notesTo action t = l.reverse.map .launched ++ s.returns action ++ e.reverse.map .told := by
  simp only [State.notesTo, hlaunched, hevents, List.length_append, Nat.add_sub_cancel,
    List.take_left]

/-- A checkpoint adds what it reports to the events. -/
theorem State.events_checkpoint (rules : Rules σ) (s : State σ) :
    ∃ events, (s.checkpoint rules).events = events ++ s.events ∧
      s.checkpointNotes rules = events.reverse.map .told := by
  unfold State.checkpoint State.checkpointNotes
  cases hsave : rules.save with
  | none => exact ⟨[], rfl, rfl⟩
  | some save =>
    by_cases hdue : rules.checkpointEvery ≤ s.sinceCheckpoint
    · cases hsaved : (save s.cache s.disk).2 with
      | true =>
        exact ⟨[.checkpoint s.cache.bitsSet], by simp [hdue, hsaved], by simp [hdue, hsaved]⟩
      | false => exact ⟨[], by simp [hdue, hsaved], by simp [hsaved]⟩
    · exact ⟨[], by simp [hdue], by simp [hdue]⟩

/-- The notes of a move are what it adds to the launches and to the events, with what it brings
back in between. -/
theorem Moves.grows {rules : Rules σ} {s t : State σ} {action : Action} {notes : List Note}
    (h : Moves rules s action notes t) :
    ∃ launched events, t.launched = launched ++ s.launched ∧ t.events = events ++ s.events ∧
      notes = launched.reverse.map .launched ++ s.returns action ++ events.reverse.map .told := by
  cases h with
  | @complete sweep mayLaunch place domain outcome hphase hselect hplace =>
    obtain ⟨events, hevents, hnotes⟩ := (s.record outcome).events_checkpoint rules
    have hreturns : s.returns (.complete place outcome) = [.returned domain outcome] := by
      simp [State.returns, State.inFlight, hphase, hplace]
    refine ⟨[], events ++ [.checked outcome], (State.checkpoint_frame rules _).2.2, ?_, ?_⟩
    · rw [List.append_assoc]
      exact hevents
    · rw [hnotes, hreturns]
      simp
  | launch => exact ⟨[_], [], rfl, rfl, rfl⟩
  | cancel | close | take | settle | exhaust | pend => exact ⟨[], [], rfl, rfl, rfl⟩
  | reject | begin | finish | skip | giveUp => exact ⟨[], [_], rfl, rfl, rfl⟩

theorem Moves.notesTo_eq {rules : Rules σ} {s t : State σ} {action : Action} {notes : List Note}
    (h : Moves rules s action notes t) : s.notesTo action t = notes := by
  obtain ⟨launched, events, hlaunched, hevents, rfl⟩ := h.grows
  exact State.notesTo_of_append hlaunched hevents

/-- A move is what its action does. -/
theorem Moves.step_eq {rules : Rules σ} {s t : State σ} {action : Action} {notes : List Note}
    (h : Moves rules s action notes t) : step rules s action = some t := by
  cases h with
  | cancel => rfl
  | close hphase hdone =>
    cases hentries : s.entries with
    | nil => simp [step, hphase, hentries]
    | cons entry rest =>
      have hraised : s.cancelled = true := by simpa [hentries] using hdone
      simp [step, hphase, hentries, hraised]
  | take hphase hentries hopen => simp [step, hphase, hentries, hopen]
  | reject hphase hexamine => simp [step, hphase, hexamine]
  | begin hphase hexamine => simp [step, hphase, hexamine]
  | finish hphase hblocked hidle => simp [step, hphase, hblocked, hidle]
  | @settle sweep mayLaunch hphase hmay hlive =>
    have hstay : (!mayLaunch && sweep.inFlight.isEmpty) = false := by
      cases mayLaunch with
      | true => rfl
      | false => simpa using hlive rfl
    simp [step, hphase, hmay, hstay]
  | exhaust hphase hpending hnext => simp [step, hphase, hpending, State.pull, hnext]
  | skip hphase hpending hnext hknown => simp [step, hphase, hpending, State.pull, hnext, hknown]
  | pend hphase hpending hnext hnew => simp [step, hphase, hpending, State.pull, hnext, hnew]
  | launch hphase hpending => simp [step, hphase, hpending]
  | @complete sweep mayLaunch place domain outcome hphase hselect hplace =>
    have hlt : place < sweep.inFlight.length := (List.getElem?_eq_some_iff.1 hplace).1
    have hready : (mayLaunch && sweep.pending.isNone) = false := by
      cases mayLaunch with
      | false => rfl
      | true => simpa [Option.isSome_iff_ne_none] using hselect rfl
    simp [step, hphase, hready, hlt]
  | giveUp hphase hidle => simp [step, hphase, hidle]

/-- Between entries the next one is taken, or the hunt is closed. -/
theorem exists_moves_of_look {rules : Rules σ} {s t : State σ} (hphase : s.phase = .boundary)
    (h : step rules s .look = some t) : ∃ notes, Moves rules s .look notes t := by
  simp only [step, hphase] at h
  split at h
  · rename_i entry rest hentries
    split at h
    · rename_i hcancelled
      obtain rfl := Option.some.inj h
      refine ⟨[], ?_⟩
      simpa only [hcancelled] using Moves.close hphase (.inl hcancelled)
    · rename_i hopen
      obtain rfl := Option.some.inj h
      exact ⟨_, .take hphase hentries (by simpa using hopen)⟩
  · rename_i hentries
    obtain rfl := Option.some.inj h
    exact ⟨_, .close hphase (.inr hentries)⟩

/-- Pulling finds that there is no domain, one that is known, or one that is new. -/
theorem exists_moves_of_pull {rules : Rules σ} {s : State σ} {sweep : Sweep}
    (hphase : s.phase = .acting sweep true) (hpending : sweep.pending = none) :
    ∃ notes, Moves rules s .pull notes (s.pull sweep) := by
  unfold State.pull
  split
  · rename_i hnext
    exact ⟨_, .exhaust hphase hpending hnext⟩
  · rename_i domain source hnext
    split
    · rename_i hknown
      exact ⟨_, .skip hphase hpending hnext hknown⟩
    · rename_i hnew
      exact ⟨_, .pend hphase hpending hnext (by simpa using hnew)⟩

/-- An action does one of the moves, and nothing else. -/
theorem moves_of_step {rules : Rules σ} {s t : State σ} {action : Action}
    (h : step rules s action = some t) : Moves rules s action (s.notesTo action t) t := by
  suffices hmove : ∃ notes, Moves rules s action notes t by
    obtain ⟨notes, hmove⟩ := hmove
    rwa [hmove.notesTo_eq]
  cases action with
  | cancel =>
    obtain rfl := Option.some.inj h
    exact ⟨_, .cancel⟩
  | look =>
    by_cases hphase : s.phase = .boundary
    · exact exists_moves_of_look hphase h
    · simp [step] at h
  | examine words =>
    simp only [step] at h
    split at h
    · rename_i entry hphase
      split at h
      · rename_i analysis source hexamine
        obtain rfl := Option.some.inj h
        exact ⟨_, .begin hphase hexamine⟩
      · rename_i error hexamine
        obtain rfl := Option.some.inj h
        exact ⟨_, .reject hphase hexamine⟩
    · cases h
  | settle =>
    simp only [step] at h
    split at h
    · rename_i sweep hphase
      split at h
      · rename_i hstop
        obtain rfl := Option.some.inj h
        simp only [Bool.and_eq_true, Bool.not_eq_true', List.isEmpty_iff] at hstop
        exact ⟨_, .finish hphase hstop.1 hstop.2⟩
      · rename_i hlive
        obtain rfl := Option.some.inj h
        refine ⟨_, .settle hphase rfl fun hmay hidle => hlive ?_⟩
        simp [hmay, hidle]
    · cases h
  | pull =>
    simp only [step] at h
    split at h
    · rename_i sweep hphase
      split at h
      · rename_i hnone
        obtain rfl := Option.some.inj h
        exact exists_moves_of_pull hphase (Option.isNone_iff_eq_none.1 hnone)
      · cases h
    · cases h
  | launch =>
    simp only [step] at h
    split at h
    · rename_i sweep hphase
      obtain ⟨domain, hpending, rfl⟩ := Option.map_eq_some_iff.1 h
      exact ⟨_, .launch hphase hpending⟩
    · cases h
  | complete place outcome =>
    simp only [step] at h
    split at h
    · rename_i sweep mayLaunch hphase
      split at h
      · cases h
      · rename_i hready
        simp only [Bool.or_eq_true, Bool.and_eq_true, Option.isNone_iff_eq_none, not_or,
          not_and, decide_eq_true_eq, Nat.not_le] at hready
        obtain rfl := Option.some.inj h
        exact ⟨_, .complete hphase hready.1 (List.getElem?_eq_getElem hready.2)⟩
    · cases h
  | giveUp =>
    simp only [step] at h
    split at h
    · rename_i sweep mayLaunch hphase
      split at h
      · cases h
      · rename_i hidle
        simp only [Bool.or_eq_true, Bool.not_eq_true', not_or, Bool.not_eq_true,
          Bool.not_eq_false, List.isEmpty_iff] at hidle
        obtain rfl := Option.some.inj h
        exact ⟨_, .giveUp (hidle.1 ▸ hphase) hidle.2⟩
    · cases h

/-! ### What comes back and what is reported -/

variable {rules : Rules σ} {s t : State σ} {action : Action} {log notes : List Note}

/-- The notes of a move are truthful if and only if the action is honest. -/
theorem Moves.truthful_iff (h : Moves rules s action notes t) :
    Truthful notes ↔ Honest s action := by
  cases h with
  | @complete sweep mayLaunch place domain outcome hphase hselect hplace =>
    constructor
    · intro htruthful sweep' mayLaunch' hphase'
      obtain ⟨rfl, -⟩ := Phase.acting.inj (hphase.symm.trans hphase')
      rw [htruthful domain outcome List.mem_cons_self]
      exact hplace
    · intro hhonest domain' outcome' hmem
      obtain ⟨rfl, rfl⟩ : domain' = domain ∧ outcome' = outcome := by
        simpa [← mem_returnsIn] using hmem
      exact Option.some.inj ((hhonest sweep mayLaunch hphase).symm.trans hplace)
  | _ => exact iff_of_true (truthful_of_returnsIn rfl) trivial

/-- What comes back is reported. -/
theorem Moves.echoed (h : Moves rules s action notes t) : Echoed notes := by
  cases h with
  | complete => exact .of_return _ (by simp) (by simp)
  | _ => exact .of_silent rfl rfl

theorem Runs.echoed (h : Runs rules s log t) : Echoed log := by
  induction h with
  | refl => exact .of_silent rfl rfl
  | snoc hruns hstep ih => exact ih.append (moves_of_step hstep).echoed

end NameHunt.Hunt
