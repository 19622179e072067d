import NameHunt.Cache.Basic
import NameHunt.Candidates
import NameHunt.Hunt.Event

/-!
# Hunts, step by step

A hunt goes through its entries one after the other. The domains of an entry are pulled from its
candidates one at a time, launched as look-ups, of which several are under way at once, and come
back as outcomes in any order. The flag that stops the hunt may be raised at any time, but is read
only at certain points. All that is not decided by the hunt itself is in the actions: when the flag
is raised, in which order domains come, which look-up comes back next and with what answer.

* `Rules`: what governs a hunt, and how its cache is saved on a disk of any kind.
* `Sweep`: the domains of one entry, where each of them is.
* `Phase`, `State`: where a hunt is.
* `Action`, `step`: what may happen next.
* `Honest`: a look-up that comes back speaks of the domain it was launched for.
-/

namespace NameHunt.Hunt

/-- What governs a hunt. -/
structure Rules (σ : Type) where
  /-- How many look-ups may be under way at once. -/
  concurrency : Nat
  /-- After how many answers the cache is saved. -/
  checkpointEvery : Nat
  /-- The disk after saving a cache, and whether that succeeded; nothing if no cache is kept. -/
  save : Option (Cache → σ → σ × Bool)

/-- The domains of one entry. -/
structure Sweep where
  pattern : String
  /-- The domains that were not pulled yet. -/
  source : Candidates
  /-- The domain that was pulled and not launched yet. -/
  pending : Option String
  /-- The domains whose look-ups are under way, in the order of their launch. -/
  inFlight : List String
  /-- Whether the source was found empty. -/
  exhausted : Bool
  deriving Repr, DecidableEq

/-- Where a hunt is. -/
inductive Phase where
  /-- Before the next entry: the flag is about to be read. -/
  | boundary
  /-- An entry was admitted and is about to be examined. -/
  | examining (entry : Entry)
  /-- Within an entry: the flag is about to be read. -/
  | turning (sweep : Sweep)
  /-- Within an entry after the flag was read. -/
  | acting (sweep : Sweep) (mayLaunch : Bool)
  | closed
  deriving Repr, DecidableEq

/-- A hunt with all it has done so far. -/
structure State (σ : Type) where
  phase : Phase
  /-- The entries to come. -/
  entries : List Entry
  /-- Whether the flag that stops the hunt is raised. -/
  cancelled : Bool
  cache : Cache
  summary : Summary
  /-- The answers since the last checkpoint. -/
  sinceCheckpoint : Nat
  /-- The domains that were launched, newest first. -/
  launched : List String
  /-- The events, newest first. -/
  events : List Event
  disk : σ

namespace State

variable {σ : Type}

/-- A hunt before its first entry. -/
def start (entries : List Entry) (cancelled : Bool) (cache : Cache) (disk : σ) : State σ where
  phase := .boundary
  entries := entries
  cancelled := cancelled
  cache := cache
  summary := {}
  sinceCheckpoint := 0
  launched := []
  events := []
  disk := disk

/-- The hunt after an entry was left out. -/
def reject (s : State σ) (pattern : String) (error : Error) : State σ :=
  { s with
    phase := .boundary
    summary := { s.summary with rejected := s.summary.rejected + 1 }
    events := .rejected pattern error :: s.events }

/-- The hunt at the first domain of an entry. -/
def begin (s : State σ) (pattern : String) (analysis : Analysis) (source : Candidates) : State σ :=
  { s with
    phase := .turning
      { pattern, source, pending := none, inFlight := [], exhausted := false }
    summary := { s.summary with patterns := s.summary.patterns + 1 }
    events := .started analysis :: s.events }

/-- The hunt after an entry was done. -/
def finish (s : State σ) (pattern : String) : State σ :=
  { s with phase := .boundary, events := .finished pattern :: s.events }

/-- The hunt after a domain was left out. -/
def skip (s : State σ) (domain : String) : State σ :=
  { s with
    summary := { s.summary with skipped := s.summary.skipped + 1 }
    events := .skipped domain :: s.events }

/-- The hunt after an outcome was recorded. Only a domain about which something was found out goes
into the cache. -/
def record (s : State σ) (outcome : Outcome) : State σ :=
  { s with
    cache := if outcome.success then s.cache.insert outcome.domain else s.cache
    summary := s.summary.record outcome
    sinceCheckpoint := s.sinceCheckpoint + if outcome.success then 1 else 0
    events := .checked outcome :: s.events }

/-- The hunt after the cache was saved, if it is kept and a checkpoint is due. A failure is no
reason to stop, and the next checkpoint comes no sooner. -/
def checkpoint (rules : Rules σ) (s : State σ) : State σ :=
  match rules.save with
  | none => s
  | some save =>
    if rules.checkpointEvery ≤ s.sinceCheckpoint then
      let (disk, saved) := save s.cache s.disk
      { s with
        sinceCheckpoint := 0
        disk := disk
        events := if saved then .checkpoint s.cache.bitsSet :: s.events else s.events }
    else s

end State

/-- What may happen. -/
inductive Action where
  /-- The flag is raised. -/
  | cancel
  /-- The flag is read before the next entry. -/
  | look
  /-- An entry is examined; its domains come in the order that the words give. -/
  | examine (words : Words)
  /-- The flag is read within an entry. -/
  | settle
  /-- A domain is pulled. -/
  | pull
  /-- The domain that was pulled is launched. -/
  | launch
  /-- The look-up at a place of those under way comes back. -/
  | complete (place : Nat) (outcome : Outcome)
  /-- The entry is left because nothing can be done. -/
  | giveUp

/-- Whether a look-up may be launched. -/
def canLaunch {σ : Type} (rules : Rules σ) (cancelled : Bool) (sweep : Sweep) : Bool :=
  !sweep.exhausted && !cancelled && decide (sweep.inFlight.length < rules.concurrency)

/-- The entries' domains in the order that the words give, if the entry has no fault. -/
def examine (entry : Entry) (words : Words) : Except Error (Analysis × Candidates) := do
  let analysis ← analyze entry
  let (source, _) ← Candidates.ofAnalysis analysis words
  return (analysis, source)

variable {σ : Type}

/-- The hunt after pulling one domain. -/
def State.pull (s : State σ) (sweep : Sweep) : State σ :=
  match sweep.source.next? with
  | none => { s with phase := .turning { sweep with exhausted := true } }
  | some (domain, source) =>
    if s.cache.test domain then
      { s.skip domain with phase := .turning { sweep with source := source } }
    else { s with phase := .turning { sweep with source := source, pending := some domain } }

/-- The hunt after launching a domain. -/
def State.launch (s : State σ) (sweep : Sweep) (domain : String) : State σ :=
  { s with
    phase := .turning { sweep with pending := none, inFlight := sweep.inFlight ++ [domain] }
    launched := domain :: s.launched }

/-- The hunt after a look-up came back. -/
def State.complete (rules : Rules σ) (s : State σ) (sweep : Sweep) (place : Nat)
    (outcome : Outcome) : State σ :=
  { (s.record outcome).checkpoint rules with
    phase := .turning { sweep with inFlight := sweep.inFlight.eraseIdx place } }

/-- The hunt after an action, if the action is possible. -/
def step (rules : Rules σ) (s : State σ) : Action → Option (State σ)
  | .cancel => some { s with cancelled := true }
  | .look =>
    match s.phase with
    | .boundary =>
      match s.entries with
      | entry :: rest =>
        if s.cancelled then
          some { s with phase := .closed, summary := { s.summary with cancelled := true } }
        else some { s with phase := .examining entry, entries := rest }
      | [] =>
        some { s with phase := .closed, summary := { s.summary with cancelled := s.cancelled } }
    | _ => none
  | .examine words =>
    match s.phase with
    | .examining entry =>
      match examine entry words with
      | .ok (analysis, source) => some (s.begin entry.pattern analysis source)
      | .error error => some (s.reject entry.pattern error)
    | _ => none
  | .settle =>
    match s.phase with
    | .turning sweep =>
      let mayLaunch := canLaunch rules s.cancelled sweep
      if !mayLaunch && sweep.inFlight.isEmpty then some (s.finish sweep.pattern)
      else some { s with phase := .acting sweep mayLaunch }
    | _ => none
  | .pull =>
    match s.phase with
    | .acting sweep true => if sweep.pending.isNone then some (s.pull sweep) else none
    | _ => none
  | .launch =>
    match s.phase with
    | .acting sweep true => sweep.pending.map (s.launch sweep)
    | _ => none
  | .complete place outcome =>
    match s.phase with
    | .acting sweep mayLaunch =>
      if (mayLaunch && sweep.pending.isNone) || sweep.inFlight.length ≤ place then none
      else some (s.complete rules sweep place outcome)
    | _ => none
  | .giveUp =>
    match s.phase with
    | .acting sweep mayLaunch =>
      if mayLaunch || !sweep.inFlight.isEmpty then none else some (s.finish sweep.pattern)
    | _ => none

/-- A look-up that comes back speaks of the domain it was launched for. -/
def Honest (s : State σ) : Action → Prop
  | .complete place outcome =>
    ∀ sweep mayLaunch, s.phase = .acting sweep mayLaunch →
      sweep.inFlight[place]? = some outcome.domain
  | _ => True

end NameHunt.Hunt
