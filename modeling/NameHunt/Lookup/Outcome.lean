import NameHunt.Document.Basic
import NameHunt.Duration
import NameHunt.Lookup.Registry
import NameHunt.Lookup.Status

/-!
# Outcomes of look-ups

* `Outcome`: what a look-up reports about a domain.
* `Outcome.answered`, `Outcome.failed`: the outcome of a question that was answered, or not.
* `Outcome.document`: an outcome as a table.
* `repeated`: a question that is asked again after a fault that may pass.
* `Outcome.ofRegistry`: the outcome of a look-up that asked a registry.
-/

namespace NameHunt

/-- What a look-up reports about a domain. The two flags are independent: a look-up of any kind may
report that a domain is available without having found anything out. -/
structure Outcome where
  domain : String
  /-- Whether the domain looks available. This means something only where there is an answer. -/
  available : Bool
  /-- Whether anything was found out. -/
  success : Bool
  /-- How long the look-up took. -/
  duration : Option Duration
  /-- Why nothing was found out. -/
  error : Option String
  deriving Repr, DecidableEq

namespace Outcome

/-- The outcome of a question that was answered with yes or no. -/
def answered (domain : String) (available : Bool) (duration : Duration) : Outcome where
  domain := domain
  available := available
  success := true
  duration := some duration
  error := none

/-- The outcome of a question that was not answered, for a reason. -/
def failed (domain : String) (reason : String) (duration : Duration) : Outcome where
  domain := domain
  available := false
  success := false
  duration := some duration
  error := some reason

/-- The outcome as a table. The duration and the reason are left out where there is none. -/
def document (outcome : Outcome) : Document :=
  .table <|
    [ ("domain", .text outcome.domain),
      ("available", .truth outcome.available),
      ("success", .truth outcome.success) ] ++
    (outcome.duration.map fun duration =>
      ("duration", Document.table [("secs", .nat duration.seconds),
        ("nanos", .nat duration.subsecond)])).toList ++
    (outcome.error.map fun reason => ("error", Document.text reason)).toList

end Outcome

/-- A question that is asked again, up to the given number of times, after a fault that may pass.
Every attempt has its number. -/
def repeated {α : Type} (ask : Nat → Except Error α) (attempt : Nat) : Nat → Except Error α
  | 0 => ask attempt
  | retries + 1 =>
    match ask attempt with
    | .ok answer => .ok answer
    | .error error =>
      if error.isRetryable then repeated ask (attempt + 1) retries else .error error

/-- The outcome for a domain. `ask` gives the status for an address in an attempt; a domain that no
registry is asked about fails at once. -/
def Outcome.ofRegistry (ask : String → Nat → Except Error Nat) (retries : Nat) (elapsed : Duration)
    (domain : String) : Outcome :=
  let result := do
    let url ← Registry.url domain
    repeated (fun attempt => do Status.available domain (← ask url attempt)) 0 retries
  match result with
  | .ok available => .answered domain available elapsed
  | .error error => .failed domain error.message elapsed

end NameHunt
