import NameHunt.Analysis
import NameHunt.Lookup.Outcome

/-!
# What a hunt reports

* `Event`: what happens while a hunt runs.
* `Summary`: the totals of a hunt.
-/

namespace NameHunt

/-- Something that happens in a hunt. -/
inductive Event where
  /-- An entry is hunted from now on. -/
  | started (analysis : Analysis)
  /-- An entry is left out. -/
  | rejected (pattern : String) (error : Error)
  /-- A domain is left out because the cache knows it. -/
  | skipped (domain : String)
  | checked (outcome : Outcome)
  /-- The cache was saved with this many bits set. -/
  | checkpoint (bitsSet : Nat)
  /-- An entry is done. -/
  | finished (pattern : String)
  deriving Repr, DecidableEq

/-- The totals of a hunt. -/
structure Summary where
  /-- The entries that were hunted. -/
  patterns : Nat := 0
  /-- The entries that were left out. -/
  rejected : Nat := 0
  /-- The look-ups that found something out. -/
  checked : Nat := 0
  available : Nat := 0
  failed : Nat := 0
  skipped : Nat := 0
  cancelled : Bool := false
  deriving Repr, DecidableEq

namespace Summary

/-- The totals after one more outcome. A domain counts as available only where there is an
answer. -/
def record (summary : Summary) (outcome : Outcome) : Summary :=
  if outcome.success then
    let summary := { summary with checked := summary.checked + 1 }
    if outcome.available then { summary with available := summary.available + 1 } else summary
  else { summary with failed := summary.failed + 1 }

end Summary

end NameHunt
