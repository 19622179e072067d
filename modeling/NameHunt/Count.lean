import NameHunt.Document.Basic
import NameHunt.Text.Number

/-!
# Counts with a ceiling

How many names a pattern has is counted in 128 bits. A count that once went above this ceiling
says so from then on.

* `Count`: a value and the flag.
* `Count.times`: multiplication.
* `Count.value?`: the value, if the ceiling was never passed.
* `Count.text`, `Count.document`: how a count is shown.
-/

namespace NameHunt

/-- A count, and whether it passed the ceiling on the way. -/
structure Count where
  value : Nat
  saturated : Bool
  deriving Repr, DecidableEq

namespace Count

/-- The largest value. -/
def ceiling : Nat := 0xFFFFFFFFFFFFFFFFFFFFFFFFFFFFFFFF

def exact (n : Nat) : Count := ⟨n, false⟩

def one : Count := exact 1

/-- A product above the ceiling is cut to it and flagged; a flag is never taken back. -/
def times (count : Count) (factor : Nat) : Count :=
  if count.value * factor ≤ ceiling then ⟨count.value * factor, count.saturated⟩
  else ⟨ceiling, true⟩

/-- The value, unless the ceiling was passed. -/
def value? (count : Count) : Option Nat :=
  if count.saturated then none else some count.value

/-- A flagged count is shown as more than its value. -/
def text (count : Count) : String :=
  (if count.saturated then ">" else "") ++ toString count.value

/-- A count of 64 bits is a number, any other one a text. -/
def document (count : Count) : Document :=
  if count.value ≤ Text.max64 && !count.saturated then .nat count.value else .text count.text

/-- By value first; of equal values the flagged one is larger. -/
def order (a b : Count) : Ordering :=
  (compare a.value b.value).then (compare a.saturated b.saturated)

theorem times_of_le {count : Count} {factor : Nat} (h : count.value * factor ≤ ceiling) :
    count.times factor = ⟨count.value * factor, count.saturated⟩ := by
  simp [times, h]

theorem times_of_lt {count : Count} {factor : Nat} (h : ceiling < count.value * factor) :
    count.times factor = ⟨ceiling, true⟩ := by
  simp [times, Nat.not_le.2 h]

/-- A flag stays. -/
theorem saturated_times {count : Count} (h : count.saturated = true) (factor : Nat) :
    (count.times factor).saturated = true := by
  unfold times
  split <;> simp [h]

end Count

end NameHunt
