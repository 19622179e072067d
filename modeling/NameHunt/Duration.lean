import NameHunt.Decimal.Digits
import NameHunt.Decimal.Ratio

/-!
# Durations

* `Duration`: a span of time in nanoseconds.
* `Duration.text`: the span in its largest fitting unit, with the shortest fraction.
* `Duration.inSeconds`: the span as a floating-point number of seconds.
-/

namespace NameHunt

/-- A span of time in whole nanoseconds. -/
structure Duration where
  nanos : Nat
  deriving Repr, DecidableEq

namespace Duration

def ofSeconds (n : Nat) : Duration := ⟨n * 1000000000⟩

def ofMillis (n : Nat) : Duration := ⟨n * 1000000⟩

/-- The whole seconds. -/
def seconds (d : Duration) : Nat := d.nanos / 1000000000

/-- The nanoseconds beyond the whole seconds. -/
def subsecond (d : Duration) : Nat := d.nanos % 1000000000

/-- `n` nanoseconds in a unit of `tens places` nanoseconds. -/
def inUnit (places n : Nat) (unit : List Char) : List Char :=
  Decimal.digits (n / Decimal.tens places) ++
    Decimal.fraction places (n % Decimal.tens places) ++ unit

/-- The unit is the largest of s, ms, µs and ns that the span reaches. -/
def text (d : Duration) : String :=
  String.ofList <|
    if 1000000000 ≤ d.nanos then inUnit 9 d.nanos ['s']
    else if 1000000 ≤ d.nanos then inUnit 6 d.nanos ['m', 's']
    else if 1000 ≤ d.nanos then inUnit 3 d.nanos ['µ', 's']
    else inUnit 0 d.nanos ['n', 's']

/-- The whole seconds and the rest are converted one by one, then added. -/
def inSeconds (d : Duration) : Ratio :=
  let whole := (Ratio.ofNat d.seconds).nearestDouble
  let rest := (Ratio.mk d.subsecond 1000000000).nearestDouble
  (whole.add rest).nearestDouble

end Duration

end NameHunt
