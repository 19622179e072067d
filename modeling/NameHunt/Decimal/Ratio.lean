import NameHunt.Decimal.Digits

/-!
# Ratios and their decimal text

Exact arithmetic behind the numbers that reports print with a fixed number of decimal places.

* `Ratio`: a ratio of natural numbers.
* `Ratio.roundEven`: the nearest natural number; a half goes to the even neighbour.
* `Ratio.nearestDouble`: the binary floating-point number of 53 bits nearest to a ratio.
* `Ratio.fixed`: the text with a fixed number of decimal places.
-/

namespace NameHunt

/-- A ratio of natural numbers. -/
structure Ratio where
  num : Nat
  den : Nat
  deriving Repr, DecidableEq

namespace Ratio

/-- A whole number. -/
def ofNat (n : Nat) : Ratio := ⟨n, 1⟩

def add (a b : Ratio) : Ratio := ⟨a.num * b.den + b.num * a.den, a.den * b.den⟩

def mul (a b : Ratio) : Ratio := ⟨a.num * b.num, a.den * b.den⟩

def div (a b : Ratio) : Ratio := ⟨a.num * b.den, a.den * b.num⟩

/-- The nearest natural number; of two equally near ones the even one. -/
def roundEven (r : Ratio) : Nat :=
  let quotient := r.num / r.den
  let rest := r.num % r.den
  if 2 * rest < r.den then quotient
  else if r.den < 2 * rest then quotient + 1
  else if quotient % 2 = 0 then quotient
  else quotient + 1

/-- The largest `e` with `2 ^ e` not above the ratio. -/
def exponent (r : Ratio) : Int :=
  let e : Int := (r.num.log2 : Int) - (r.den.log2 : Int)
  if r.den <<< e.toNat ≤ r.num <<< (-e).toNat then e else e - 1

/-- The nearest number of the form `m * 2 ^ q` with `m` of 53 bits. Neither the smallest nor the
largest exponent of the format is reached by the numbers of a report. -/
def nearestDouble (r : Ratio) : Ratio :=
  if r.num = 0 ∨ r.den = 0 then ⟨0, 1⟩
  else
    let q := r.exponent - 52
    let m := roundEven ⟨r.num <<< (-q).toNat, r.den <<< q.toNat⟩
    ⟨m <<< q.toNat, 1 <<< (-q).toNat⟩

/-- The ratio with `places` digits after the point, at least one. -/
def fixed (places : Nat) (r : Ratio) : String :=
  let scaled := roundEven ⟨r.num * Decimal.tens places, r.den⟩
  String.ofList <|
    Decimal.digits (scaled / Decimal.tens places) ++
      '.' :: Decimal.padded places (scaled % Decimal.tens places)

end Ratio

end NameHunt
