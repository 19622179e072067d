/-!
# Decimal digits

* `digits`: a natural number in decimal.
* `tens`: the powers of ten.
* `padded`: the same with zeros in front.
* `fraction`: a point and the digits of a fraction without its trailing zeros.
-/

namespace NameHunt.Decimal

/-- A natural number in decimal. -/
def digits (n : Nat) : List Char :=
  Nat.toDigits 10 n

/-- The digits of `n`, with zeros in front up to the given number of digits. -/
def padded (places n : Nat) : List Char :=
  List.replicate (places - (digits n).length) '0' ++ digits n

/-- Ten to the power of `n`. -/
def tens : Nat → Nat
  | 0 => 1
  | n + 1 => 10 * tens n

/-- The fraction `n / tens places` written after a point as short as possible; nothing for zero. -/
def fraction (places n : Nat) : List Char :=
  if n = 0 then []
  else '.' :: ((padded places n).reverse.dropWhile (· == '0')).reverse

end NameHunt.Decimal
