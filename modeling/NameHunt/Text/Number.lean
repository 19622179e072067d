/-!
# Reading unsigned numbers

* `readDigits?`: one or more ASCII digits.
* `readUnsigned?`: the same with an optional plus sign and an upper bound.
-/

namespace NameHunt.Text

/-- The value of a text of decimal digits, most significant first. -/
def digitsValue (s : List Char) : Nat :=
  s.foldl (fun n c => 10 * n + (c.toNat - '0'.toNat)) 0

/-- One or more ASCII digits and nothing else. -/
def readDigits? (s : List Char) : Option Nat :=
  if s.isEmpty then none
  else if s.all Char.isDigit then some (digitsValue s)
  else none

/-- The text without one leading plus sign. -/
def dropPlus : List Char → List Char
  | '+' :: rest => rest
  | s => s

/-- An optional plus sign, then digits whose value is at most `bound`. -/
def readUnsigned? (bound : Nat) (s : List Char) : Option Nat :=
  match readDigits? (dropPlus s) with
  | some n => if n ≤ bound then some n else none
  | none => none

/-- The largest number of 32 bits. -/
def max32 : Nat := 0xFFFFFFFF

/-- The largest number of 64 bits. -/
def max64 : Nat := 0xFFFFFFFFFFFFFFFF

end NameHunt.Text
