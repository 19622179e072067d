import NameHunt.Decimal.Digits
import NameHunt.Document.Basic
import NameHunt.Text.Number

/-!
# Unquoted TOML values

A value without quotes is a word of letters, digits and a few signs. Its shape tells what it is.

* `Toml.integer?`: decimal, hexadecimal, octal and binary whole numbers, with single underscores
  between digits.
* `Toml.real?`: a fraction, an exponent, or one of the words for infinity and for no number.
* `Toml.moment?`: a date, a time, or both with an optional offset.
* `Toml.scalar?`: the document of a word.
-/

namespace NameHunt.Toml

/-- The digits of a number of the given kind, if single underscores stand between digits only. -/
def plainDigits? (isDigit : Char → Bool) : List Char → Option (List Char)
  | [] => none
  | [c] => if isDigit c then some [c] else none
  | c :: '_' :: rest =>
    if isDigit c then (plainDigits? isDigit rest).map (c :: ·) else none
  | c :: rest => if isDigit c then (plainDigits? isDigit rest).map (c :: ·) else none

/-- The value of a digit up to thirty-five. -/
def digitValue (c : Char) : Nat :=
  if c.isDigit then c.toNat - 48
  else if 'a' ≤ c ∧ c ≤ 'z' then c.toNat - 87
  else c.toNat - 55

/-- The value of digits to a base. -/
def valueIn (base : Nat) (digits : List Char) : Nat :=
  digits.foldl (fun n c => base * n + digitValue c) 0

def isHexDigit (c : Char) : Bool :=
  c.isDigit || ('a' ≤ c && c ≤ 'f') || ('A' ≤ c && c ≤ 'F')

def isOctalDigit (c : Char) : Bool := '0' ≤ c && c ≤ '7'

def isBinaryDigit (c : Char) : Bool := c == '0' || c == '1'

/-- A decimal number without a sign; it starts with a zero only if it is zero. -/
def natural? (s : List Char) : Option Nat :=
  match plainDigits? Char.isDigit s with
  | some ('0' :: _ :: _) => none
  | some digits => some (Text.digitsValue digits)
  | none => none

/-- A whole number. Only decimal numbers have a sign. -/
def integer? : List Char → Option Int
  | '0' :: 'x' :: rest => (plainDigits? isHexDigit rest).map fun s => (valueIn 16 s : Int)
  | '0' :: 'o' :: rest => (plainDigits? isOctalDigit rest).map fun s => (valueIn 8 s : Int)
  | '0' :: 'b' :: rest => (plainDigits? isBinaryDigit rest).map fun s => (valueIn 2 s : Int)
  | '+' :: rest => (natural? rest).map fun n => (n : Int)
  | '-' :: rest => (natural? rest).map fun n => -(n : Int)
  | s => (natural? s).map fun n => (n : Int)

/-- Whole numbers of 128 bits, with a sign or without one, are held; others are refused. -/
def isHeld (n : Int) : Bool :=
  -0x80000000000000000000000000000000 ≤ n && n ≤ 0xFFFFFFFFFFFFFFFFFFFFFFFFFFFFFFFF

/-- The text without a leading sign. -/
def dropSign : List Char → List Char
  | '+' :: rest => rest
  | '-' :: rest => rest
  | s => s

/-- An exponent after its letter: an optional sign and digits, zeros in front allowed. -/
def isExponent (s : List Char) : Bool :=
  (plainDigits? Char.isDigit (dropSign s)).isSome

def isExponentLetter (c : Char) : Bool := c == 'e' || c == 'E'

/-- Digits after a point, with an optional exponent. -/
def isFraction (s : List Char) : Bool :=
  let digits := s.takeWhile fun c => !isExponentLetter c
  (plainDigits? Char.isDigit digits).isSome &&
    match s.dropWhile fun c => !isExponentLetter c with
    | [] => true
    | _ :: exponent => isExponent exponent

/-- A number that is not whole. -/
def isReal (s : List Char) : Bool :=
  let body := dropSign s
  if body = "inf".toList ∨ body = "nan".toList then true
  else
    let whole := body.takeWhile fun c => c.isDigit || c == '_'
    (natural? whole).isSome &&
      match body.dropWhile fun c => c.isDigit || c == '_' with
      | '.' :: rest => isFraction rest
      | c :: rest => isExponentLetter c && isExponent rest
      | [] => false

/-- The value of an exponent after its letter. -/
def exponentValue (s : List Char) : Int :=
  let size : Int := Text.digitsValue ((dropSign s).filter Char.isDigit)
  if s.head? = some '-' then -size else size

/-- The least number that is too large for a double: it lies half a step above the largest one. -/
def doubleBound : Nat := (1 <<< 1024) - (1 <<< 970)

/-- Whether the double nearest to a number with these digits, the last of which counts for a power
of ten, is finite. The bound has 309 digits, so that others are settled by their length. -/
def isFinite (digits : List Char) (power : Int) : Bool :=
  let digits := digits.dropWhile (· == '0')
  let size := digits.length + power
  if digits.isEmpty || size < 309 then true
  else if 309 < size then false
  else
    let n := Text.digitsValue digits
    n * Decimal.tens power.toNat < doubleBound * Decimal.tens (-power).toNat

/-- Numbers that are not too large for a double are held, and so are the words for infinity and for
no number. -/
def isHeldReal (s : List Char) : Bool :=
  let body := dropSign s
  let digits := body.takeWhile fun c => !isExponentLetter c
  let exponent := (body.dropWhile fun c => !isExponentLetter c).drop 1
  let places := ((digits.dropWhile (· != '.')).filter Char.isDigit).length
  isFinite (digits.filter Char.isDigit) (exponentValue exponent - places)

/-- Exactly `count` decimal digits at the front, as a number. -/
def fixedDigits? (count : Nat) (s : List Char) : Option (Nat × List Char) :=
  let digits := s.take count
  if digits.length = count ∧ digits.all Char.isDigit then
    some (Text.digitsValue digits, s.drop count)
  else none

/-- The rest after an expected character. -/
def after? (c : Char) : List Char → Option (List Char)
  | d :: rest => if c = d then some rest else none
  | [] => none

def isLeapYear (year : Nat) : Bool :=
  year % 4 == 0 && (year % 100 != 0 || year % 400 == 0)

def daysInMonth (year month : Nat) : Nat :=
  if month = 2 then (if isLeapYear year then 29 else 28)
  else if month = 4 ∨ month = 6 ∨ month = 9 ∨ month = 11 then 30
  else 31

/-- Year, month and day, joined by hyphens. -/
def date? (s : List Char) : Option (List Char) := do
  let (year, s) ← fixedDigits? 4 s
  let s ← after? '-' s
  let (month, s) ← fixedDigits? 2 s
  let s ← after? '-' s
  let (day, s) ← fixedDigits? 2 s
  if 1 ≤ month ∧ month ≤ 12 ∧ 1 ≤ day ∧ day ≤ daysInMonth year month then some s else none

/-- Digits after a point, if a point is next. -/
def subseconds? : List Char → Option (List Char)
  | '.' :: rest =>
    if (rest.takeWhile Char.isDigit).isEmpty then none else some (rest.dropWhile Char.isDigit)
  | s => some s

/-- Hours and minutes, and seconds if they are given. -/
def time? (s : List Char) : Option (List Char) := do
  let (hour, s) ← fixedDigits? 2 s
  let s ← after? ':' s
  let (minute, s) ← fixedDigits? 2 s
  if 23 < hour ∨ 59 < minute then none
  else
    match s with
    | ':' :: rest =>
      match fixedDigits? 2 rest with
      | some (second, rest) => if 60 < second then none else subseconds? rest
      | none => none
    | _ => some s

/-- What may follow a date and a time: nothing, the letter for universal time, or an offset. -/
def isOffset : List Char → Bool
  | [] => true
  | ['Z'] => true
  | ['z'] => true
  | c :: rest =>
    (c == '+' || c == '-') &&
      match fixedDigits? 2 rest with
      | some (hour, ':' :: rest) =>
        match fixedDigits? 2 rest with
        | some (minute, []) => hour ≤ 23 && minute ≤ 59
        | _ => false
      | _ => false

/-- A date, a time, or a date and a time joined by the letter T or a space. -/
def isMoment (s : List Char) : Bool :=
  match date? s with
  | some [] => true
  | some (c :: rest) =>
    (c == 'T' || c == 't' || c == ' ') && ((time? rest).map isOffset).getD false
  | none => time? s == some []

/-- The document of an unquoted word. -/
def scalar? (s : List Char) : Option Document :=
  if s = "true".toList then some (.truth true)
  else if s = "false".toList then some (.truth false)
  else
    match integer? s with
    | some n => if isHeld n then some (.integer n) else none
    | none =>
      if isReal s then (if isHeldReal s then some (.real (String.ofList s)) else none)
      else if isMoment s then some (.moment (String.ofList s))
      else none

end NameHunt.Toml
