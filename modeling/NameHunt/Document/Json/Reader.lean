import NameHunt.Document.Basic
import NameHunt.Text.Number

/-!
# Reading JSON

A reader takes the characters that are left and answers a value with the characters after it, or
nothing if the text has no value there.

* `Json.readString?`: the inside of a string, up to its closing quote.
* `Json.readNumber?`: a number; it is whole if it has neither fraction nor exponent and is not a
  negative zero.
* `Json.read?`: one document with blanks around it and nothing else.
-/

namespace NameHunt.Json

/-- The four characters between the tokens of a text. -/
def isSpace (c : Char) : Bool :=
  c == ' ' || c == '\t' || c == '\n' || c == '\r'

def skipSpace (s : List Char) : List Char :=
  s.dropWhile isSpace

/-- The value of a hexadecimal digit. -/
def hexValue? (c : Char) : Option Nat :=
  if c.isDigit then some (c.toNat - 48)
  else if 'a' ≤ c ∧ c ≤ 'f' then some (c.toNat - 87)
  else if 'A' ≤ c ∧ c ≤ 'F' then some (c.toNat - 55)
  else none

/-- The number written by four hexadecimal digits. -/
def unit? (a b c d : Char) : Option Nat := do
  let a ← hexValue? a
  let b ← hexValue? b
  let c ← hexValue? c
  let d ← hexValue? d
  some (((a * 16 + b) * 16 + c) * 16 + d)

/-- The character that an escape of one letter stands for. -/
def simpleEscape? : Char → Option Char
  | '\x22' => some '\x22'
  | '\x5c' => some '\x5c'
  | '/' => some '/'
  | 'b' => some '\x08'
  | 'f' => some '\x0c'
  | 'n' => some '\n'
  | 'r' => some '\r'
  | 't' => some '\t'
  | _ => none

/-- Whether a UTF-16 unit is the first half of a pair. -/
def isHighSurrogate (n : Nat) : Bool := 0xD800 ≤ n && n < 0xDC00

/-- Whether a UTF-16 unit is the second half of a pair. -/
def isLowSurrogate (n : Nat) : Bool := 0xDC00 ≤ n && n < 0xE000

/-- The UTF-16 units and characters of a string, put together: nothing if a surrogate stands alone.
Escaped units are given as numbers, plain characters as themselves. -/
def joinUnits : List (Nat ⊕ Char) → Option (List Char)
  | [] => some []
  | .inr c :: rest => (joinUnits rest).map (c :: ·)
  | .inl n :: rest =>
    if isHighSurrogate n then
      match rest with
      | .inl m :: rest =>
        if isLowSurrogate m then
          (joinUnits rest).map (Char.ofNat (0x10000 + (n - 0xD800) * 0x400 + (m - 0xDC00)) :: ·)
        else none
      | _ => none
    else if isLowSurrogate n then none
    else (joinUnits rest).map (Char.ofNat n :: ·)

/-- The pieces of a string up to its closing quote, newest first. -/
def readPieces? (seen : List (Nat ⊕ Char)) : List Char → Option (List (Nat ⊕ Char) × List Char)
  | [] => none
  | '\x22' :: rest => some (seen, rest)
  | '\x5c' :: 'u' :: a :: b :: c :: d :: rest =>
    match unit? a b c d with
    | some n => readPieces? (.inl n :: seen) rest
    | none => none
  | '\x5c' :: e :: rest =>
    match simpleEscape? e with
    | some c => readPieces? (.inr c :: seen) rest
    | none => none
  | c :: rest => if c.toNat < 0x20 || c == '\x5c' then none else readPieces? (.inr c :: seen) rest

/-- The inside of a string: its text, if it is one. -/
def readString? (s : List Char) : Option (Option String × List Char) :=
  match readPieces? [] s with
  | some (pieces, rest) => some ((joinUnits pieces.reverse).map String.ofList, rest)
  | none => none

/-- The digits at the front. -/
def spanDigits (s : List Char) : List Char × List Char :=
  (s.takeWhile Char.isDigit, s.dropWhile Char.isDigit)

/-- The whole part of a number: a zero alone or digits that do not start with one. -/
def readWhole? (s : List Char) : Option (List Char × List Char) :=
  match spanDigits s with
  | ([], _) => none
  | ('0' :: _ :: _, _) => none
  | found => some found

/-- A point and digits, if a point is next. -/
def readFraction? : List Char → Option (List Char × List Char)
  | '.' :: rest =>
    match spanDigits rest with
    | ([], _) => none
    | (digits, rest) => some ('.' :: digits, rest)
  | s => some ([], s)

/-- An exponent, if its letter is next. -/
def readExponent? : List Char → Option (List Char × List Char)
  | [] => some ([], [])
  | c :: rest =>
    if c = 'e' ∨ c = 'E' then
      let (sign, rest) : List Char × List Char :=
        match rest with
        | '+' :: rest => (['+'], rest)
        | '-' :: rest => (['-'], rest)
        | _ => ([], rest)
      match spanDigits rest with
      | ([], _) => none
      | (digits, rest) => some (c :: sign ++ digits, rest)
    else some ([], c :: rest)

/-- A number. -/
def readNumber? (s : List Char) : Option (Document × List Char) := do
  let (negative, s) : Bool × List Char :=
    match s with
    | '-' :: rest => (true, rest)
    | _ => (false, s)
  let (whole, s) ← readWhole? s
  let (fraction, s) ← readFraction? s
  let (exponent, s) ← readExponent? s
  let n := Text.digitsValue whole
  if fraction.isEmpty && exponent.isEmpty && !(negative && n == 0) then
    some (.integer (if negative then -(n : Int) else n), s)
  else
    let sign := if negative then ['-'] else []
    some (.real (String.ofList (sign ++ whole ++ fraction ++ exponent)), s)

/-- The rest after a given word. -/
def afterWord? : List Char → List Char → Option (List Char)
  | [], s => some s
  | c :: word, d :: s => if c = d then afterWord? word s else none
  | _ :: _, [] => none

mutual

/-- A value and the characters after it. Each nested value costs one unit of fuel. -/
def readValue? : Nat → List Char → Option (Document × List Char)
  | 0, _ => none
  | fuel + 1, s =>
    match skipSpace s with
    | [] => none
    | '\x22' :: rest =>
      match readString? rest with
      | some (some text, rest) => some (.text text, rest)
      | some (none, rest) => some (.broken, rest)
      | none => none
    | '[' :: rest =>
      match skipSpace rest with
      | ']' :: rest => some (.list [], rest)
      | _ => readItems? fuel [] rest
    | '\x7b' :: rest =>
      match skipSpace rest with
      | '\x7d' :: rest => some (.table [], rest)
      | rest => readFields? fuel [] rest
    | 't' :: rest => (afterWord? "rue".toList rest).map fun rest => (.truth true, rest)
    | 'f' :: rest => (afterWord? "alse".toList rest).map fun rest => (.truth false, rest)
    | 'n' :: rest => (afterWord? "ull".toList rest).map fun rest => (.null, rest)
    | s => readNumber? s

/-- The items of a list from the next one on; `seen` holds the earlier ones, newest first. -/
def readItems? : Nat → List Document → List Char → Option (Document × List Char)
  | 0, _, _ => none
  | fuel + 1, seen, s =>
    match readValue? fuel s with
    | none => none
    | some (item, s) =>
      match skipSpace s with
      | ',' :: rest => readItems? fuel (item :: seen) rest
      | ']' :: rest => some (.list (item :: seen).reverse, rest)
      | _ => none

/-- The fields of a table from the next one on. -/
def readFields? : Nat → List (String × Document) → List Char → Option (Document × List Char)
  | 0, _, _ => none
  | fuel + 1, seen, s =>
    match skipSpace s with
    | '\x22' :: rest =>
      match readString? rest with
      | some (some name, rest) =>
        match skipSpace rest with
        | ':' :: rest =>
          match readValue? fuel rest with
          | none => none
          | some (value, rest) =>
            match skipSpace rest with
            | ',' :: rest => readFields? fuel ((name, value) :: seen) rest
            | '\x7d' :: rest => some (.table ((name, value) :: seen).reverse, rest)
            | _ => none
        | _ => none
      | _ => none
    | _ => none

end

/-- The one document of a text. Every character read is worth one unit of fuel, and a value costs
at most two. -/
def read? (s : List Char) : Option Document :=
  match readValue? (2 * s.length + 2) s with
  | some (value, rest) => if (skipSpace rest).isEmpty then some value else none
  | none => none

end NameHunt.Json
