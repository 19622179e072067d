import NameHunt.Document.Toml.Scalar

/-!
# Quoted TOML texts and keys

Carriage returns before line feeds are taken off before a text comes here.

* `Toml.basic?`, `Toml.literal?`: strings on one line, with and without escapes.
* `Toml.basicBlock?`, `Toml.literalBlock?`: strings over several lines, in three quotes.
* `Toml.string?`: any of the four, by its first quotes.
* `Toml.key?`: a bare or quoted key.
-/

namespace NameHunt.Toml

/-- The quote of a string with escapes. -/
def doubleQuote : Char := '\x22'

/-- The quote of a string without escapes. -/
def singleQuote : Char := '\x27'

/-- A tab and every character that is no control character may stand in a string or a comment. -/
def isPlain (c : Char) : Bool :=
  c == '\t' || (0x20 ≤ c.toNat && c.toNat != 0x7F)

/-- The character of an escape of one letter. -/
def simpleEscape? (c : Char) : Option Char :=
  match c.toNat with
  | 0x62 => some '\x08'
  | 0x74 => some '\t'
  | 0x6e => some '\n'
  | 0x66 => some '\x0c'
  | 0x72 => some '\r'
  | 0x65 => some '\x1b'
  | 0x22 => some '\x22'
  | 0x5c => some '\x5c'
  | _ => none

/-- How many hexadecimal digits follow the letter of a numeric escape. -/
def numericEscape? (c : Char) : Option Nat :=
  match c.toNat with
  | 0x78 => some 2
  | 0x75 => some 4
  | 0x55 => some 8
  | _ => none

/-- The character with a given number; surrogates and numbers above the last plane have none. -/
def character? (n : Nat) : Option Char :=
  if n < 0xD800 ∨ (0xDFFF < n ∧ n < 0x110000) then some (Char.ofNat n) else none

/-- The character of an escape, after its backslash. -/
def escape? : List Char → Option (Char × List Char)
  | [] => none
  | c :: rest =>
    match simpleEscape? c with
    | some d => some (d, rest)
    | none =>
      match numericEscape? c with
      | some count =>
        let digits := rest.take count
        if digits.length = count ∧ digits.all isHexDigit then
          (character? (valueIn 16 digits)).map fun d => (d, rest.drop count)
        else none
      | none => none

/-- A string with escapes, after its opening quote. `fuel` bounds the characters. -/
def basic? : Nat → List Char → List Char → Option (List Char × List Char)
  | 0, _, _ => none
  | _ + 1, _, [] => none
  | fuel + 1, seen, c :: rest =>
    if c = doubleQuote then some (seen.reverse, rest)
    else if c = '\x5c' then
      match escape? rest with
      | some (d, rest) => basic? fuel (d :: seen) rest
      | none => none
    else if isPlain c then basic? fuel (c :: seen) rest
    else none

/-- A string without escapes, after its opening quote. -/
def literal? (seen : List Char) : List Char → Option (List Char × List Char)
  | [] => none
  | c :: rest =>
    if c = singleQuote then some (seen.reverse, rest)
    else if isPlain c then literal? (c :: seen) rest
    else none

/-- The quotes at the front, at most five. -/
def spanQuotes (quote : Char) (s : List Char) : Nat :=
  ((s.take 5).takeWhile (· == quote)).length

/-- Whether a backslash is followed by blanks up to the end of its line. -/
def endsLine (s : List Char) : Bool :=
  match s.dropWhile fun c => c == ' ' || c == '\t' with
  | '\n' :: _ => true
  | _ => false

/-- The text after the blanks and line feeds at the front. -/
def skipBlankLines (s : List Char) : List Char :=
  s.dropWhile fun c => c == ' ' || c == '\t' || c == '\n'

/-- A string in three quotes, after its opening quotes. Of three to five quotes in a row the last
three close it. -/
def block? (quote : Char) : Nat → List Char → List Char → Option (List Char × List Char)
  | 0, _, _ => none
  | _ + 1, _, [] => none
  | fuel + 1, seen, c :: rest =>
    if c = quote then
      let quotes := spanQuotes quote (c :: rest)
      if 3 ≤ quotes then
        some ((List.replicate (quotes - 3) quote ++ seen).reverse, (c :: rest).drop quotes)
      else block? quote fuel (c :: seen) rest
    else if c = '\x5c' ∧ quote = doubleQuote then
      if endsLine rest then block? quote fuel seen (skipBlankLines rest)
      else
        match escape? rest with
        | some (d, rest) => block? quote fuel (d :: seen) rest
        | none => none
    else if isPlain c ∨ c = '\n' then block? quote fuel (c :: seen) rest
    else none

/-- The text without a line feed right at its start. -/
def dropLineFeed : List Char → List Char
  | '\n' :: rest => rest
  | s => s

/-- A string on one line, by its quote. -/
def lineString? (s : List Char) : Option (List Char × List Char) :=
  match s with
  | [] => none
  | c :: rest =>
    if c = doubleQuote then basic? (rest.length + 1) [] rest
    else if c = singleQuote then literal? [] rest
    else none

/-- Any string, by its quotes. -/
def string? (s : List Char) : Option (List Char × List Char) :=
  match s with
  | a :: b :: c :: rest =>
    if a = b ∧ b = c ∧ (a = doubleQuote ∨ a = singleQuote) then
      block? a (rest.length + 1) [] (dropLineFeed rest)
    else lineString? s
  | _ => lineString? s

/-- The characters of a key without quotes. -/
def isBare (c : Char) : Bool :=
  c.isAlphanum || c == '_' || c == '-'

/-- A bare key or a string on one line. -/
def key? (s : List Char) : Option (String × List Char) :=
  match s.takeWhile isBare with
  | [] => (lineString? s).map fun (name, rest) => (String.ofList name, rest)
  | name => some (String.ofList name, s.dropWhile isBare)

end NameHunt.Toml
