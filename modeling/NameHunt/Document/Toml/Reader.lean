import NameHunt.Document.Toml.Quoted
import NameHunt.Document.Toml.Tree

/-!
# Reading TOML

Version 1.1 of the language: inline tables may stand on several lines, and the seconds of a time
may be left out.

* `Toml.readValue?`: one value.
* `Toml.readLine?`: one line with a key and a value, a header, or nothing.
* `Toml.read?`: the table of a text; nothing if a line is malformed or defines something twice.
-/

namespace NameHunt.Toml

/-- The blanks inside a line. -/
def skipInline (s : List Char) : List Char :=
  s.dropWhile fun c => c == ' ' || c == '\t'

/-- The text after blanks, line feeds and comments; nothing if a comment holds a control
character. -/
def skipGaps : Bool → List Char → Option (List Char)
  | _, [] => some []
  | true, c :: rest =>
    if c = '\n' then skipGaps false rest else if isPlain c then skipGaps true rest else none
  | false, c :: rest =>
    if c = ' ' ∨ c = '\t' ∨ c = '\n' then skipGaps false rest
    else if c = '#' then skipGaps true rest
    else some (c :: rest)

/-- A key: names with points between them. The last name is given apart. -/
def readKey? : Nat → List String → List Char → Option (List String × String × List Char)
  | 0, _, _ => none
  | fuel + 1, path, s =>
    match key? (skipInline s) with
    | none => none
    | some (name, rest) =>
      match skipInline rest with
      | '.' :: rest => readKey? fuel (name :: path) rest
      | rest => some (path.reverse, name, rest)

/-- The characters of a word without quotes. -/
def isWordChar (c : Char) : Bool :=
  c.isAlphanum || c == '_' || c == '+' || c == '-' || c == '.' || c == ':'

/-- A word without quotes. One space may stand between a date and a time. -/
def spanWord (s : List Char) : List Char × List Char :=
  let word := s.takeWhile isWordChar
  let rest := s.dropWhile isWordChar
  match rest with
  | ' ' :: c :: more =>
    if c.isDigit && date? word == some [] then
      let clock := (c :: more).takeWhile isWordChar
      (word ++ ' ' :: clock, (c :: more).dropWhile isWordChar)
    else (word, rest)
  | _ => (word, rest)

mutual

/-- A value and the characters after it. Each nested value costs one unit of fuel. -/
def readValue? : Nat → List Char → Option (Document × List Char)
  | 0, _ => none
  | fuel + 1, s =>
    match s with
    | [] => none
    | '[' :: rest => readItems? fuel [] rest
    | '\x7b' :: rest => (readFields? fuel [] rest).map fun (fields, rest) =>
        (.table (fieldDocuments fields), rest)
    | c :: rest =>
      if c = doubleQuote ∨ c = singleQuote then
        (string? (c :: rest)).map fun (text, rest) => (.text (String.ofList text), rest)
      else
        let (word, rest) := spanWord (c :: rest)
        (scalar? word).map fun value => (value, rest)

/-- The items of a list from the next one on; `seen` holds the earlier ones, newest first. -/
def readItems? : Nat → List Document → List Char → Option (Document × List Char)
  | 0, _, _ => none
  | fuel + 1, seen, s =>
    match skipGaps false s with
    | none => none
    | some (']' :: rest) => some (.list seen.reverse, rest)
    | some s =>
      match readValue? fuel s with
      | none => none
      | some (item, rest) =>
        match skipGaps false rest with
        | some (',' :: rest) => readItems? fuel (item :: seen) rest
        | some (']' :: rest) => some (.list (item :: seen).reverse, rest)
        | _ => none

/-- The fields of an inline table from the next one on. -/
def readFields? : Nat → Fields → List Char → Option (Fields × List Char)
  | 0, _, _ => none
  | fuel + 1, seen, s =>
    match skipGaps false s with
    | none => none
    | some ('\x7d' :: rest) => some (seen, rest)
    | some s =>
      match readKey? (s.length + 1) [] s with
      | some (path, name, '=' :: rest) =>
        match readValue? fuel (skipInline rest) with
        | none => none
        | some (value, rest) =>
          match assignHere path name value seen, skipGaps false rest with
          | some fields, some (',' :: rest) => readFields? fuel fields rest
          | some fields, some ('\x7d' :: rest) => some (fields, rest)
          | _, _ => none
      | _ => none

end

/-- The text after the end of a line: blanks, a comment and a line feed. -/
def endLine? (s : List Char) : Option (List Char) :=
  match skipInline s with
  | [] => some []
  | '\n' :: rest => some rest
  | '#' :: rest =>
    let comment := rest.takeWhile (· != '\n')
    if comment.all isPlain then some ((rest.dropWhile (· != '\n')).drop 1) else none
  | _ => none

/-- A table under construction, with the path of its newest header. -/
structure Draft where
  header : List String
  fields : Fields

/-- A header, after its opening brackets. `closing` holds the brackets that end it. -/
def readHeader? (define : List String → String → Fields → Option Fields) (closing : List Char)
    (draft : Draft) (s : List Char) : Option (Draft × List Char) :=
  match readKey? (s.length + 1) [] s with
  | none => none
  | some (path, name, rest) =>
    if rest.take closing.length = closing then
      match define path name draft.fields, endLine? (rest.drop closing.length) with
      | some fields, some rest => some (⟨path ++ [name], fields⟩, rest)
      | _, _ => none
    else none

/-- One line. -/
def readLine? (draft : Draft) (s : List Char) : Option (Draft × List Char) :=
  match skipInline s with
  | '[' :: '[' :: rest => readHeader? openElement [']', ']'] draft rest
  | '[' :: rest => readHeader? openTable [']'] draft rest
  | '\n' :: rest => some (draft, rest)
  | '#' :: rest => (endLine? ('#' :: rest)).map fun rest => (draft, rest)
  | [] => some (draft, [])
  | s =>
    match readKey? (s.length + 1) [] s with
    | some (path, name, '=' :: rest) =>
      match readValue? (2 * s.length + 2) (skipInline rest) with
      | none => none
      | some (value, rest) =>
        match assign draft.header path name value draft.fields, endLine? rest with
        | some fields, some rest => some (⟨draft.header, fields⟩, rest)
        | _, _ => none
    | _ => none

/-- The lines from the next one on. -/
def readLines? : Nat → Draft → List Char → Option Fields
  | 0, _, _ => none
  | _ + 1, draft, [] => some draft.fields
  | fuel + 1, draft, s =>
    match readLine? draft s with
    | some (draft, rest) => readLines? fuel draft rest
    | none => none

/-- A carriage return counts only with a line feed, and then goes with it. -/
def dropReturns : List Char → List Char
  | '\r' :: '\n' :: rest => '\n' :: dropReturns rest
  | c :: rest => c :: dropReturns rest
  | [] => []

/-- The text without a byte order mark. -/
def dropMark : List Char → List Char
  | c :: rest => if c.toNat = 0xFEFF then rest else c :: rest
  | [] => []

/-- The table of a text. -/
def read? (s : List Char) : Option Document :=
  let s := dropReturns (dropMark s)
  (readLines? (s.length + 1) ⟨[], []⟩ s).map fun fields => .table (fieldDocuments fields)

end NameHunt.Toml
