import NameHunt.Decimal.Digits
import NameHunt.Document.Basic

/-!
# Writing JSON

* `Document.json`: the compact JSON text of a document, fields in their order.
* `Json.quoted`: a text between quotes; quotes, backslashes and control characters are escaped and
  all else is written as it is.
-/

namespace NameHunt

namespace Json

/-- One hexadecimal digit in lower case. -/
def hexDigit (n : Nat) : Char :=
  if n < 10 then Char.ofNat (48 + n) else Char.ofNat (87 + n)

/-- A character inside quotes. -/
def escaped (c : Char) : List Char :=
  match c.toNat with
  | 0x22 => ['\x5c', '\x22']
  | 0x5c => ['\x5c', '\x5c']
  | 0x08 => ['\x5c', 'b']
  | 0x09 => ['\x5c', 't']
  | 0x0a => ['\x5c', 'n']
  | 0x0c => ['\x5c', 'f']
  | 0x0d => ['\x5c', 'r']
  | n => if n < 0x20 then ['\x5c', 'u', '0', '0', hexDigit (n / 16), hexDigit (n % 16)] else [c]

/-- A text between quotes. -/
def quoted (s : String) : List Char :=
  '\x22' :: s.toList.flatMap escaped ++ ['\x22']

/-- A whole number. -/
def number : Int → List Char
  | .ofNat n => Decimal.digits n
  | .negSucc n => '-' :: Decimal.digits (n + 1)

end Json

namespace Document

mutual

/-- The characters of the JSON text. A date is written as a text, a broken string as null. -/
def jsonChars : Document → List Char
  | null => "null".toList
  | truth true => "true".toList
  | truth false => "false".toList
  | integer n => Json.number n
  | real literal => literal.toList
  | moment literal => Json.quoted literal
  | text s => Json.quoted s
  | broken => "null".toList
  | list items => '[' :: jsonItems items ++ [']']
  | table fields => '\x7b' :: jsonFields fields ++ ['\x7d']

/-- The items of a list with commas between them. -/
def jsonItems : List Document → List Char
  | [] => []
  | [item] => jsonChars item
  | item :: rest => jsonChars item ++ ',' :: jsonItems rest

/-- The fields of a table with commas between them. -/
def jsonFields : List (String × Document) → List Char
  | [] => []
  | [(name, value)] => Json.quoted name ++ ':' :: jsonChars value
  | (name, value) :: rest => Json.quoted name ++ ':' :: jsonChars value ++ ',' :: jsonFields rest

end

/-- The compact JSON text. -/
def json (d : Document) : String :=
  String.ofList d.jsonChars

end Document

end NameHunt
