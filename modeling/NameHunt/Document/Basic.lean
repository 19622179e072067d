/-!
# Documents

The tree of values that settings files and entry texts are written in, and the reading of records
from it.

* `Document`: scalars, lists and tables. A table keeps the order and the repetitions of its fields.
* `Document.record?`: the fields of a record, read from a table by name or from a list by place.
* `Document.text?`, `Document.natural?`, `Document.texts?`: typed values.
* `Document.optional?`: a field that may be absent or null.
-/

namespace NameHunt

/-- A value of a data text. -/
inductive Document where
  | null
  | truth (value : Bool)
  | integer (value : Int)
  /-- A number with a fraction or an exponent, as it was written. -/
  | real (literal : String)
  /-- A date or a time, as it was written. -/
  | moment (literal : String)
  | text (value : String)
  /-- A string with half a surrogate pair, which is no text. -/
  | broken
  | list (items : List Document)
  | table (fields : List (String × Document))

namespace Document

/-- The fields of a record with the given names. A table may hold other fields too, and each name
at most once. A list holds one item for each name, and more items only if a surplus is allowed. A
date has no field that a name could ask for. -/
def record? (surplus : Bool) (names : List String) : Document → Option (String → Option Document)
  | table fields =>
    if names.all fun name => (fields.filter (·.1 == name)).length ≤ 1 then
      some fun name => fields.lookup name
    else none
  | list items =>
    if items.length = names.length ∨ (surplus ∧ names.length < items.length) then
      some fun name => (names.zip items).lookup name
    else none
  | moment _ => some fun _ => none
  | _ => none

def text? : Document → Option String
  | text value => some value
  | _ => none

/-- A whole number from zero to `bound`. -/
def natural? (bound : Nat) : Document → Option Nat
  | integer (.ofNat n) => if n ≤ bound then some n else none
  | _ => none

/-- A list of texts. -/
def texts? : Document → Option (List String)
  | list items => items.mapM text?
  | _ => none

/-- A field that may be absent. A field that is there must be of its type. -/
def optional? {α : Type} (read : Document → Option α) : Option Document → Option (Option α)
  | none | some null => some none
  | some value => (read value).map some

/-- A field that has to be there. -/
def required? {α : Type} (read : Document → Option α) : Option Document → Option α
  | none => none
  | some value => read value

/-- A natural number as a document. -/
def nat (n : Nat) : Document := integer n

end Document

end NameHunt
