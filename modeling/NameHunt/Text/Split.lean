/-!
# Cutting text at a character

* `splitOn`: all pieces between occurrences of a separator; there is always at least one piece.
* `cutAt`: the two sides of the first separator.
* `cutAtLast`: the two sides of the last separator.
* `lines`: the lines of a text, ended by a line feed or by a carriage return and a line feed.
-/

namespace NameHunt.Text

/-- The pieces between the separators. A text without a separator is one piece. -/
def splitOn (sep : Char) : List Char → List (List Char)
  | [] => [[]]
  | c :: cs =>
    if c = sep then [] :: splitOn sep cs
    else
      match splitOn sep cs with
      | [] => [[c]]
      | piece :: rest => (c :: piece) :: rest

theorem splitOn_ne_nil (sep : Char) (s : List Char) : splitOn sep s ≠ [] := by
  cases s with
  | nil => simp [splitOn]
  | cons c cs =>
    unfold splitOn
    split
    · simp
    · split <;> simp

/-- What stands before and after the first separator. -/
def cutAt (sep : Char) (s : List Char) : Option (List Char × List Char) :=
  match s.dropWhile (· != sep) with
  | [] => none
  | _ :: rest => some (s.takeWhile (· != sep), rest)

/-- What stands before and after the last separator. -/
def cutAtLast (sep : Char) (s : List Char) : Option (List Char × List Char) :=
  (cutAt sep s.reverse).map fun (after, before) => (before.reverse, after.reverse)

/-- A line feed, and a carriage return right before it, end a line. -/
def dropReturn (line : List Char) : List Char :=
  match line.reverse with
  | '\r' :: rest => rest.reverse
  | _ => line

/-- The lines of a text, given its pieces between line feeds. What follows the last line feed is a
line only if it is not empty, and it keeps its carriage return. -/
def linesOfPieces : List (List Char) → List (List Char)
  | [] => []
  | [last] => if last.isEmpty then [] else [last]
  | piece :: rest => dropReturn piece :: linesOfPieces rest

/-- The lines of a text. -/
def lines (s : List Char) : List (List Char) :=
  linesOfPieces (splitOn '\n' s)

end NameHunt.Text
