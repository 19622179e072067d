import NameHunt.Text.LowerCase
import NameHunt.Text.WidthTable

/-!
# Text in a column

* `charWidth`, `width`: how many columns a character and a text take.
* `takeColumns`: as many characters as fit.
* `padRight`: a text brought to a fixed width, by spaces or by cutting.
-/

namespace NameHunt.Text

/-- The columns of one printed character: none for control characters. -/
def charWidth (c : Char) : Nat :=
  let n := c.toNat
  if n < 0x20 then 0
  else if n < 0x7F then 1
  else if n < 0xA0 then 0
  else if inRuns zeroWidthRuns n then 0
  else if inRuns wideRuns n then 2
  else 1

/-- A control character inside a text takes one column. -/
def isControl (c : Char) : Bool :=
  c.toNat < 0x20 || (0x7F ≤ c.toNat && c.toNat < 0xA0)

/-- The columns of a text. -/
def width (s : List Char) : Nat :=
  s.foldl (fun n c => n + if isControl c then 1 else charWidth c) 0

/-- The characters up to the one that fills the columns, without one that would pass them. -/
def takeColumns : Nat → List Char → List Char
  | _, [] => []
  | room, c :: rest =>
    if charWidth c = room then [c]
    else if charWidth c < room then c :: takeColumns (room - charWidth c) rest
    else []

/-- A text in a column: spaces fill it on the right; a text that is too wide is cut and ends in
`tail`. -/
def padRight (columns : Nat) (tail s : List Char) : List Char :=
  if width s < columns then s ++ List.replicate (columns - width s) ' '
  else if width s = columns then s
  else takeColumns (columns - width tail) s ++ tail

end NameHunt.Text
