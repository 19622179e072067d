import NameHunt.Text.Blank
import NameHunt.Text.Split

/-!
# Lists in a line

* `items`: the pieces of a text between commas, trimmed, without the empty ones.
* `items_append`: a comma divides two lists.
-/

namespace NameHunt.Text

/-- The trimmed pieces between commas that are not empty. -/
def items (s : List Char) : List String :=
  (((splitOn ',' s).map trim).filter fun piece => !piece.isEmpty).map String.ofList

/-- The pieces on both sides of a separator are those of the two sides. -/
theorem splitOn_append (sep : Char) (s t : List Char) :
    splitOn sep (s ++ sep :: t) = splitOn sep s ++ splitOn sep t := by
  induction s with
  | nil => simp [splitOn]
  | cons c s ih =>
    by_cases h : c = sep
    · simp [splitOn, h, ih]
    · obtain ⟨piece, rest, hsplit⟩ := List.exists_cons_of_ne_nil (splitOn_ne_nil sep s)
      simp [splitOn, h, ih, hsplit]

theorem items_append (s t : List Char) : items (s ++ ',' :: t) = items s ++ items t := by
  simp [items, splitOn_append]

end NameHunt.Text
