/-!
# Blank characters

The characters with the Unicode property White_Space, and the removal of them from both ends of a
text.

* `isBlank`: the property.
* `trim`, `strip`: the text without its leading and trailing blanks, as characters and as a string.
-/

namespace NameHunt.Text

/-- The Unicode property White_Space. -/
def isBlank (c : Char) : Bool :=
  let n := c.toNat
  (9 ≤ n && n ≤ 13) || n == 0x20 || n == 0x85 || n == 0xA0 || n == 0x1680 ||
    (0x2000 ≤ n && n ≤ 0x200A) || n == 0x2028 || n == 0x2029 || n == 0x202F || n == 0x205F ||
    n == 0x3000

/-- Blanks are taken off the front, then off the back. -/
def trim (s : List Char) : List Char :=
  ((s.dropWhile isBlank).reverse.dropWhile isBlank).reverse

/-- `trim` on strings. -/
def strip (s : String) : String :=
  String.ofList (trim s.toList)

/-- A text without blanks at either end is left alone. -/
theorem trim_eq_self {s : List Char} (hl : ∀ c ∈ s.head?, isBlank c = false)
    (hr : ∀ c ∈ s.getLast?, isBlank c = false) : trim s = s := by
  have hdrop : ∀ t : List Char, (∀ c ∈ t.head?, isBlank c = false) → t.dropWhile isBlank = t := by
    intro t ht
    cases t with
    | nil => rfl
    | cons c t => simp [ht c (by simp)]
  unfold trim
  rw [hdrop s hl, hdrop s.reverse (by simpa using hr), List.reverse_reverse]

end NameHunt.Text
