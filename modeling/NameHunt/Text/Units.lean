/-!
# UTF-16 units

* `units`: a character as one UTF-16 unit, or as a pair of surrogates above the basic plane.
* `unitsOf`: the units of a text.
-/

namespace NameHunt.Text

/-- Characters above the basic plane are written as a high and a low surrogate. -/
def units (c : Char) : List Nat :=
  let n := c.toNat
  if n < 0x10000 then [n]
  else [0xD800 + (n - 0x10000) / 0x400, 0xDC00 + (n - 0x10000) % 0x400]

/-- The units of a text in order. -/
def unitsOf (s : List Char) : List Nat :=
  s.flatMap units

theorem unitsOf_append (s t : List Char) : unitsOf (s ++ t) = unitsOf s ++ unitsOf t := by
  simp [unitsOf]

end NameHunt.Text
