import NameHunt.Text.Units

/-!
# The hash of a text

A polynomial of the UTF-16 units with base 31 in words of 32 bits, read as a signed number.

* `Hash.step`, `Hash.ofUnits`: one unit and a row of units.
* `Hash.signed`: a word of 32 bits as a signed number.
* `hash`: the hash of a text.
* `Hash.ofChars_eq_ofUnits`: going character by character makes no difference.
-/

namespace NameHunt

namespace Hash

/-- One more unit. -/
def step (word : UInt32) (unit : Nat) : UInt32 :=
  word * 31 + UInt32.ofNat unit

/-- A row of units, from left to right. -/
def ofUnits (units : List Nat) : UInt32 :=
  units.foldl step 0

/-- The upper half of the words stands for negative numbers. -/
def signed (word : UInt32) : Int :=
  if word.toNat < 0x80000000 then word.toNat else (word.toNat : Int) - 0x100000000

/-- The word of some characters after `word`, unit by unit. -/
def ofChars (word : UInt32) : List Char → UInt32
  | [] => word
  | c :: rest => ofChars ((Text.units c).foldl step word) rest

theorem ofChars_eq_foldl (word : UInt32) (s : List Char) :
    ofChars word s = (Text.unitsOf s).foldl step word := by
  induction s generalizing word with
  | nil => rfl
  | cons c rest ih => simp [ofChars, ih, Text.unitsOf]

/-- The word of a text is that of its units. -/
theorem ofChars_eq_ofUnits (s : List Char) : ofChars 0 s = ofUnits (Text.unitsOf s) :=
  ofChars_eq_foldl 0 s

end Hash

/-- The hash of a text. -/
def hash (s : String) : Int :=
  Hash.signed (Hash.ofChars 0 s.toList)

end NameHunt
