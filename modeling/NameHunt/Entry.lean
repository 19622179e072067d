/-!
# Entries

* `Entry`: a pattern with its extensions, as it was given on the command line or in a source.
-/

namespace NameHunt

/-- What is to be hunted: a pattern text, the extensions of its names, and a remark. -/
structure Entry where
  pattern : String
  extensions : List String
  comment : Option String := none
  deriving Repr, DecidableEq

end NameHunt
