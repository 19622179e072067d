import NameHunt.Count
import NameHunt.Entry
import NameHunt.Pattern.Grammar
import NameHunt.Pattern.Parser

/-!
# Sizing patterns

* `Pattern.count`: the number of combinations of a pattern.
* `Analysis`: an entry with its segments and counts.
* `Analysis.of`: the analysis without any check.
* `analyze`: the analysis of an entry whose pattern and extensions have no fault.
-/

namespace NameHunt

/-- The product of the alphabet sizes. -/
def Pattern.count (p : Pattern) : Count :=
  p.foldl (fun count segment => count.times segment.radix) .one

/-- An entry with its size. -/
structure Analysis where
  pattern : String
  extensions : List String
  segments : Pattern
  /-- One for each way to choose from all segments. -/
  combinations : Count
  /-- The combinations under every extension. -/
  domains : Count
  deriving Repr, DecidableEq

/-- The analysis of any text with any extensions. -/
def Analysis.of (pattern : String) (extensions : List String) : Analysis :=
  let segments := Pattern.parse pattern
  let combinations := segments.count
  { pattern, extensions, segments, combinations
    domains := combinations.times extensions.length }

/-- The analysis of an entry; a fault of the pattern comes before one of the extensions. -/
def analyze (entry : Entry) : Except Error Analysis := do
  refuse (Pattern.fault? entry.pattern.toList)
  refuse (Extension.listFault? entry.extensions)
  return Analysis.of entry.pattern entry.extensions

end NameHunt
