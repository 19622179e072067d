import NameHunt.Document.Json.Writer
import NameHunt.Hunt.Event
import NameHunt.Text.Column

/-!
# Reports

What is printed about analyses, hunts and caches. Domains that are available are printed on the
output, all else about a hunt on the error output.

* `Line`: a printed line.
* `Report.analysis`, `Report.analysisDocument`: the size of a pattern, for people and for programs.
* `Report.event`: what is printed when something happens in a hunt.
* `Report.summary`, `Report.cacheFill`: the totals of a hunt, and how full a cache is.
-/

namespace NameHunt

/-- The two ways out of a program. -/
inductive Channel where
  | output
  | errors
  deriving Repr, DecidableEq

/-- A printed line. -/
structure Line where
  channel : Channel
  text : String
  deriving Repr, DecidableEq

namespace Report

def toOutput (text : String) : Line := ⟨.output, text⟩

def toErrors (text : String) : Line := ⟨.errors, text⟩

/-- A list in words. -/
def listed (items : List String) : String :=
  ", ".intercalate items

/-- The size of a pattern, segment by segment and in all. -/
def analysis (a : Analysis) : List Line :=
  [ toOutput (a.pattern ++ "  [" ++ listed a.segments.kinds ++ "]"),
    toOutput ("  combinations: " ++ a.combinations.text),
    toOutput ("  domains:      " ++ a.domains.text ++ "  (" ++ listed a.extensions ++ ")") ] ++
  if a.domains.saturated then [toOutput "  count exceeds u128 and cannot be enumerated"] else []

/-- The size of a pattern as a document. -/
def analysisDocument (a : Analysis) : Document :=
  .table
    [ ("pattern", .text a.pattern),
      ("extensions", .list (a.extensions.map .text)),
      ("segments", .list (a.segments.kinds.map .text)),
      ("combination_count", a.combinations.document),
      ("total_domain_count", a.domains.document),
      ("saturated", .truth a.domains.saturated) ]

/-- An entry that is left out. -/
def rejected (pattern : String) (error : Error) : Line :=
  toErrors ("✗ " ++ pattern ++ ": " ++ error.message)

def warning (text : String) : Line :=
  toErrors ("! " ++ text)

/-- The width of the column of domains, and what a longer domain ends in. -/
def domainColumn : Nat := 30

def cutMark : List Char := ['.', '.']

/-- A domain that is available. -/
def available (outcome : Outcome) : Line :=
  toOutput
    ("  " ++ String.ofList (Text.padRight domainColumn cutMark outcome.domain.toList) ++
      "  AVAILABLE")

/-- What is printed when something happens in a hunt. -/
def event (json : Bool) : Event → List Line
  | .started a =>
    if json then []
    else
      [toErrors ("▸ " ++ a.pattern ++ " " ++ a.domains.text ++ " domains across " ++
        listed a.extensions)]
  | .rejected pattern error => [rejected pattern error]
  | .checked outcome =>
    if outcome.success && outcome.available then
      [if json then toOutput outcome.document.json else available outcome]
    else []
  | .skipped _ | .checkpoint _ | .finished _ => []

/-- A line across the page. -/
def rule : Line :=
  toErrors ("  " ++ String.ofList (List.replicate 52 '─'))

/-- The totals of a hunt. -/
def summary (s : Summary) (elapsed : Duration) : List Line :=
  [ rule,
    toErrors
      ("  " ++ toString s.checked ++ " checked in " ++ elapsed.inSeconds.fixed 1 ++ "s  |  " ++
        toString s.available ++ " available  |  " ++ toString s.skipped ++
        " skipped (cached)  |  " ++ toString s.failed ++ " failed") ] ++
  if s.cancelled then [toErrors "  Stopped early; progress was saved."] else []

/-- The share of the bits that are set, in percent. Every step is rounded to a double. -/
def percent (bitsSet capacity : Nat) : Ratio :=
  if capacity = 0 then .ofNat 0
  else
    let hundredfold := ((Ratio.ofNat bitsSet).nearestDouble.mul (.ofNat 100)).nearestDouble
    (hundredfold.div (Ratio.ofNat capacity).nearestDouble).nearestDouble

/-- How full a cache is, and where it is kept. -/
def cacheFill (bitsSet capacity : Nat) (path : Option String) : Line :=
  toErrors
    ("  cache: " ++ toString bitsSet ++ " of " ++ toString capacity ++ " bits set (" ++
      (percent bitsSet capacity).fixed 3 ++ "%)  " ++ path.getD "not persisted")

end Report

end NameHunt
