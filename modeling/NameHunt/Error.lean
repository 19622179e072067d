import NameHunt.Duration

/-!
# Errors

Everything that can go wrong with patterns, caches, settings and look-ups, as causes with their
data. The wording stands in one place.

* `Error`: the causes.
* `Error.message`: the text of an error.
* `Error.isValidation`: the faults of a pattern or an extension list, which cost one entry only.
* `Error.isRetryable`: the faults that may pass when a look-up is repeated.
-/

namespace NameHunt

/-- What went wrong. -/
inductive Error where
  | emptyPattern
  | containsSpace
  | leadingHyphen
  | trailingHyphen
  | consecutiveHyphens
  /-- A character outside the pattern grammar. -/
  | invalidCharacter (c : Char)
  | noExtensions
  | missingDot (extension : String)
  | tooShort (extension : String)
  | malformedExtension (extension : String)
  /-- Cache bytes that decode to no cache. -/
  | corruptState (reason : String)
  /-- A pattern whose names cannot be indexed. -/
  | patternTooLarge (pattern : String)
  | config (reason : String)
  /-- A line of a pattern source, counted from one. -/
  | patternLine (line : Nat) (reason : String)
  | file (path reason : String)
  | network (reason : String) (source : Option String)
  /-- An answer of a registry, with its status if there was one. -/
  | registry (domain reason : String) (status : Option Nat)
  | timeout (operation : String) (budget : Duration)
  | rateLimited (service reason : String)
  | internal (reason : String)
  deriving Repr, DecidableEq

namespace Error

/-- The text of an error. -/
def message : Error → String
  | emptyPattern => "Pattern cannot be empty"
  | containsSpace => "Pattern cannot contain spaces"
  | leadingHyphen => "Pattern cannot start with a hyphen"
  | trailingHyphen => "Pattern cannot end with a hyphen"
  | consecutiveHyphens => "Pattern cannot contain consecutive hyphens"
  | invalidCharacter c => "Pattern contains invalid character '" ++ c.toString ++ "'"
  | noExtensions => "At least one extension is required"
  | missingDot extension => "Extension '" ++ extension ++ "' must start with '.'"
  | tooShort extension => "Extension '" ++ extension ++ "' is too short"
  | malformedExtension extension =>
    "Extension '" ++ extension ++ "' must be a dot followed by lowercase letters or digits"
  | corruptState reason => "Corrupt cache state: " ++ reason
  | patternTooLarge pattern =>
    "Pattern '" ++ pattern ++ "' has too many combinations to enumerate"
  | config reason => "Configuration error: " ++ reason
  | patternLine line reason => "Pattern file line " ++ toString line ++ ": " ++ reason
  | file path reason => "File error at '" ++ path ++ "': " ++ reason
  | network reason none => "Network error: " ++ reason
  | network reason (some source) => "Network error: " ++ reason ++ " (source: " ++ source ++ ")"
  | registry domain reason none => "RDAP error for '" ++ domain ++ "': " ++ reason
  | registry domain reason (some status) =>
    "RDAP error for '" ++ domain ++ "' (HTTP " ++ toString status ++ "): " ++ reason
  | timeout operation budget => "Timeout after " ++ budget.text ++ " during: " ++ operation
  | rateLimited service reason => "Rate limited by " ++ service ++ ": " ++ reason
  | internal reason => "Internal error: " ++ reason

/-- The faults of a pattern or of an extension list. -/
def isValidation : Error → Bool
  | emptyPattern | containsSpace | leadingHyphen | trailingHyphen | consecutiveHyphens
  | invalidCharacter _ | noExtensions | missingDot _ | tooShort _ | malformedExtension _ => true
  | _ => false

/-- Trouble on the way, a server that is busy, and answers of class 5. -/
def isRetryable : Error → Bool
  | network .. | timeout .. | rateLimited .. => true
  | registry _ _ (some status) => 500 ≤ status && status ≤ 599
  | _ => false

/-- A fault of reading or writing outside the known places. -/
def ofSystem (text : String) : Error :=
  internal ("I/O error: " ++ text)

end Error

end NameHunt
