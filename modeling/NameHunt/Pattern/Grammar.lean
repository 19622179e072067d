import NameHunt.Error

/-!
# Checking patterns and extensions

The faults are looked for in a fixed order, and the first one found is reported.

* `Pattern.fault?`: an empty text, a space, a hyphen at either end or next to another, then the
  first character that is no ASCII letter or digit, hyphen or underscore.
* `Extension.fault?`: the dot in front, something after it, small ASCII letters and digits only.
* `Extension.listFault?`: an empty list, then the first fault of an element.
-/

namespace NameHunt

namespace Pattern

/-- The characters that a pattern may hold. -/
def isPatternChar (c : Char) : Bool :=
  c.isAlphanum || c == '-' || c == '_'

/-- Whether two hyphens stand side by side. -/
def hasDoubleHyphen : List Char → Bool
  | '-' :: '-' :: _ => true
  | _ :: rest => hasDoubleHyphen rest
  | [] => false

/-- The first fault of a pattern. -/
def fault? (s : List Char) : Option Error :=
  if s.isEmpty then some .emptyPattern
  else if s.contains ' ' then some .containsSpace
  else if s.head? == some '-' then some .leadingHyphen
  else if s.getLast? == some '-' then some .trailingHyphen
  else if hasDoubleHyphen s then some .consecutiveHyphens
  else (s.find? fun c => !isPatternChar c).map .invalidCharacter

end Pattern

namespace Extension

/-- The characters after the dot. -/
def isExtensionChar (c : Char) : Bool :=
  c.isLower || c.isDigit

/-- The first fault of an extension. -/
def fault? (extension : String) : Option Error :=
  match extension.toList with
  | '.' :: label =>
    if label.isEmpty then some (.tooShort extension)
    else if label.all isExtensionChar then none
    else some (.malformedExtension extension)
  | _ => some (.missingDot extension)

/-- The first fault of a list of extensions. -/
def listFault? (extensions : List String) : Option Error :=
  if extensions.isEmpty then some .noExtensions else extensions.findSome? fault?

end Extension

/-- A check that found no fault, or the fault it found. -/
def refuse : Option Error → Except Error Unit
  | none => .ok ()
  | some error => .error error

end NameHunt
