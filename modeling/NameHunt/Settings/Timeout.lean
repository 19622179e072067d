import NameHunt.Text.Blank
import NameHunt.Text.LowerCase
import NameHunt.Text.Number

/-!
# Timeouts in words

* `Timeout.readSmall?`: the seconds of a text in small letters.
* `Timeout.read?`: the seconds of a text such as `5s`, `2M` or ` 30 `.
-/

namespace NameHunt.Timeout

/-- A number of minutes in seconds, if it fits 64 bits. -/
def ofMinutes? (minutes : Nat) : Option Nat :=
  if minutes * 60 ≤ Text.max64 then some (minutes * 60) else none

/-- The seconds of a text in small letters without blanks around it: a number, and after it `s`,
`m` or nothing. -/
def readSmall? (s : List Char) : Option Nat :=
  match s.getLast? with
  | some 's' => Text.readUnsigned? Text.max64 s.dropLast
  | some 'm' => (Text.readUnsigned? Text.max64 s.dropLast).bind ofMinutes?
  | _ => Text.readUnsigned? Text.max64 s

/-- The seconds of a text, which is lower-cased as a whole. There is no timeout of zero seconds. -/
def read? (s : String) : Option Nat :=
  (readSmall? (Text.lower (Text.trim s.toList))).filter (0 < ·)

end NameHunt.Timeout
