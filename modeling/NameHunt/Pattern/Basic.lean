/-!
# Patterns

A pattern is a row of segments. Each segment stands for one of a few short texts, and a name of the
pattern takes one of them from every segment.

* `Token`: the characters of a pattern that stand for a choice.
* `Segment`: a fixed text or a choice.
* `Segment.alphabet`, `Segment.radix`: the texts of a segment and their number.
* `Pattern`: a row of segments.
* `Pattern.describe`: the text of a pattern.
-/

namespace NameHunt

/-- A choice of one character. -/
inductive Token where
  | consonant
  | vowel
  | digit
  | letter
  /-- A letter, a digit or a hyphen. -/
  | wildcard
  | hyphen
  deriving Repr, DecidableEq

namespace Token

/-- The choice that a pattern character stands for. Letters count in both cases. -/
def ofChar? : Char → Option Token
  | 'c' | 'C' => some consonant
  | 'v' | 'V' => some vowel
  | 'n' | 'N' => some digit
  | 'l' | 'L' => some letter
  | '_' => some wildcard
  | '-' => some hyphen
  | _ => none

/-- The small pattern character of a choice. -/
def symbol : Token → Char
  | consonant => 'c'
  | vowel => 'v'
  | digit => 'n'
  | letter => 'l'
  | wildcard => '_'
  | hyphen => '-'

theorem ofChar?_symbol (t : Token) : ofChar? t.symbol = some t := by
  cases t <;> rfl

/-- The characters of a choice, in their order. -/
def alphabet : Token → List Char
  | consonant => "bcdfghjklmnpqrstvwxyz".toList
  | vowel => "aeiou".toList
  | digit => "0123456789".toList
  | letter => "abcdefghijklmnopqrstuvwxyz".toList
  | wildcard => "abcdefghijklmnopqrstuvwxyz0123456789-".toList
  | hyphen => ['-']

/-- The name of a choice. -/
def name : Token → String
  | consonant => "consonant"
  | vowel => "vowel"
  | digit => "digit"
  | letter => "letter"
  | wildcard => "wildcard"
  | hyphen => "hyphen"

end Token

/-- A part of a pattern. -/
inductive Segment where
  /-- A text that is taken as it is. -/
  | literal (text : List Char)
  /-- Any one character of an alphabet. -/
  | choice (token : Token)
  deriving Repr, DecidableEq

namespace Segment

/-- The texts that a segment may stand for. -/
def alphabet : Segment → List (List Char)
  | literal text => [text]
  | choice token => token.alphabet.map fun c => [c]

/-- How many texts a segment may stand for. -/
def radix : Segment → Nat
  | literal _ => 1
  | choice token => token.alphabet.length

/-- The kind of a segment in words. -/
def kind : Segment → String
  | literal _ => "literal"
  | choice token => token.name

theorem length_alphabet (s : Segment) : s.alphabet.length = s.radix := by
  cases s <;> simp [alphabet, radix]

theorem radix_pos (s : Segment) : 0 < s.radix := by
  cases s with
  | literal _ => exact Nat.one_pos
  | choice token => cases token <;> decide

/-- The text of a segment in a pattern. -/
def describe : Segment → List Char
  | literal text => text
  | choice token => [token.symbol]

end Segment

/-- A row of segments. -/
abbrev Pattern := List Segment

namespace Pattern

/-- The pattern as a text: literals as they are, choices by their small characters. -/
def describe (p : Pattern) : String :=
  String.ofList (p.flatMap Segment.describe)

/-- The kinds of the segments in order. -/
def kinds (p : Pattern) : List String :=
  p.map Segment.kind

end Pattern

end NameHunt
