import NameHunt.Pattern.Basic
import NameHunt.Text.LowerCase

/-!
# Reading patterns

Every text is a pattern. The characters between two tokens are kept together as one literal, which
is lower-cased as a whole.

* `Pattern.ofChars`: the pattern of some characters after a literal that is still open.
* `Pattern.parse`: the pattern of a text.
* `Pattern.ofChars_append_token`: a token ends what stands before it, so the two sides of a token
  are read independently.
-/

namespace NameHunt.Pattern

/-- The literal of the characters read since the last token, newest first. -/
def close (buffer : List Char) : Pattern :=
  if buffer.isEmpty then [] else [.literal (Text.lower buffer.reverse)]

/-- The pattern of the characters that follow an open literal. -/
def ofChars (buffer : List Char) : List Char → Pattern
  | [] => close buffer
  | c :: rest =>
    match Token.ofChar? c with
    | some token => close buffer ++ .choice token :: ofChars [] rest
    | none => ofChars (c :: buffer) rest

/-- The pattern of a text. -/
def parse (s : String) : Pattern :=
  ofChars [] s.toList

/-- A token splits the reading of a text in two. -/
theorem ofChars_append_token {c : Char} {token : Token} (h : Token.ofChar? c = some token)
    (buffer before after : List Char) :
    ofChars buffer (before ++ c :: after) =
      ofChars buffer before ++ .choice token :: ofChars [] after := by
  induction before generalizing buffer with
  | nil => simp [ofChars, h]
  | cons d before ih =>
    simp only [List.cons_append, ofChars]
    split
    · simp [ih, List.append_assoc]
    · exact ih _

end NameHunt.Pattern
