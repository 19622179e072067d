import NameHunt.Pattern.Parser
import NameHunt.Proofs.Text.LowerCase

/-!
# The literals of a pattern

Hyphens in a text are tokens, and lower-casing makes none. So a literal that was read from a text
holds no hyphen, and it is not empty.

* `Text.hyphen_not_mem_lower`: lower-casing makes no hyphen.
* `Pattern.Plain`: no literal is empty or holds a hyphen.
* `Pattern.plain_parse`: every pattern that was read is plain.
-/

namespace NameHunt

namespace Text

/-- Lower-casing makes no hyphen. -/
theorem hyphen_not_mem_lower {s : List Char} (h : '-' ∉ s) : '-' ∉ lower s :=
  fun hmem => h (mem_of_mem_lower ⟨by decide, by decide, by decide⟩ (by decide) hmem)

end Text

namespace Pattern

/-- No literal is empty or holds a hyphen. -/
def Plain (p : Pattern) : Prop :=
  ∀ text, Segment.literal text ∈ p → text ≠ [] ∧ '-' ∉ text

theorem Plain.tail {s : Segment} {p : Pattern} (h : Plain (s :: p)) : Plain p :=
  fun text hmem => h text (List.mem_cons_of_mem s hmem)

theorem Plain.head {text : List Char} {p : Pattern} (h : Plain (.literal text :: p)) :
    text ≠ [] ∧ '-' ∉ text :=
  h text List.mem_cons_self

/-- The literal that is closed holds what was read since the last token. -/
theorem plain_close {buffer : List Char} (h : '-' ∉ buffer) : Plain (close buffer) := by
  intro text hmem
  unfold close at hmem
  split at hmem
  · simp at hmem
  · rename_i hbuffer
    obtain rfl : text = Text.lower buffer.reverse := by simpa using hmem
    refine ⟨Text.lower_ne_nil ?_, Text.hyphen_not_mem_lower (by simpa using h)⟩
    simpa using hbuffer

theorem plain_ofChars {buffer : List Char} (h : '-' ∉ buffer) (s : List Char) :
    Plain (ofChars buffer s) := by
  induction s generalizing buffer with
  | nil => exact plain_close h
  | cons c rest ih =>
    unfold ofChars
    split
    · rename_i token _
      intro text hmem
      simp only [List.mem_append, List.mem_cons, reduceCtorEq, false_or] at hmem
      rcases hmem with hclosed | hrest
      · exact plain_close h text hclosed
      · exact ih List.not_mem_nil text hrest
    · rename_i hnone
      -- the hyphen is a token, so the character is none
      have hc : c ≠ '-' := by
        rintro rfl
        simp [Token.ofChar?] at hnone
      refine ih ?_
      simp only [List.mem_cons, not_or]
      exact ⟨hc.symm, h⟩

/-- Every pattern that was read from a text is plain. -/
theorem plain_parse (s : String) : Plain (parse s) :=
  plain_ofChars List.not_mem_nil s.toList

end Pattern

end NameHunt
