import NameHunt.Proofs.Count
import NameHunt.Proofs.Pattern.Literals

/-!
# The names of a pattern

What a pattern stands for, said without numbers and without an order: take one text from each
segment, put them together, and keep what may be a name.

* `Pattern.texts`: all ways to take one text from each segment.
* `Pattern.IsName`, `Pattern.names`: the texts that are names.
* `Pattern.mem_texts`: a text is the row of its pieces, one from each alphabet.
* `Pattern.nodup_texts`, `Pattern.nodup_names`: no text comes twice.
* `Pattern.texts_eq_map_textAt`: the texts by their numbers in mixed radix.
-/

namespace NameHunt

namespace Segment

/-- The length that all texts of a segment share. -/
def width : Segment → Nat
  | literal text => text.length
  | choice _ => 1

theorem length_of_mem_alphabet {s : Segment} {piece : List Char} (h : piece ∈ s.alphabet) :
    piece.length = s.width := by
  cases s with
  | literal text => rw [List.mem_singleton.1 h, width]
  | choice token =>
    obtain ⟨c, -, rfl⟩ := List.mem_map.1 h
    rfl

theorem nodup_alphabet (s : Segment) : s.alphabet.Nodup := by
  cases s with
  | literal text => exact List.nodup_singleton text
  | choice token => cases token <;> decide

/-- The text of a segment that a number chooses. -/
def textAt (s : Segment) (index : Nat) : List Char :=
  s.alphabet.getD (index % s.radix) []

theorem textAt_literal (text : List Char) (index : Nat) :
    (literal text).textAt index = text := by
  simp [textAt, alphabet, radix, Nat.mod_one]

/-- The alphabet by its numbers. -/
theorem alphabet_eq_map_textAt (s : Segment) :
    s.alphabet = (List.range s.radix).map s.textAt := by
  refine List.ext_getElem (by simp [length_alphabet]) ?_
  intro i hi hi'
  rw [length_alphabet] at hi
  simp [textAt, Nat.mod_eq_of_lt hi, length_alphabet, hi]

end Segment

namespace Pattern

/-- All ways to take one text from each segment. The first segment changes fastest. -/
def texts : Pattern → List (List Char)
  | [] => [[]]
  | s :: rest => (texts rest).flatMap fun after => s.alphabet.map (· ++ after)

/-- Whether the first segment is a literal. -/
def opensWithLiteral : Pattern → Bool
  | .literal _ :: _ => true
  | _ => false

/-- A text of the pattern that may be a name. -/
structure IsName (p : Pattern) (text : List Char) : Prop where
  no_hyphen_first : text.head? ≠ some '-'
  no_hyphen_last : text.getLast? ≠ some '-'
  no_double_hyphen : ¬ ['-', '-'] <:+: text
  no_digit_first : p.opensWithLiteral = true ∨ ∀ c ∈ text.head?, c.isDigit = false

instance (p : Pattern) (text : List Char) : Decidable (IsName p text) :=
  decidable_of_iff
    (text.head? ≠ some '-' ∧ text.getLast? ≠ some '-' ∧ ¬ ['-', '-'] <:+: text ∧
      (p.opensWithLiteral = true ∨ ∀ c ∈ text.head?, c.isDigit = false))
    ⟨fun h => ⟨h.1, h.2.1, h.2.2.1, h.2.2.2⟩,
      fun h => ⟨h.no_hyphen_first, h.no_hyphen_last, h.no_double_hyphen, h.no_digit_first⟩⟩

/-- The names of a pattern. A pattern without segments has none. -/
def names (p : Pattern) : List String :=
  if p.isEmpty then [] else ((texts p).filter fun text => IsName p text).map String.ofList

/-- A text is the row of its pieces, one from each alphabet. -/
theorem mem_texts {p : Pattern} {text : List Char} :
    text ∈ texts p ↔
      ∃ pieces, List.Forall₂ (fun piece s => piece ∈ Segment.alphabet s) pieces p ∧
        text = pieces.flatten := by
  induction p generalizing text with
  | nil => simp [texts]
  | cons s rest ih =>
    simp only [texts, List.mem_flatMap, List.mem_map]
    constructor
    · rintro ⟨after, hafter, piece, hpiece, rfl⟩
      obtain ⟨pieces, hpieces, rfl⟩ := ih.1 hafter
      exact ⟨piece :: pieces, .cons hpiece hpieces, rfl⟩
    · rintro ⟨pieces, hpieces, rfl⟩
      cases hpieces with
      | cons hpiece hrest => exact ⟨_, ih.2 ⟨_, hrest, rfl⟩, _, hpiece, rfl⟩

theorem mem_names {p : Pattern} {name : String} :
    name ∈ names p ↔ p ≠ [] ∧ name.toList ∈ texts p ∧ IsName p name.toList := by
  unfold names
  cases p with
  | nil => simp
  | cons s rest =>
    simp only [List.isEmpty_cons, Bool.false_eq_true, ↓reduceIte, List.mem_map, List.mem_filter,
      decide_eq_true_eq, ne_eq, reduceCtorEq, not_false_eq_true, true_and]
    constructor
    · rintro ⟨text, ⟨htext, hname⟩, rfl⟩
      rw [String.toList_ofList]
      exact ⟨htext, hname⟩
    · rintro ⟨htext, hname⟩
      exact ⟨name.toList, ⟨htext, hname⟩, String.ofList_toList⟩

/-- No text comes twice. The pieces of one segment have one length, so a text tells where its first
piece ends. -/
theorem nodup_texts (p : Pattern) : (texts p).Nodup := by
  induction p with
  | nil => exact List.nodup_singleton []
  | cons s rest ih =>
    have hsplit : ∀ a ∈ s.alphabet, ∀ b ∈ s.alphabet, ∀ x y : List Char,
        a ++ x = b ++ y → a = b ∧ x = y := by
      intro a ha b hb x y heq
      refine List.append_inj heq ?_
      rw [Segment.length_of_mem_alphabet ha, Segment.length_of_mem_alphabet hb]
    rw [texts, List.nodup_flatMap]
    constructor
    · intro after _
      exact s.nodup_alphabet.map_on fun a ha b hb heq => (hsplit a ha b hb _ _ heq).1
    · refine ih.imp ?_
      intro x y hne text hx hy
      obtain ⟨a, ha, rfl⟩ := List.mem_map.1 hx
      obtain ⟨b, hb, heq⟩ := List.mem_map.1 hy
      exact hne (hsplit a ha b hb x y heq.symm).2

theorem nodup_names (p : Pattern) : (names p).Nodup := by
  unfold names
  split
  · exact List.nodup_nil
  · exact ((nodup_texts p).filter _).map fun a b h => String.ofList_injective h

/-- The text of a number in mixed radix, the first segment least significant. -/
def textAt : Pattern → Nat → List Char
  | [], _ => []
  | s :: rest, index => s.textAt index ++ textAt rest (index / s.radix)

/-- The numbers below a product, by quotient and remainder. -/
theorem range_mul (r n : Nat) :
    List.range (r * n) = (List.range n).flatMap fun q => (List.range r).map (r * q + ·) := by
  induction n with
  | zero => rfl
  | succ n ih =>
    rw [Nat.mul_succ, List.range_add, ih, List.range_succ, List.flatMap_append,
      List.flatMap_singleton]

/-- The texts of a pattern are those of the numbers below its size, in their order. -/
theorem texts_eq_map_textAt (p : Pattern) : texts p = (List.range (size p)).map (textAt p) := by
  induction p with
  | nil => rfl
  | cons s rest ih =>
    rw [texts, ih, size_cons, range_mul, List.map_flatMap, List.flatMap_map]
    refine List.flatMap_congr fun q _ => ?_
    rw [s.alphabet_eq_map_textAt, List.map_map, List.map_map]
    refine List.map_congr_left fun d hd => ?_
    have hlt : d < s.radix := List.mem_range.1 hd
    have hquotient : (s.radix * q + d) / s.radix = q := by
      rw [Nat.mul_add_div s.radix_pos, Nat.div_eq_of_lt hlt, Nat.add_zero]
    have hremainder : (s.radix * q + d) % s.radix = d % s.radix := by
      rw [Nat.mul_add_mod]
    simp only [Function.comp_apply, textAt, Segment.textAt, hquotient, hremainder]

end Pattern

end NameHunt
