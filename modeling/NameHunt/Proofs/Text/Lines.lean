import Mathlib
import NameHunt.Text.Items

/-!
# Pieces and lines of a text

A separator cuts a text in pieces, one more than there are separators, and it is in none of them.
A line feed cuts a text, and a carriage return before it is blank: neither the one that ends a line
nor the one that is left at the end of the text makes a difference to what is left of a line
without the blanks around it.

* `splitOn_eq`, `splitOn_append_of_not_mem`: the pieces of a text, and of a longer one.
* `splitOn_ended`: the pieces of a text in which every piece ends with the separator.
* `infix_append_cons`: what holds no separator stands on one side of it.
* `trim_concat`: a blank at the end is taken off.
* `WithReturn`: a line, and the same line with or without a carriage return at its end.
* `withReturns`: a text with a carriage return before every line feed.
* `splitOn_withReturns`: its pieces.
-/

namespace NameHunt.Text

/-- Cutting at a character is what it is for lists in general. -/
theorem splitOn_eq (sep : Char) (s : List Char) : splitOn sep s = s.splitOn sep := by
  induction s with
  | nil => rfl
  | cons c s ih =>
    obtain ⟨piece, rest, hsplit⟩ := List.exists_cons_of_ne_nil (splitOn_ne_nil sep s)
    rw [List.splitOn_cons_eq_if_modifyHead, ← ih, splitOn, hsplit]
    by_cases h : c = sep <;> simp [h]

/-- No piece holds the separator. -/
theorem not_mem_of_mem_splitOn {sep : Char} {s piece : List Char} (h : piece ∈ splitOn sep s) :
    sep ∉ piece := by
  induction s generalizing piece with
  | nil =>
    obtain rfl : piece = [] := by simpa [splitOn] using h
    exact List.not_mem_nil
  | cons c s ih =>
    obtain ⟨first, rest, hsplit⟩ := List.exists_cons_of_ne_nil (splitOn_ne_nil sep s)
    rw [hsplit] at ih
    by_cases hc : c = sep
    · rw [splitOn, if_pos hc, hsplit] at h
      obtain rfl | hold := List.mem_cons.1 h
      · exact List.not_mem_nil
      · exact ih hold
    · rw [splitOn, if_neg hc, hsplit] at h
      obtain rfl | hold := List.mem_cons.1 h
      · have hfirst := ih List.mem_cons_self
        intro hmem
        obtain hhead | htail := List.mem_cons.1 hmem
        · exact hc hhead.symm
        · exact hfirst htail
      · exact ih (List.mem_cons_of_mem first hold)

/-- What follows without a separator goes on with the last piece. -/
theorem splitOn_append_of_not_mem {sep : Char} {t : List Char} (ht : sep ∉ t) (s : List Char) :
    ∃ init last, splitOn sep s = init ++ [last] ∧ splitOn sep (s ++ t) = init ++ [last ++ t] := by
  induction s with
  | nil =>
    refine ⟨[], [], rfl, ?_⟩
    rw [List.nil_append, splitOn_eq]
    exact List.splitOn_eq_singleton ht
  | cons c s ih =>
    obtain ⟨init, last, hs, hst⟩ := ih
    by_cases hc : c = sep
    · refine ⟨[] :: init, last, ?_, ?_⟩
      · rw [splitOn, if_pos hc, hs]
        rfl
      · rw [List.cons_append, splitOn, if_pos hc, hst]
        rfl
    · rw [List.cons_append, splitOn, splitOn, if_neg hc, if_neg hc, hs, hst]
      cases init with
      | nil => exact ⟨[], c :: last, rfl, rfl⟩
      | cons piece init => exact ⟨(c :: piece) :: init, last, rfl, rfl⟩

/-- Pieces from the front are the front of the text. -/
theorem prefix_intercalate (sep : List Char) (front rest : List (List Char)) :
    sep.intercalate front <+: sep.intercalate (front ++ rest) := by
  induction front with
  | nil => exact List.nil_prefix
  | cons piece front ih =>
    cases front with
    | nil =>
      cases rest with
      | nil => exact List.prefix_refl _
      | cons next rest =>
        rw [List.singleton_append, List.intercalate_cons_cons, List.intercalate_singleton,
          List.append_assoc]
        exact List.prefix_append _ _
    | cons next front =>
      rw [List.cons_append, List.cons_append, List.intercalate_cons_cons,
        List.intercalate_cons_cons]
      exact (List.prefix_append_right_inj _).2 ih

/-- There is one piece more than there are separators. -/
theorem length_splitOn (sep : Char) (s : List Char) :
    (splitOn sep s).length = s.count sep + 1 := by
  induction s with
  | nil => rfl
  | cons c s ih =>
    obtain ⟨piece, rest, hsplit⟩ := List.exists_cons_of_ne_nil (splitOn_ne_nil sep s)
    by_cases hc : c = sep
    · rw [splitOn, if_pos hc, List.length_cons, ih, hc, List.count_cons_self]
    · rw [splitOn, if_neg hc, List.count_cons_of_ne hc, ← ih, hsplit]
      rfl

/-- The pieces of a text that was put together from pieces. -/
theorem splitOn_intercalate_of_ne_nil {sep : Char} {pieces : List (List Char)} (hne : pieces ≠ [])
    (hpieces : ∀ piece ∈ pieces, sep ∉ piece) :
    splitOn sep ([sep].intercalate pieces) = pieces := by
  rw [splitOn_eq]
  exact List.splitOn_intercalate sep hpieces hne

/-- The same with strings. -/
theorem splitOn_intercalate {sep : Char} {between : String} (hsep : between.toList = [sep])
    {pieces : List String} (hne : pieces ≠ []) (hpieces : ∀ piece ∈ pieces, sep ∉ piece.toList) :
    splitOn sep (between.intercalate pieces).toList = pieces.map String.toList := by
  have hmap : pieces.map String.toList ≠ [] := by simpa using hne
  rw [String.toList_intercalate, hsep]
  exact splitOn_intercalate_of_ne_nil hmap (List.forall_mem_map.2 hpieces)

/-- Pieces that each end with the separator. Nothing follows the last one. -/
theorem splitOn_ended {sep : Char} {pieces : List (List Char)}
    (h : ∀ piece ∈ pieces, sep ∉ piece) :
    splitOn sep (pieces.flatMap (· ++ [sep])) = pieces ++ [[]] := by
  have hjoined : pieces.flatMap (· ++ [sep]) = [sep].intercalate (pieces ++ [[]]) := by
    induction pieces with
    | nil => rfl
    | cons piece pieces ih =>
      rw [List.flatMap_cons, ih (List.forall_mem_cons.1 h).2, List.cons_append,
        List.intercalate_cons_of_ne_nil (by simp)]
  rw [hjoined]
  refine splitOn_intercalate_of_ne_nil (by simp) fun piece hpiece => ?_
  obtain hmem | hlast := List.mem_append.1 hpiece
  · exact h piece hmem
  · rw [List.mem_singleton.1 hlast]
    exact List.not_mem_nil

/-- What holds no separator stands behind one that begins the text. -/
theorem infix_of_infix_cons {sep : Char} {s after : List Char} (hs : sep ∉ s)
    (h : s <:+: sep :: after) : s <:+: after := by
  obtain hprefix | hafter := List.infix_cons_iff.1 h
  · obtain rfl | ⟨t, rfl, -⟩ := List.prefix_cons_iff.1 hprefix
    · exact List.nil_infix
    · exact absurd List.mem_cons_self hs
  · exact hafter

/-- What holds no separator stands on one side of a separator in the text. -/
theorem infix_append_cons {sep : Char} {s before after : List Char} (hs : sep ∉ s)
    (h : s <:+: before ++ sep :: after) : s <:+: before ∨ s <:+: after := by
  obtain hbefore | hrest | ⟨front, back, rfl, hfront, hback⟩ := List.infix_append_iff.1 h
  · exact .inl hbefore
  · exact .inr (infix_of_infix_cons hs hrest)
  · obtain rfl | ⟨t, rfl, -⟩ := List.prefix_cons_iff.1 hback
    · rw [List.append_nil]
      exact .inl hfront.isInfix
    · exact absurd (List.mem_append_right front List.mem_cons_self) hs

/-! ### Carriage returns -/

/-- A blank at the end is taken off. -/
theorem trim_concat {c : Char} (hc : isBlank c = true) (s : List Char) :
    trim (s ++ [c]) = trim s := by
  unfold trim
  rw [List.dropWhile_append]
  split
  · rename_i hempty
    rw [List.isEmpty_iff.1 hempty, List.dropWhile_cons_of_pos hc]
    rfl
  · rw [List.reverse_concat, List.dropWhile_cons_of_pos hc]

/-- Between a line and the same line with or without a carriage return at its end. -/
def WithReturn (line longer : List Char) : Prop :=
  longer = line ∨ longer = line ++ ['\r']

namespace WithReturn

variable {line longer : List Char}

theorem trim_eq (h : WithReturn line longer) : trim longer = trim line := by
  obtain rfl | rfl := h
  · rfl
  · exact trim_concat (by decide) line

theorem cons (h : WithReturn line longer) (c : Char) : WithReturn (c :: line) (c :: longer) := by
  obtain rfl | rfl := h
  · exact .inl rfl
  · exact .inr rfl

theorem of_dropReturn (line : List Char) : WithReturn (dropReturn line) line := by
  unfold dropReturn
  split
  · rename_i rest hreverse
    exact .inr (by rw [← List.reverse_cons, ← hreverse, List.reverse_reverse])
  · exact .inl rfl

end WithReturn

/-- The text with a carriage return before every line feed. -/
def withReturns (s : List Char) : List Char :=
  s.flatMap fun c => if c = '\n' then ['\r', '\n'] else [c]

/-- The pieces are the same, but for carriage returns at their ends. -/
theorem splitOn_withReturns (s : List Char) :
    List.Forall₂ WithReturn (splitOn '\n' s) (splitOn '\n' (withReturns s)) := by
  induction s with
  | nil => exact .cons (.inl rfl) .nil
  | cons c s ih =>
    by_cases hc : c = '\n'
    · subst hc
      exact .cons (.inr rfl) ih
    · obtain ⟨piece, rest, hsplit⟩ := List.exists_cons_of_ne_nil (splitOn_ne_nil '\n' s)
      obtain ⟨piece', rest', hsplit'⟩ :=
        List.exists_cons_of_ne_nil (splitOn_ne_nil '\n' (withReturns s))
      have hcons : withReturns (c :: s) = c :: withReturns s := by
        rw [withReturns, List.flatMap_cons, if_neg hc]
        rfl
      rw [hsplit, hsplit', List.forall₂_cons] at ih
      rw [hcons, splitOn, splitOn, if_neg hc, if_neg hc, hsplit, hsplit']
      exact .cons (ih.1.cons c) ih.2

end NameHunt.Text
