import NameHunt.Text.Column

/-!
# Plain text in a column

A printable ASCII character takes one column. So a text of such characters is as wide as it is long,
and it is brought to the width of a column by counting characters.

* `Printable`: a printable ASCII character.
* `width_of_printable`, `takeColumns_of_printable`: columns are characters.
* `padRight_of_length_le`, `padRight_of_lt_length`: what stands in a column.
-/

namespace NameHunt.Text

/-- A printable ASCII character. -/
def Printable (c : Char) : Prop :=
  0x20 ≤ c.toNat ∧ c.toNat < 0x7F

instance (c : Char) : Decidable (Printable c) :=
  inferInstanceAs (Decidable (_ ∧ _))

theorem charWidth_of_printable {c : Char} (h : Printable c) : charWidth c = 1 := by
  obtain ⟨hlow, hhigh⟩ := h
  simp only [charWidth]
  rw [if_neg (Nat.not_lt.2 hlow), if_pos hhigh]

theorem isControl_of_printable {c : Char} (h : Printable c) : isControl c = false := by
  obtain ⟨hlow, hhigh⟩ := h
  simp only [isControl, Bool.or_eq_false_iff, Bool.and_eq_false_iff, decide_eq_false_iff_not]
  omega

variable {s tail : List Char} {columns : Nat}

theorem width_of_printable (h : ∀ c ∈ s, Printable c) : width s = s.length := by
  have hfrom (n : Nat) : s.foldl (fun n c => n + if isControl c then 1 else charWidth c) n =
      n + s.length := by
    induction s generalizing n with
    | nil => rfl
    | cons c s ih =>
      obtain ⟨hc, hs⟩ := List.forall_mem_cons.1 h
      rw [List.foldl_cons, ih hs, isControl_of_printable hc, charWidth_of_printable hc,
        List.length_cons]
      simp only [Bool.false_eq_true, if_false]
      omega
  exact (hfrom 0).trans (Nat.zero_add _)

/-- As many characters fit as there are columns. -/
theorem takeColumns_of_printable (h : ∀ c ∈ s, Printable c) (room : Nat) :
    takeColumns room s = s.take room := by
  induction s generalizing room with
  | nil => rw [takeColumns, List.take_nil]
  | cons c s ih =>
    obtain ⟨hc, hs⟩ := List.forall_mem_cons.1 h
    rw [takeColumns, charWidth_of_printable hc]
    match room with
    | 0 => rfl
    | 1 => rfl
    | room + 2 =>
      rw [if_neg (by omega), if_pos (by omega), List.take_succ_cons]
      exact congrArg (c :: ·) (ih hs (room + 1))

/-- A text that fits stands in front of spaces. -/
theorem padRight_of_length_le (h : ∀ c ∈ s, Printable c) (hfits : s.length ≤ columns) :
    padRight columns tail s = s ++ List.replicate (columns - s.length) ' ' := by
  rw [padRight, width_of_printable h]
  obtain hless | heq := Nat.lt_or_eq_of_le hfits
  · rw [if_pos hless]
  · rw [if_neg (by omega), if_pos heq, heq, Nat.sub_self, List.replicate_zero, List.append_nil]

/-- A text that is too long is cut, and the column is full. -/
theorem padRight_of_lt_length (h : ∀ c ∈ s, Printable c) (htail : ∀ c ∈ tail, Printable c)
    (hlong : columns < s.length) :
    padRight columns tail s = s.take (columns - tail.length) ++ tail := by
  rw [padRight, width_of_printable h, width_of_printable htail, if_neg (by omega),
    if_neg (by omega), takeColumns_of_printable h]

end NameHunt.Text
