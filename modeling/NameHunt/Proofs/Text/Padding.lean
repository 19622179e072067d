import NameHunt.Proofs.Text.Lines

/-!
# Blanks around the pieces of a text

What is read from a line is trimmed in the end, so blanks around any piece of it make no difference.
A separator that is not blank finds the same pieces in a text and in the same text with blanks
around it, up to the blanks around the first piece and the last.

* `Blank`, `Padded`, `Tidy`: blanks only, blanks around a text, no blank at either end.
* `Padded.trim_eq`, `padded_trim`: trimming takes off what padding puts on.
* `cutAt_eq_some_iff`, `cutAt_eq_none_iff`: the two sides of the first separator.
* `Padded.map_trim_splitOn`: the pieces of a padded text.
* `Listed`, `items_of_listed`: a list with commas is read as its elements.
-/

namespace NameHunt.Text

/-- Nothing but blanks. -/
def Blank (s : List Char) : Prop :=
  ∀ c ∈ s, isBlank c = true

instance (s : List Char) : Decidable (Blank s) :=
  decidable_of_iff (s.all isBlank = true) List.all_eq_true

/-- A text with blanks before and after it. -/
def Padded (text written : List Char) : Prop :=
  ∃ before after, Blank before ∧ Blank after ∧ written = before ++ text ++ after

/-- No blank stands at either end. -/
structure Tidy (s : List Char) : Prop where
  first : ∀ c ∈ s.head?, isBlank c = false
  last : ∀ c ∈ s.getLast?, isBlank c = false

instance (s : List Char) : Decidable (Tidy s) :=
  decidable_of_iff ((s.head?.all fun c => !isBlank c) = true ∧
      (s.getLast?.all fun c => !isBlank c) = true) <| by
    simp only [Option.all_eq_true, Bool.not_eq_true']
    exact ⟨fun h => ⟨h.1, h.2⟩, fun h => ⟨h.first, h.last⟩⟩

theorem Tidy.trim_eq {s : List Char} (h : Tidy s) : trim s = s :=
  trim_eq_self h.first h.last

theorem tidy_of_not_blank {s : List Char} (h : ∀ c ∈ s, isBlank c = false) : Tidy s where
  first := fun c hc => h c (List.mem_of_mem_head? hc)
  last := fun c hc => h c (List.mem_of_mem_getLast? hc)

/-- The only blanks of ASCII are the space and some of the control characters before it. -/
theorem isBlank_of_range {c : Char} (hlow : 0x20 < c.toNat) (hhigh : c.toNat < 0x80) :
    isBlank c = false := by
  simp only [isBlank, Bool.or_eq_false_iff, Bool.and_eq_false_iff, beq_eq_false_iff_ne,
    decide_eq_false_iff_not]
  omega

theorem not_mem_of_blank {c : Char} (hc : isBlank c = false) {s : List Char} (h : Blank s) :
    c ∉ s := by
  intro hmem
  rw [h c hmem] at hc
  cases hc

theorem trim_append_of_blank {before : List Char} (h : Blank before) (s : List Char) :
    trim (before ++ s) = trim s := by
  rw [trim, trim, List.dropWhile_append_of_pos h]

theorem trim_append_blank {after : List Char} (h : Blank after) (s : List Char) :
    trim (s ++ after) = trim s := by
  induction after using List.reverseRecOn with
  | nil => rw [List.append_nil]
  | append_singleton after c ih =>
    rw [← List.append_assoc, trim_concat (h c (by simp))]
    exact ih fun d hd => h d (List.mem_append_left [c] hd)

/-- Trimming takes off the blanks around a text. -/
theorem Padded.trim_eq {text written : List Char} (h : Padded text written) :
    trim written = trim text := by
  rcases h with ⟨before, after, hbefore, hafter, rfl⟩
  rw [trim_append_blank hafter, trim_append_of_blank hbefore]

/-- What is left by trimming had blanks around it. -/
theorem padded_trim (s : List Char) : Padded (trim s) s := by
  let rest := s.dropWhile isBlank
  have hback : rest = trim s ++ (rest.reverse.takeWhile isBlank).reverse := by
    show rest = (rest.reverse.dropWhile isBlank).reverse ++ _
    rw [← List.reverse_append, List.takeWhile_append_dropWhile, List.reverse_reverse]
  refine ⟨s.takeWhile isBlank, (rest.reverse.takeWhile isBlank).reverse, ?_, ?_, ?_⟩
  · exact fun c hc => List.mem_takeWhile_imp hc
  · exact fun c hc => List.mem_takeWhile_imp (List.mem_reverse.1 hc)
  · rw [List.append_assoc, ← hback]
    exact List.takeWhile_append_dropWhile.symm

theorem trim_eq_nil_iff {s : List Char} : trim s = [] ↔ Blank s := by
  constructor
  · intro h
    rcases padded_trim s with ⟨before, after, hbefore, hafter, hs⟩
    rw [h, List.append_nil] at hs
    intro c hc
    rcases List.mem_append.1 (hs ▸ hc) with hc | hc
    · exact hbefore c hc
    · exact hafter c hc
  · intro h
    have htrim := trim_append_of_blank h []
    rwa [List.append_nil] at htrim

/-- Among the characters of a padded text, those that are not blank are characters of the text. -/
theorem Padded.mem_iff {text written : List Char} (h : Padded text written) {c : Char}
    (hc : isBlank c = false) : c ∈ written ↔ c ∈ text := by
  rcases h with ⟨before, after, hbefore, hafter, rfl⟩
  simp [not_mem_of_blank hc hbefore, not_mem_of_blank hc hafter]

/-! ### One separator -/

theorem cutAt_append {sep : Char} {s : List Char} (h : sep ∉ s) (t : List Char) :
    cutAt sep (s ++ sep :: t) = some (s, t) := by
  have hs : ∀ c ∈ s, (c != sep) = true := fun c hc => bne_iff_ne.2 fun heq => h (heq ▸ hc)
  rw [cutAt, List.dropWhile_append_of_pos hs, List.takeWhile_append_of_pos hs]
  simp

theorem cutAt_eq_none_iff {sep : Char} {s : List Char} : cutAt sep s = none ↔ sep ∉ s := by
  constructor
  · intro h hmem
    rcases List.eq_append_cons_of_mem hmem with ⟨before, after, rfl, hbefore⟩
    rw [cutAt_append hbefore] at h
    cases h
  · intro h
    have hs : ∀ c ∈ s, (c != sep) = true := fun c hc => bne_iff_ne.2 fun heq => h (heq ▸ hc)
    rw [cutAt, List.dropWhile_eq_nil_iff.2 hs]

theorem cutAt_eq_some_iff {sep : Char} {s before after : List Char} :
    cutAt sep s = some (before, after) ↔ s = before ++ sep :: after ∧ sep ∉ before := by
  constructor
  · intro h
    have hmem : sep ∈ s := by
      by_contra hmem
      rw [cutAt_eq_none_iff.2 hmem] at h
      cases h
    rcases List.eq_append_cons_of_mem hmem with ⟨front, back, rfl, hfront⟩
    rw [cutAt_append hfront] at h
    cases h
    exact ⟨rfl, hfront⟩
  · rintro ⟨rfl, hbefore⟩
    exact cutAt_append hbefore after

/-- Two sides of a padded text are those of the text, with blanks around them. -/
theorem Padded.cutAt_eq_some {sep : Char} (hsep : isBlank sep = false)
    {text written : List Char} (h : Padded text written) {front back : List Char}
    (hcut : cutAt sep text = some (front, back)) :
    ∃ front' back', cutAt sep written = some (front', back') ∧ Padded front front' ∧
      Padded back back' := by
  rcases h with ⟨before, after, hbefore, hafter, rfl⟩
  rcases cutAt_eq_some_iff.1 hcut with ⟨rfl, hfront⟩
  refine ⟨before ++ front, back ++ after, ?_, ?_, ?_⟩
  · have hnot : sep ∉ before ++ front := by
      simp [not_mem_of_blank hsep hbefore, hfront]
    rw [← cutAt_append hnot]
    simp
  · exact ⟨before, [], hbefore, by simp [Blank], by simp⟩
  · exact ⟨[], after, by simp [Blank], hafter, by simp⟩

/-! ### All separators -/

/-- What stands in front without a separator belongs to the first piece. -/
theorem splitOn_of_not_mem_append {sep : Char} {s : List Char} (hs : sep ∉ s) (t : List Char) :
    ∃ first rest, splitOn sep t = first :: rest ∧ splitOn sep (s ++ t) = (s ++ first) :: rest := by
  induction s with
  | nil =>
    rcases List.exists_cons_of_ne_nil (splitOn_ne_nil sep t) with ⟨first, rest, hsplit⟩
    exact ⟨first, rest, hsplit, hsplit⟩
  | cons c s ih =>
    rcases ih fun hmem => hs (List.mem_cons_of_mem c hmem) with ⟨first, rest, ht, hst⟩
    refine ⟨first, rest, ht, ?_⟩
    have hc : c ≠ sep := fun heq => hs (heq ▸ List.mem_cons_self)
    rw [List.cons_append, splitOn, if_neg hc, hst]
    rfl

/-- Blanks around a text are blanks around its first and its last piece. -/
theorem Padded.map_trim_splitOn {sep : Char} (hsep : isBlank sep = false)
    {text written : List Char} (h : Padded text written) :
    (splitOn sep written).map trim = (splitOn sep text).map trim := by
  rcases h with ⟨before, after, hbefore, hafter, rfl⟩
  have hback : (splitOn sep (text ++ after)).map trim = (splitOn sep text).map trim := by
    rcases splitOn_append_of_not_mem (not_mem_of_blank hsep hafter) text with
      ⟨init, last, htext, hsplit⟩
    rw [htext, hsplit, List.map_append, List.map_append]
    simp only [List.map_cons, List.map_nil, trim_append_blank hafter]
  rcases splitOn_of_not_mem_append (not_mem_of_blank hsep hbefore) (text ++ after) with
    ⟨first, rest, htext, hsplit⟩
  rw [List.append_assoc, hsplit, ← hback, htext, List.map_cons, List.map_cons,
    trim_append_of_blank hbefore]

/-! ### Lists with commas -/

/-- What a list with commas can hold: no comma, and not what is taken off. -/
structure IsItem (item : String) : Prop where
  ne_empty : item ≠ ""
  tidy : Tidy item.toList
  comma : ',' ∉ item.toList

/-- A list with commas, with blanks around its elements. -/
def Listed (elements : List String) (written : List Char) : Prop :=
  ∃ pieces, List.Forall₂ (fun element piece => Padded element.toList piece) elements pieces ∧
    Padded ([','].intercalate pieces) written

theorem mem_intercalate_iff {sep c : Char} (hc : c ≠ sep) {pieces : List (List Char)} :
    c ∈ [sep].intercalate pieces ↔ ∃ piece ∈ pieces, c ∈ piece := by
  induction pieces with
  | nil => simp
  | cons piece pieces ih =>
    cases pieces with
    | nil => simp
    | cons next pieces =>
      rw [List.intercalate_cons_cons, List.mem_append, List.mem_append, ih]
      simp [hc]

/-- Trimming takes the blanks off every element. -/
theorem map_trim_pieces {elements : List String} {pieces : List (List Char)}
    (helements : ∀ e ∈ elements, IsItem e)
    (h : List.Forall₂ (fun element piece => Padded element.toList piece) elements pieces) :
    pieces.map trim = elements.map String.toList := by
  induction h with
  | nil => rfl
  | @cons element piece elements pieces hpiece _ ih =>
    have helement := helements element List.mem_cons_self
    rw [List.map_cons, List.map_cons, hpiece.trim_eq, helement.tidy.trim_eq,
      ih fun e he => helements e (List.mem_cons_of_mem element he)]

/-- A character of a piece that is not blank is a character of an element. -/
theorem exists_mem_of_mem_piece {elements : List String} {pieces : List (List Char)}
    (h : List.Forall₂ (fun element piece => Padded element.toList piece) elements pieces)
    {c : Char} (hc : isBlank c = false) {piece : List Char} (hpiece : piece ∈ pieces)
    (hmem : c ∈ piece) : ∃ element ∈ elements, c ∈ element.toList := by
  induction h with
  | nil => cases hpiece
  | @cons element first elements pieces hfirst _ ih =>
    rcases List.mem_cons.1 hpiece with rfl | hpiece
    · exact ⟨element, List.mem_cons_self, (hfirst.mem_iff hc).1 hmem⟩
    · rcases ih hpiece with ⟨e, he, hmem⟩
      exact ⟨e, List.mem_cons_of_mem element he, hmem⟩

/-- A list holds what its elements hold, besides commas and blanks. -/
theorem Listed.exists_mem {elements : List String} {written : List Char}
    (h : Listed elements written) {c : Char} (hc : isBlank c = false) (hcomma : c ≠ ',')
    (hmem : c ∈ written) :
    ∃ element ∈ elements, c ∈ element.toList := by
  rcases h with ⟨pieces, hpieces, hwritten⟩
  rcases (mem_intercalate_iff hcomma).1 ((hwritten.mem_iff hc).1 hmem) with ⟨piece, hpiece, hmem⟩
  exact exists_mem_of_mem_piece hpieces hc hpiece hmem

/-- A list with commas is read as its elements. -/
theorem items_of_listed {elements : List String} (helements : ∀ e ∈ elements, IsItem e)
    {written : List Char} (h : Listed elements written) : items written = elements := by
  rcases h with ⟨pieces, hpieces, hwritten⟩
  rw [items, hwritten.map_trim_splitOn (by decide)]
  rcases elements with _ | ⟨element, elements⟩
  · cases hpieces
    rfl
  have hne : pieces ≠ [] := by
    rintro rfl
    cases hpieces
  have hcomma : ∀ piece ∈ pieces, ',' ∉ piece := by
    intro piece hpiece hmem
    rcases exists_mem_of_mem_piece hpieces (by decide) hpiece hmem with ⟨e, he, hmem⟩
    exact (helements e he).comma hmem
  have hfilter : ((element :: elements).map String.toList).filter (fun piece => !piece.isEmpty) =
      (element :: elements).map String.toList := by
    refine List.filter_eq_self.2 fun piece hpiece => ?_
    rcases List.mem_map.1 hpiece with ⟨e, he, rfl⟩
    simpa using (helements e he).ne_empty
  rw [splitOn_intercalate_of_ne_nil hne hcomma, map_trim_pieces helements hpieces, hfilter,
    List.map_map]
  simp

end NameHunt.Text
