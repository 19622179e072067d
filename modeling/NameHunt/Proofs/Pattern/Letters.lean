import NameHunt.Analysis
import NameHunt.Proofs.Pattern.Names

/-!
# The characters of accepted patterns

A pattern without a fault is spelled with small letters, digits and hyphens, and its literals with
small letters and digits alone. An extension without a fault is a dot and a label of these.

* `Pattern.Small`: the literals hold small letters and digits.
* `Pattern.small_parse`: a pattern without a fault is read as such a pattern.
* `Pattern.Small.chars_of_mem_texts`: the characters of its texts.
* `Extension.exists_label`: the form of an extension without a fault.
* `analyze_eq_ok`: what an analysis says of its entry.
-/

namespace NameHunt

open Extension (isExtensionChar)

namespace Text

/-- The code points of the ASCII letters and digits. -/
theorem isAlphanum_iff {c : Char} :
    c.isAlphanum = true ↔
      (65 ≤ c.toNat ∧ c.toNat ≤ 90 ∨ 97 ≤ c.toNat ∧ c.toNat ≤ 122) ∨
        48 ≤ c.toNat ∧ c.toNat ≤ 57 := by
  simp [Char.isAlphanum, Char.isAlpha, Char.isUpper, Char.isLower, Char.isDigit,
    UInt32.le_iff_toNat_le, ← Char.toNat_val]

theorem isExtensionChar_iff {c : Char} :
    isExtensionChar c = true ↔
      97 ≤ c.toNat ∧ c.toNat ≤ 122 ∨ 48 ≤ c.toNat ∧ c.toNat ≤ 57 := by
  simp [isExtensionChar, Char.isLower, Char.isDigit, UInt32.le_iff_toNat_le, ← Char.toNat_val]

/-- The small form of a letter or a digit is a small letter or a digit. -/
theorem isExtensionChar_toLower {c : Char} (h : c.isAlphanum = true) :
    isExtensionChar c.toLower = true := by
  rw [Char.isAlphanum, Bool.or_eq_true] at h
  rw [isExtensionChar, Char.isLower_toLower_eq_isAlpha]
  rcases h with halpha | hdigit
  · rw [halpha, Bool.true_or]
  · have hrange := Char.isDigit_iff_toNat.1 hdigit
    have hnine : '9'.toNat = 57 := rfl
    have hupper : ¬ c.isUpper = true := by
      rw [isUpper_iff]
      omega
    rw [Char.toLower_eq_of_not_isUpper hupper, hdigit, Bool.or_true]

/-- Lower-casing letters and digits gives small letters and digits. -/
theorem isExtensionChar_of_mem_lower {s : List Char} (h : ∀ c ∈ s, c.isAlphanum = true) :
    ∀ c ∈ lower s, isExtensionChar c = true := by
  have hascii : ∀ c ∈ s, c.toNat < 0x80 := by
    intro c hc
    have hrange := isAlphanum_iff.1 (h c hc)
    omega
  intro c hc
  rw [lower_of_ascii hascii] at hc
  obtain ⟨d, hd, rfl⟩ := List.mem_map.1 hc
  exact isExtensionChar_toLower (h d hd)

end Text

namespace Pattern

/-! ### Literals -/

/-- The literals hold small letters and digits. -/
def Small (p : Pattern) : Prop :=
  ∀ text, Segment.literal text ∈ p → ∀ c ∈ text, isExtensionChar c = true

theorem small_close {buffer : List Char} (h : ∀ c ∈ buffer, c.isAlphanum = true) :
    Small (close buffer) := by
  intro text hmem
  unfold close at hmem
  split at hmem
  · cases hmem
  · obtain rfl : text = Text.lower buffer.reverse := by simpa using hmem
    exact Text.isExtensionChar_of_mem_lower (by simpa using h)

/-- A pattern character that is no token is a letter or a digit. -/
theorem isAlphanum_of_ofChar? {c : Char} (h : isPatternChar c = true)
    (htoken : Token.ofChar? c = none) : c.isAlphanum = true := by
  simp only [isPatternChar, Bool.or_eq_true, beq_iff_eq] at h
  obtain (halphanum | rfl) | rfl := h
  · exact halphanum
  · cases htoken
  · cases htoken

theorem small_ofChars {buffer : List Char} (hbuffer : ∀ c ∈ buffer, c.isAlphanum = true)
    {s : List Char} (h : ∀ c ∈ s, isPatternChar c = true) : Small (ofChars buffer s) := by
  induction s generalizing buffer with
  | nil => exact small_close hbuffer
  | cons c rest ih =>
    have hrest : ∀ d ∈ rest, isPatternChar d = true :=
      fun d hd => h d (List.mem_cons_of_mem c hd)
    unfold ofChars
    split
    · intro text hmem
      simp only [List.mem_append, List.mem_cons, reduceCtorEq, false_or] at hmem
      obtain hclosed | hopen := hmem
      · exact small_close hbuffer text hclosed
      · exact ih (by simp) hrest text hopen
    · rename_i htoken
      refine ih ?_ hrest
      intro d hd
      obtain rfl | hd := List.mem_cons.1 hd
      · exact isAlphanum_of_ofChar? (h d List.mem_cons_self) htoken
      · exact hbuffer d hd

theorem isPatternChar_of_fault? {s : List Char} (h : fault? s = none) :
    ∀ c ∈ s, isPatternChar c = true := by
  unfold fault? at h
  -- The last of the faults is a character that is none of a pattern.
  iterate 5 (split at h; · cases h)
  intro c hc
  simpa using List.find?_eq_none.1 (Option.map_eq_none_iff.1 h) c hc

/-- A pattern without a fault is read with literals of small letters and digits. -/
theorem small_parse {s : String} (h : fault? s.toList = none) : Small (parse s) :=
  small_ofChars (by simp) (isPatternChar_of_fault? h)

/-! ### Texts -/

theorem Small.tail {s : Segment} {p : Pattern} (h : Small (s :: p)) : Small p :=
  fun text hmem => h text (List.mem_cons_of_mem s hmem)

theorem token_chars (t : Token) : ∀ c ∈ t.alphabet, isExtensionChar c = true ∨ c = '-' := by
  have hall : (t.alphabet.all fun c => isExtensionChar c || c == '-') = true := by
    cases t <;> decide
  simpa using hall

/-- The characters of the texts of a pattern with small literals. -/
theorem Small.chars_of_mem_texts {p : Pattern} (h : Small p) {text : List Char}
    (htext : text ∈ texts p) : ∀ c ∈ text, isExtensionChar c = true ∨ c = '-' := by
  induction p generalizing text with
  | nil =>
    obtain rfl := List.mem_singleton.1 htext
    exact fun c hc => absurd hc List.not_mem_nil
  | cons s rest ih =>
    simp only [texts, List.mem_flatMap, List.mem_map] at htext
    obtain ⟨after, hafter, piece, hpiece, rfl⟩ := htext
    intro c hc
    obtain hc | hc := List.mem_append.1 hc
    · cases s with
      | literal literal =>
        obtain rfl := List.mem_singleton.1 hpiece
        exact .inl (h piece List.mem_cons_self c hc)
      | choice token =>
        obtain ⟨d, hd, rfl⟩ := List.mem_map.1 hpiece
        obtain rfl := List.mem_singleton.1 hc
        exact token_chars token c hd
    · exact ih h.tail hafter c hc

end Pattern

/-! ### Extensions -/

/-- An extension without a fault is a dot and a label of small letters and digits. -/
theorem Extension.exists_label {extension : String} (h : fault? extension = none) :
    ∃ label, extension.toList = '.' :: label ∧ label ≠ [] ∧
      ∀ c ∈ label, isExtensionChar c = true := by
  unfold fault? at h
  split at h
  · rename_i label htext
    split at h
    · cases h
    · rename_i hempty
      split at h
      · rename_i hall
        exact ⟨label, htext, by simpa using hempty, by simpa using hall⟩
      · cases h
  · cases h

/-! ### Entries -/

theorem Extension.listFault?_eq_none_iff {extensions : List String} :
    listFault? extensions = none ↔
      extensions ≠ [] ∧ ∀ extension ∈ extensions, fault? extension = none := by
  unfold listFault?
  cases extensions with
  | nil => simp
  | cons first rest =>
    rw [List.isEmpty_cons, if_neg Bool.false_ne_true, List.findSome?_eq_none_iff]
    exact (and_iff_right (List.cons_ne_nil first rest)).symm

/-- An entry that is accepted has no fault, and its analysis is that of its two parts. -/
theorem faultless_of_analyze {entry : Entry} {analysis : Analysis}
    (h : analyze entry = .ok analysis) :
    Pattern.fault? entry.pattern.toList = none ∧
      Extension.listFault? entry.extensions = none ∧
      analysis = Analysis.of entry.pattern entry.extensions := by
  unfold analyze at h
  cases hpattern : Pattern.fault? entry.pattern.toList with
  | some fault => simp [hpattern, refuse, bind, Except.bind] at h
  | none =>
    cases hextensions : Extension.listFault? entry.extensions with
    | some fault => simp [hpattern, hextensions, refuse, bind, Except.bind] at h
    | none =>
      simp only [hpattern, hextensions, refuse, bind, Except.bind, pure, Except.pure,
        Except.ok.injEq] at h
      exact ⟨rfl, rfl, h.symm⟩

theorem analyze_eq_ok {entry : Entry} {analysis : Analysis} (h : analyze entry = .ok analysis) :
    Pattern.fault? entry.pattern.toList = none ∧
      (∀ extension ∈ entry.extensions, Extension.fault? extension = none) ∧
      analysis = Analysis.of entry.pattern entry.extensions := by
  obtain ⟨hpattern, hextensions, hanalysis⟩ := faultless_of_analyze h
  exact ⟨hpattern, (Extension.listFault?_eq_none_iff.1 hextensions).2, hanalysis⟩

end NameHunt
