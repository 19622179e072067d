import NameHunt.Proofs.Generator
import NameHunt.Proofs.Pattern.Letters

/-!
# The grammar of entries

What an analysis accepts, written down as two regular languages, and what it says about everything
else, written down as the order in which faults count. The checks of a pattern look at a text as a
whole (its ends, two hyphens side by side, its first foreign character); the language puts it
together from runs and hyphens. Both say the same of every text.

* `Pattern.grammar`: runs of letters, digits and underscores, joined by single hyphens.
* `Extension.grammar`: a dot, then small letters and digits.
* `Pattern.fault?_eq_none_iff`, `Extension.fault?_eq_none_iff`: the texts without a fault.
* `Pattern.Faulty`, `Extension.Faulty`, `Extension.ListFaulty`: which fault a text is charged with.
* `Entry.Judged`, `Entry.judged`: what an analysis says of an entry.
-/

namespace NameHunt

open Computability

/-! ### Rows of characters -/

/-- One character of a class. -/
def oneOf (chars : Set Char) : Language Char :=
  {s | ∃ c ∈ chars, s = [c]}

/-- A text of a language, or several in a row. -/
def oneOrMore (l : Language Char) : Language Char :=
  l * l∗

theorem mem_kstar_oneOf {chars : Set Char} {s : List Char} :
    s ∈ (oneOf chars)∗ ↔ ∀ c ∈ s, c ∈ chars := by
  rw [Language.mem_kstar]
  constructor
  · rintro ⟨pieces, rfl, hpieces⟩ c hc
    rcases List.mem_flatten.1 hc with ⟨piece, hpiece, hc⟩
    rcases hpieces piece hpiece with ⟨d, hd, rfl⟩
    exact List.mem_singleton.1 hc ▸ hd
  · intro h
    refine ⟨s.map fun c => [c], ?_, ?_⟩
    · rw [← List.flatMap_def, List.flatMap_singleton']
    · intro piece hpiece
      rcases List.mem_map.1 hpiece with ⟨c, hc, rfl⟩
      exact ⟨c, h c hc, rfl⟩

/-- A row of characters of a class is not empty and holds no others. -/
theorem mem_oneOrMore_oneOf {chars : Set Char} {s : List Char} :
    s ∈ oneOrMore (oneOf chars) ↔ s ≠ [] ∧ ∀ c ∈ s, c ∈ chars := by
  rw [oneOrMore, Language.mem_mul]
  constructor
  · rintro ⟨first, ⟨c, hc, rfl⟩, rest, hrest, rfl⟩
    refine ⟨List.cons_ne_nil c rest, ?_⟩
    intro d hd
    rcases List.mem_cons.1 hd with rfl | hd
    · exact hc
    · exact mem_kstar_oneOf.1 hrest d hd
  · rintro ⟨hne, hall⟩
    cases s with
    | nil => exact absurd rfl hne
    | cons c rest =>
      refine ⟨[c], ⟨c, hall c List.mem_cons_self, rfl⟩, rest, ?_, rfl⟩
      exact mem_kstar_oneOf.2 fun d hd => hall d (List.mem_cons_of_mem c hd)

/-! ### Patterns -/

namespace Pattern

/-- The letters in both cases, the digits and the underscore. -/
def runChars : Set Char :=
  Set.Icc 'A' 'Z' ∪ Set.Icc 'a' 'z' ∪ Set.Icc '0' '9' ∪ {'_'}

/-- The texts without a hyphen that a pattern is joined from. -/
def run : Language Char :=
  oneOrMore (oneOf runChars)

/-- Runs, and a hyphen between any two of them. -/
def grammar : Language Char :=
  run * ({['-']} * run)∗

theorem mem_runChars {c : Char} : c ∈ runChars ↔ c.isAlphanum = true ∨ c = '_' := by
  simp only [runChars, Char.isAlphanum, Char.isAlpha, Char.isUpper, Char.isLower, Char.isDigit,
    Char.le_def, Set.mem_union, Set.mem_Icc, Set.mem_singleton_iff, Bool.or_eq_true,
    Bool.and_eq_true, decide_eq_true_eq]

theorem hyphen_not_mem_runChars : '-' ∉ runChars := by
  rw [mem_runChars]
  decide

/-- A pattern holds hyphens and the characters of its runs. -/
theorem isPatternChar_iff {c : Char} : isPatternChar c = true ↔ c ∈ runChars ∨ c = '-' := by
  rw [mem_runChars]
  simp only [isPatternChar, Bool.or_eq_true, beq_iff_eq]
  tauto

theorem mem_run {s : List Char} : s ∈ run ↔ s ≠ [] ∧ ∀ c ∈ s, c ∈ runChars :=
  mem_oneOrMore_oneOf

theorem mem_grammar {s : List Char} :
    s ∈ grammar ↔ ∃ first ∈ run, ∃ rest ∈ ({['-']} * run)∗, first ++ rest = s :=
  Language.mem_mul

theorem singleton_mem_grammar {c : Char} (hc : c ∈ runChars) : [c] ∈ grammar := by
  refine mem_grammar.2 ⟨[c], ?_, [], Language.nil_mem_kstar _, List.append_nil _⟩
  exact mem_run.2 ⟨List.cons_ne_nil c [], by simpa using hc⟩

/-- A character in front makes the first run longer. -/
theorem cons_mem_grammar {c : Char} {s : List Char} (hc : c ∈ runChars) (h : s ∈ grammar) :
    c :: s ∈ grammar := by
  rcases mem_grammar.1 h with ⟨first, hfirst, rest, hrest, rfl⟩
  refine mem_grammar.2 ⟨c :: first, mem_run.2 ⟨List.cons_ne_nil c first, ?_⟩, rest, hrest, rfl⟩
  intro d hd
  rcases List.mem_cons.1 hd with rfl | hd
  · exact hc
  · exact (mem_run.1 hfirst).2 d hd

/-- A character and a hyphen in front are a run of their own. -/
theorem cons_hyphen_mem_grammar {c : Char} {s : List Char} (hc : c ∈ runChars)
    (h : s ∈ grammar) : c :: '-' :: s ∈ grammar := by
  rcases mem_grammar.1 h with ⟨first, hfirst, rest, hrest, rfl⟩
  have hjoined : '-' :: first ∈ ({['-']} * run : Language Char) :=
    Language.append_mem_mul (Set.mem_singleton ['-']) hfirst
  rcases Language.mem_kstar.1 hrest with ⟨pieces, rfl, hpieces⟩
  refine mem_grammar.2 ⟨[c], mem_run.2 ⟨List.cons_ne_nil c [], by simpa using hc⟩,
    ('-' :: first) ++ pieces.flatten, ?_, rfl⟩
  rw [← List.flatten_cons]
  exact Language.join_mem_kstar (List.forall_mem_cons.2 ⟨hjoined, hpieces⟩)

/-- The ends of a text are no hyphens, no two hyphens stand side by side, and the other characters
are those of runs. -/
structure Hyphenated (s : List Char) : Prop where
  ne_nil : s ≠ []
  first : s.head? ≠ some '-'
  last : s.getLast? ≠ some '-'
  apart : Apart s
  chars : ∀ c ∈ s, c ∈ runChars ∨ c = '-'

/-- What is checked of a text as a whole lets it be taken apart from the front: a character of a
run, and a hyphen after it only if more follows. -/
theorem mem_grammar_of_hyphenated {s : List Char} (h : Hyphenated s) : s ∈ grammar := by
  induction hn : s.length using Nat.strong_induction_on generalizing s with
  | _ n ih =>
    subst hn
    rcases s with _ | ⟨c, rest⟩
    · exact absurd rfl h.ne_nil
    have hc : c ∈ runChars := by
      rcases h.chars c List.mem_cons_self with hc | rfl
      · exact hc
      · exact absurd rfl h.first
    rcases rest with _ | ⟨d, rest⟩
    · exact singleton_mem_grammar hc
    have happart : Apart (d :: rest) := (List.isChain_cons_cons.1 h.apart).2
    have hchars : ∀ e ∈ d :: rest, e ∈ runChars ∨ e = '-' :=
      fun e he => h.chars e (List.mem_cons_of_mem c he)
    by_cases hd : d = '-'
    · subst hd
      rcases rest with _ | ⟨e, rest⟩
      · exact absurd rfl h.last
      have he : e ≠ '-' := fun heq => (List.isChain_cons_cons.1 happart).1 ⟨rfl, heq⟩
      refine cons_hyphen_mem_grammar hc (ih _ ?_ ⟨List.cons_ne_nil e rest, ?_, ?_, ?_, ?_⟩ rfl)
      · simp only [List.length_cons]
        omega
      · simpa using he
      · simpa using h.last
      · exact (List.isChain_cons_cons.1 happart).2
      · exact fun f hf => hchars f (List.mem_cons_of_mem '-' hf)
    · refine cons_mem_grammar hc (ih _ ?_ ⟨List.cons_ne_nil d rest, ?_, ?_, happart, hchars⟩ rfl)
      · simp only [List.length_cons]
        omega
      · simpa using hd
      · simpa using h.last

theorem hyphen_not_mem_of_mem_run {s : List Char} (h : s ∈ run) : '-' ∉ s :=
  fun hmem => hyphen_not_mem_runChars ((mem_run.1 h).2 '-' hmem)

theorem hyphenated_of_mem_run {s : List Char} (h : s ∈ run) : Hyphenated s := by
  have hplain := hyphen_not_mem_of_mem_run h
  refine ⟨(mem_run.1 h).1, ?_, ?_, apart_of_not_mem hplain, fun c hc => .inl ((mem_run.1 h).2 c hc)⟩
  · exact fun hhead => hplain (List.mem_of_head? hhead)
  · exact fun hlast => hplain (List.mem_of_getLast? hlast)

/-- A run and a hyphen may stand before any such text. -/
theorem Hyphenated.join {first s : List Char} (hfirst : first ∈ run) (h : Hyphenated s) :
    Hyphenated (first ++ '-' :: s) := by
  have hplain := hyphen_not_mem_of_mem_run hfirst
  have hne := (mem_run.1 hfirst).1
  refine ⟨by simp, ?_, ?_, ?_, ?_⟩
  · rw [List.head?_append_of_ne_nil _ hne]
    exact fun hhead => hplain (List.mem_of_head? hhead)
  · rw [List.getLast?_append_cons, List.getLast?_cons_of_ne_nil h.ne_nil]
    exact h.last
  · refine List.isChain_append.2 ⟨apart_of_not_mem hplain, ?_, ?_⟩
    · refine List.isChain_cons.2 ⟨?_, h.apart⟩
      rintro d hd ⟨-, rfl⟩
      exact h.first hd
    · rintro c hc d - ⟨rfl, -⟩
      exact hplain (List.mem_of_getLast? hc)
  · intro c hc
    rcases List.mem_append.1 hc with hc | hc
    · exact .inl ((mem_run.1 hfirst).2 c hc)
    · rcases List.mem_cons.1 hc with rfl | hc
      · exact .inr rfl
      · exact h.chars c hc

theorem hyphenated_of_mem_grammar {s : List Char} (h : s ∈ grammar) : Hyphenated s := by
  rcases mem_grammar.1 h with ⟨first, hfirst, rest, hrest, rfl⟩
  rcases Language.mem_kstar.1 hrest with ⟨pieces, rfl, hpieces⟩
  clear h hrest
  induction pieces generalizing first with
  | nil => simpa using hyphenated_of_mem_run hfirst
  | cons piece pieces ih =>
    rcases Language.mem_mul.1 (hpieces piece List.mem_cons_self) with ⟨_, rfl, next, hnext, rfl⟩
    have hrest := ih next hnext fun p hp => hpieces p (List.mem_cons_of_mem _ hp)
    exact hrest.join hfirst

theorem mem_grammar_iff_hyphenated {s : List Char} : s ∈ grammar ↔ Hyphenated s :=
  ⟨hyphenated_of_mem_grammar, mem_grammar_of_hyphenated⟩

theorem hasDoubleHyphen_eq_false_iff {s : List Char} : hasDoubleHyphen s = false ↔ Apart s := by
  induction s using hasDoubleHyphen.induct with
  | case1 rest => simp [hasDoubleHyphen, Apart]
  | case2 c rest hne ih =>
    rw [hasDoubleHyphen, ih, Apart, Apart, List.isChain_cons]
    · refine (and_iff_right ?_).symm
      rintro d hd ⟨rfl, rfl⟩
      rcases rest with _ | ⟨e, rest⟩
      · cases hd
      · obtain rfl : e = '-' := Option.some.inj hd
        exact hne rest rfl rfl
    · exact hne
  | case3 => simp [hasDoubleHyphen, Apart]

/-! ### The fault of a pattern -/

/-- The fault that a text is charged with. Every case comes after those above it. -/
inductive Faulty (s : List Char) : Error → Prop
  | empty (h : s = []) : Faulty s .emptyPattern
  | space (h : ' ' ∈ s) : Faulty s .containsSpace
  | leading (hspace : ' ' ∉ s) (h : ['-'] <+: s) : Faulty s .leadingHyphen
  | trailing (hspace : ' ' ∉ s) (hfirst : ¬ ['-'] <+: s) (h : ['-'] <:+ s) :
      Faulty s .trailingHyphen
  | double (hspace : ' ' ∉ s) (hfirst : ¬ ['-'] <+: s) (hlast : ¬ ['-'] <:+ s)
      (h : ['-', '-'] <:+: s) : Faulty s .consecutiveHyphens
  /-- The first character that is none of a run and no hyphen. -/
  | foreign (hspace : ' ' ∉ s) (hfirst : ¬ ['-'] <+: s) (hlast : ¬ ['-'] <:+ s)
      (hdouble : ¬ ['-', '-'] <:+: s) {before after : List Char} {c : Char}
      (hsplit : s = before ++ c :: after) (hbefore : ∀ b ∈ before, b ∈ runChars ∨ b = '-')
      (h : c ∉ runChars ∧ c ≠ '-') : Faulty s (.invalidCharacter c)

theorem head?_eq_hyphen_iff {s : List Char} : s.head? = some '-' ↔ ['-'] <+: s := by
  cases s <;> simp [eq_comm]

theorem getLast?_eq_hyphen_iff {s : List Char} : s.getLast? = some '-' ↔ ['-'] <:+ s := by
  rw [← List.head?_reverse, head?_eq_hyphen_iff, ← List.reverse_prefix, List.reverse_singleton]

theorem isPatternChar_eq_false_iff {c : Char} :
    isPatternChar c = false ↔ c ∉ runChars ∧ c ≠ '-' := by
  rw [← Bool.not_eq_true, isPatternChar_iff, not_or]

/-- The checks, each as the condition that it looks for. -/
theorem fault?_eq (s : List Char) :
    fault? s =
      if s = [] then some .emptyPattern
      else if ' ' ∈ s then some .containsSpace
      else if ['-'] <+: s then some .leadingHyphen
      else if ['-'] <:+ s then some .trailingHyphen
      else if ['-', '-'] <:+: s then some .consecutiveHyphens
      else (s.find? fun c => !isPatternChar c).map .invalidCharacter := by
  have hdouble : hasDoubleHyphen s = true ↔ ['-', '-'] <:+: s := by
    rw [← not_iff_not, Bool.not_eq_true, hasDoubleHyphen_eq_false_iff, apart_iff]
  simp only [fault?, List.isEmpty_iff, List.contains_iff_mem, beq_iff_eq, head?_eq_hyphen_iff,
    getLast?_eq_hyphen_iff, hdouble]

theorem faulty_of_fault? {s : List Char} {error : Error} (h : fault? s = some error) :
    Faulty s error := by
  rw [fault?_eq] at h
  split at h
  · rename_i hempty
    exact Option.some.inj h ▸ .empty hempty
  split at h
  · rename_i hspace
    exact Option.some.inj h ▸ .space hspace
  rename_i hspace
  split at h
  · rename_i hfirst
    exact Option.some.inj h ▸ .leading hspace hfirst
  rename_i hfirst
  split at h
  · rename_i hlast
    exact Option.some.inj h ▸ .trailing hspace hfirst hlast
  rename_i hlast
  split at h
  · rename_i hdouble
    exact Option.some.inj h ▸ .double hspace hfirst hlast hdouble
  rename_i hdouble
  rcases Option.map_eq_some_iff.1 h with ⟨c, hc, rfl⟩
  rcases List.find?_eq_some_iff_append.1 hc with ⟨hforeign, before, after, hsplit, hbefore⟩
  refine .foreign hspace hfirst hlast hdouble hsplit ?_ ?_
  · intro b hb
    exact isPatternChar_iff.1 (by simpa using hbefore b hb)
  · exact isPatternChar_eq_false_iff.1 (by simpa using hforeign)

theorem fault?_of_faulty {s : List Char} {error : Error} (h : Faulty s error) :
    fault? s = some error := by
  rw [fault?_eq]
  cases h with
  | empty h => rw [if_pos h]
  | space h => rw [if_neg (List.ne_nil_of_mem h), if_pos h]
  | leading hspace h => rw [if_neg (by rintro rfl; simp at h), if_neg hspace, if_pos h]
  | trailing hspace hfirst h =>
    rw [if_neg (by rintro rfl; simp at h), if_neg hspace, if_neg hfirst, if_pos h]
  | double hspace hfirst hlast h =>
    rw [if_neg (by rintro rfl; simp at h), if_neg hspace, if_neg hfirst, if_neg hlast, if_pos h]
  | @foreign hspace hfirst hlast hdouble before after c hsplit hbefore h =>
    have hfind : s.find? (fun c => !isPatternChar c) = some c := by
      refine List.find?_eq_some_iff_append.2 ⟨?_, before, after, hsplit, ?_⟩
      · simpa using isPatternChar_eq_false_iff.2 h
      · intro b hb
        simpa using isPatternChar_iff.2 (hbefore b hb)
    rw [if_neg (by rintro rfl; simp at hsplit), if_neg hspace, if_neg hfirst, if_neg hlast,
      if_neg hdouble, hfind, Option.map_some]

theorem fault?_eq_some_iff {s : List Char} {error : Error} :
    fault? s = some error ↔ Faulty s error :=
  ⟨faulty_of_fault?, fault?_of_faulty⟩

/-- The texts without a fault are those of the grammar. -/
theorem fault?_eq_none_iff {s : List Char} : fault? s = none ↔ s ∈ grammar := by
  rw [mem_grammar_iff_hyphenated]
  constructor
  · intro h
    have hchars := isPatternChar_of_fault? h
    rw [fault?_eq] at h
    split at h
    · cases h
    rename_i hempty
    split at h
    · cases h
    split at h
    · cases h
    rename_i hfirst
    split at h
    · cases h
    rename_i hlast
    split at h
    · cases h
    rename_i hdouble
    exact ⟨hempty, mt head?_eq_hyphen_iff.1 hfirst, mt getLast?_eq_hyphen_iff.1 hlast,
      apart_iff.2 hdouble, fun c hc => isPatternChar_iff.1 (hchars c hc)⟩
  · intro h
    have hspace : ' ' ∉ s := by
      intro hmem
      rcases h.chars ' ' hmem with hrun | hhyphen
      · rw [mem_runChars] at hrun
        exact absurd hrun (by decide)
      · exact absurd hhyphen (by decide)
    have hfind : s.find? (fun c => !isPatternChar c) = none := by
      refine List.find?_eq_none.2 fun c hc => ?_
      simpa using isPatternChar_iff.2 (h.chars c hc)
    rw [fault?_eq, if_neg h.ne_nil, if_neg hspace, if_neg (mt head?_eq_hyphen_iff.2 h.first),
      if_neg (mt getLast?_eq_hyphen_iff.2 h.last), if_neg (apart_iff.1 h.apart), hfind,
      Option.map_none]

theorem isValidation_of_faulty {s : List Char} {error : Error} (h : Faulty s error) :
    error.isValidation = true := by
  cases h <;> rfl

end Pattern

/-! ### Extensions -/

namespace Extension

/-- The small letters and the digits. -/
def labelChars : Set Char :=
  Set.Icc 'a' 'z' ∪ Set.Icc '0' '9'

/-- A dot, then at least one small letter or digit, and nothing else. -/
def grammar : Language Char :=
  {['.']} * oneOrMore (oneOf labelChars)

theorem mem_labelChars {c : Char} : c ∈ labelChars ↔ isExtensionChar c = true := by
  simp only [labelChars, isExtensionChar, Char.isLower, Char.isDigit, Char.le_def, Set.mem_union,
    Set.mem_Icc, Bool.or_eq_true, Bool.and_eq_true, decide_eq_true_eq]

theorem mem_grammar {s : List Char} :
    s ∈ grammar ↔ ∃ label, s = '.' :: label ∧ label ≠ [] ∧ ∀ c ∈ label, c ∈ labelChars := by
  rw [grammar, Language.mem_mul]
  constructor
  · rintro ⟨_, rfl, label, hlabel, rfl⟩
    exact ⟨label, rfl, mem_oneOrMore_oneOf.1 hlabel⟩
  · rintro ⟨label, rfl, hlabel⟩
    exact ⟨['.'], Set.mem_singleton ['.'], label, mem_oneOrMore_oneOf.2 hlabel, rfl⟩

/-- The fault that an extension is charged with. -/
inductive Faulty (extension : String) : Error → Prop
  | noDot (h : ¬ ['.'] <+: extension.toList) : Faulty extension (.missingDot extension)
  | dotAlone (h : extension = ".") : Faulty extension (.tooShort extension)
  | malformed (hdot : ['.'] <+: extension.toList) (hlabel : extension ≠ ".")
      (h : extension.toList ∉ grammar) : Faulty extension (.malformedExtension extension)

/-- The check of an extension whose dot is there. -/
theorem fault?_of_dot {extension : String} {label : List Char}
    (h : extension.toList = '.' :: label) :
    fault? extension =
      if label = [] then some (.tooShort extension)
      else if ∀ c ∈ label, isExtensionChar c = true then none
      else some (.malformedExtension extension) := by
  unfold fault?
  rw [h]
  simp only [List.isEmpty_iff, List.all_eq_true]

theorem fault?_of_not_dot {extension : String} (h : ¬ ['.'] <+: extension.toList) :
    fault? extension = some (.missingDot extension) := by
  unfold fault?
  split
  · rename_i label hlabel
    exact absurd ⟨label, hlabel.symm⟩ h
  · rfl

/-- The dot alone is the text with a dot and an empty label. -/
theorem eq_dot_iff {extension : String} {label : List Char}
    (h : extension.toList = '.' :: label) : extension = "." ↔ label = [] := by
  rw [← String.toList_inj, h]
  show '.' :: label = ['.'] ↔ _
  rw [List.cons.injEq]
  exact and_iff_right rfl

theorem mem_grammar_of_dot {extension : String} {label : List Char}
    (h : extension.toList = '.' :: label) :
    extension.toList ∈ grammar ↔ label ≠ [] ∧ ∀ c ∈ label, isExtensionChar c = true := by
  simp only [mem_grammar, h, List.cons.injEq, true_and, exists_eq_left', mem_labelChars]

/-- The extensions without a fault are those of the grammar. -/
theorem fault?_eq_none_iff {extension : String} :
    fault? extension = none ↔ extension.toList ∈ grammar := by
  by_cases hdot : ['.'] <+: extension.toList
  · rcases hdot with ⟨label, hlabel⟩
    rw [fault?_of_dot hlabel.symm, mem_grammar_of_dot hlabel.symm]
    by_cases hempty : label = [] <;> simp [hempty]
  · rw [fault?_of_not_dot hdot]
    refine iff_of_false (Option.some_ne_none _) ?_
    intro h
    rcases mem_grammar.1 h with ⟨label, hlabel, -⟩
    exact hdot ⟨label, hlabel.symm⟩

theorem fault?_eq_some_iff {extension : String} {error : Error} :
    fault? extension = some error ↔ Faulty extension error := by
  by_cases hdot : ['.'] <+: extension.toList
  · have hprefix := hdot
    rcases hdot with ⟨label, hlabel⟩
    have heq := eq_dot_iff hlabel.symm
    have hmem := mem_grammar_of_dot hlabel.symm
    rw [fault?_of_dot hlabel.symm]
    constructor
    · intro h
      split at h
      · rename_i hempty
        exact Option.some.inj h ▸ .dotAlone (heq.2 hempty)
      rename_i hempty
      split at h
      · cases h
      rename_i hforeign
      have hnot : extension.toList ∉ grammar := mt hmem.1 fun hall => hforeign hall.2
      exact Option.some.inj h ▸ .malformed hprefix (mt heq.1 hempty) hnot
    · intro h
      cases h with
      | noDot h => exact absurd hprefix h
      | dotAlone h => rw [if_pos (heq.1 h)]
      | malformed _ hlabel h =>
        have hempty := mt heq.2 hlabel
        rw [if_neg hempty, if_neg fun hall => h (hmem.2 ⟨hempty, hall⟩)]
  · rw [fault?_of_not_dot hdot]
    constructor
    · intro h
      exact Option.some.inj h ▸ .noDot hdot
    · intro h
      cases h with
      | noDot _ => rfl
      | dotAlone h => exact absurd (h ▸ List.prefix_refl _) hdot
      | malformed h _ _ => exact absurd h hdot

/-- The fault that a list is charged with: that of its first element outside the grammar. -/
inductive ListFaulty : List String → Error → Prop
  | empty : ListFaulty [] .noExtensions
  | first {before after : List String} {extension : String} {error : Error}
      (hbefore : ∀ e ∈ before, e.toList ∈ grammar) (h : Faulty extension error) :
      ListFaulty (before ++ extension :: after) error

theorem listFault?_eq_some_iff {extensions : List String} {error : Error} :
    listFault? extensions = some error ↔ ListFaulty extensions error := by
  unfold listFault?
  constructor
  · intro h
    split at h
    · rename_i hempty
      rw [List.isEmpty_iff.1 hempty, ← Option.some.inj h]
      exact .empty
    · rcases List.findSome?_eq_some_iff.1 h with ⟨before, extension, after, rfl, hfault, hbefore⟩
      exact .first (fun e he => fault?_eq_none_iff.1 (hbefore e he)) (fault?_eq_some_iff.1 hfault)
  · intro h
    cases h with
    | empty => rfl
    | @first before after extension _ hbefore h =>
      rw [if_neg (by simp)]
      refine List.findSome?_eq_some_iff.2 ⟨before, extension, after, rfl, ?_, ?_⟩
      · exact fault?_eq_some_iff.2 h
      · exact fun e he => fault?_eq_none_iff.2 (hbefore e he)

theorem isValidation_of_listFaulty {extensions : List String} {error : Error}
    (h : ListFaulty extensions error) : error.isValidation = true := by
  cases h with
  | empty => rfl
  | first _ h => cases h <;> rfl

end Extension

/-! ### Entries -/

namespace Entry

/-- The fault that an entry is charged with. One of its pattern comes before one of its
extensions. -/
inductive Faulty (entry : Entry) : Error → Prop
  | pattern {error : Error} (h : Pattern.Faulty entry.pattern.toList error) : Faulty entry error
  | extensions {error : Error} (hpattern : entry.pattern.toList ∈ Pattern.grammar)
      (h : Extension.ListFaulty entry.extensions error) : Faulty entry error

/-- What an analysis says of an entry. -/
structure Judged (entry : Entry) : Prop where
  accepted : (∃ analysis, analyze entry = .ok analysis) ↔
    entry.pattern.toList ∈ Pattern.grammar ∧ entry.extensions ≠ [] ∧
      ∀ extension ∈ entry.extensions, extension.toList ∈ Extension.grammar
  refused : ∀ error, analyze entry = .error error ↔ Faulty entry error
  validation : ∀ error, analyze entry = .error error → error.isValidation = true

/-- The faults of a pattern stand before those of the extensions. -/
theorem analyze_eq (entry : Entry) :
    analyze entry =
      match (Pattern.fault? entry.pattern.toList).or (Extension.listFault? entry.extensions) with
      | some fault => .error fault
      | none => .ok (.of entry.pattern entry.extensions) := by
  unfold analyze
  cases Pattern.fault? entry.pattern.toList with
  | some fault => rfl
  | none => cases Extension.listFault? entry.extensions <;> rfl

theorem analyze_eq_error_iff {entry : Entry} {error : Error} :
    analyze entry = .error error ↔ Faulty entry error := by
  have hiff : analyze entry = .error error ↔
      (Pattern.fault? entry.pattern.toList).or (Extension.listFault? entry.extensions) =
        some error := by
    rw [analyze_eq]
    generalize (Pattern.fault? entry.pattern.toList).or _ = fault
    cases fault <;> simp
  rw [hiff, Option.or_eq_some_iff]
  constructor
  · rintro (hpattern | ⟨hpattern, hextensions⟩)
    · exact .pattern (Pattern.fault?_eq_some_iff.1 hpattern)
    · exact .extensions (Pattern.fault?_eq_none_iff.1 hpattern)
        (Extension.listFault?_eq_some_iff.1 hextensions)
  · intro h
    cases h with
    | pattern h => exact .inl (Pattern.fault?_eq_some_iff.2 h)
    | extensions hpattern h =>
      exact .inr ⟨Pattern.fault?_eq_none_iff.2 hpattern, Extension.listFault?_eq_some_iff.2 h⟩

theorem exists_analyze_eq_ok_iff {entry : Entry} :
    (∃ analysis, analyze entry = .ok analysis) ↔
      entry.pattern.toList ∈ Pattern.grammar ∧ entry.extensions ≠ [] ∧
        ∀ extension ∈ entry.extensions, extension.toList ∈ Extension.grammar := by
  rw [← Pattern.fault?_eq_none_iff]
  simp only [← Extension.fault?_eq_none_iff]
  rw [← Extension.listFault?_eq_none_iff]
  constructor
  · rintro ⟨analysis, h⟩
    rcases faultless_of_analyze h with ⟨hpattern, hextensions, -⟩
    exact ⟨hpattern, hextensions⟩
  · rintro ⟨hpattern, hextensions⟩
    refine ⟨.of entry.pattern entry.extensions, ?_⟩
    rw [analyze_eq, hpattern, hextensions]
    rfl

/-- An analysis accepts the two grammars and nothing else, and what it refuses is charged with the
first of its faults. -/
theorem judged (entry : Entry) : Judged entry where
  accepted := exists_analyze_eq_ok_iff
  refused := fun _ => analyze_eq_error_iff
  validation := by
    intro error h
    cases analyze_eq_error_iff.1 h with
    | pattern h => exact Pattern.isValidation_of_faulty h
    | extensions _ h => exact Extension.isValidation_of_listFaulty h

end Entry

end NameHunt
