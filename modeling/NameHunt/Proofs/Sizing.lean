import NameHunt.Proofs.Generator
import NameHunt.Proofs.Pattern.Letters

/-!
# The size of a pattern

In how many ways one text can be taken from each segment is a number without a ceiling. The counts
of a pattern and of an entry are this number as far as they can hold it, and whether there is a
generator is up to this number and the strategy alone.

* `Pattern.parse_eq_nil_iff`: the empty text alone has no segments.
* `Pattern.Sized`: what the size of a pattern decides.
* `Pattern.sized`: it is the product of the alphabet sizes that decides it.
-/

namespace NameHunt.Pattern

theorem ofChars_eq_nil_iff {buffer text : List Char} :
    ofChars buffer text = [] ↔ buffer = [] ∧ text = [] := by
  induction text generalizing buffer with
  | nil => cases buffer <;> simp [ofChars, close]
  | cons c text ih =>
    rw [ofChars]
    split
    · simp
    · simp [ih]

/-- The empty text alone has no segments. -/
theorem parse_eq_nil_iff {s : String} : parse s = [] ↔ s = "" := by
  rw [parse, ofChars_eq_nil_iff, String.toList_eq_nil_iff]
  exact and_iff_right rfl

theorem size_eq_prod_alphabet (p : Pattern) :
    p.size = (p.map fun segment => segment.alphabet.length).prod := by
  simp only [size, Segment.length_alphabet]

/-- An analysis counts the texts, and the texts under every extension. There is at least one
extension, so the flag of the first count stays in the second one. -/
theorem domains_of_analyze {entry : Entry} {analysis : Analysis}
    (h : analyze entry = .ok analysis) :
    analysis.combinations = .clamp (parse entry.pattern).size ∧
      analysis.domains = .clamp ((parse entry.pattern).size * entry.extensions.length) := by
  obtain ⟨-, hextensions, rfl⟩ := faultless_of_analyze h
  have hne := (Extension.listFault?_eq_none_iff.1 hextensions).1
  refine ⟨count_eq_clamp _, ?_⟩
  show (parse entry.pattern).count.times entry.extensions.length = _
  rw [count_eq_clamp, Count.times_clamp (List.length_pos_iff.2 hne)]

/-- What the size of a pattern decides. -/
structure Sized (s : String) (size : Nat) : Prop where
  /-- The count is the size, or the ceiling with the flag. -/
  count : (parse s).count = if size ≤ 2 ^ 128 - 1 then ⟨size, false⟩ else ⟨2 ^ 128 - 1, true⟩
  /-- An entry that is accepted has its size under every extension. -/
  analysis : ∀ {entry : Entry} {analysis : Analysis}, entry.pattern = s →
    analyze entry = .ok analysis →
      analysis.combinations = (parse s).count ∧
      analysis.domains =
        if size * entry.extensions.length ≤ 2 ^ 128 - 1 then
          ⟨size * entry.extensions.length, false⟩
        else ⟨2 ^ 128 - 1, true⟩
  /-- A pattern is refused if its numbers cannot be ordered, whatever the words are. -/
  refused : ∀ (strategy : Strategy) (words : Words), strategy.bound < size →
    Generator.create (parse s) strategy words = .error (.patternTooLarge (parse s).describe)
  /-- Any other pattern has a generator, which visits as many numbers as the pattern has texts. -/
  created : ∀ (strategy : Strategy) (words : Words), size ≤ strategy.bound →
    ∃ g rest, Generator.create (parse s) strategy words = .ok (g, rest) ∧
      g.total = if s = "" then 0 else size

/-- The product of the alphabet sizes decides on the counts of a pattern and on its generators. -/
theorem sized (s : String) :
    Sized s ((parse s).map fun segment => segment.alphabet.length).prod := by
  rw [← size_eq_prod_alphabet]
  refine ⟨count_eq_clamp _, ?_, ?_, ?_⟩
  · rintro entry analysis rfl h
    obtain ⟨hcombinations, hdomains⟩ := domains_of_analyze h
    exact ⟨hcombinations.trans (count_eq_clamp _).symm, hdomains⟩
  · exact fun strategy words hlarge => Generator.create_of_bound_lt hlarge words
  · intro strategy words hsize
    obtain ⟨g, rest, hcreate⟩ := Generator.exists_create hsize words
    refine ⟨g, rest, hcreate, ?_⟩
    simp only [Generator.total_of_create hcreate, Generator.indexCount, List.isEmpty_iff,
      parse_eq_nil_iff]

/-- Seven wildcards are too many for a list and not for a permutation; with eighteen more of them
they are too many for a count. -/
theorem sized_wildcards :
    (∃ analysis, analyze ⟨"_________________________", [".com", ".io"], none⟩ = .ok analysis ∧
      analysis.combinations = ⟨2 ^ 128 - 1, true⟩ ∧ analysis.domains = ⟨2 ^ 128 - 1, true⟩) ∧
    Generator.create (parse "_______") .shuffle (Words.ofSeed #[] 1) =
      .error (.patternTooLarge "_______") ∧
    ∃ g rest, Generator.create (parse "_______") .auto (Words.ofSeed #[] 1) = .ok (g, rest) ∧
      g.total = 37 ^ 7 := by
  have hanalyze : analyze ⟨"_________________________", [".com", ".io"], none⟩ =
      .ok (Analysis.of "_________________________" [".com", ".io"]) := by decide +kernel
  have hlarge := sized "_________________________"
  obtain ⟨hcombinations, hdomains⟩ := hlarge.analysis rfl hanalyze
  have hseven := sized "_______"
  obtain ⟨g, rest, hcreate, htotal⟩ := hseven.created .auto (Words.ofSeed #[] 1) (by decide)
  refine ⟨⟨_, hanalyze, ?_, ?_⟩, ?_, g, rest, hcreate, htotal.trans (by decide)⟩
  · rw [hcombinations, hlarge.count]
    decide
  · rw [hdomains]
    decide
  · have hdescribe : (parse "_______").describe = "_______" := by decide
    rw [hseven.refused .shuffle (Words.ofSeed #[] 1) (by decide), hdescribe]

end NameHunt.Pattern
