import NameHunt.Candidates
import NameHunt.Proofs.Generator

/-!
# The domains of an analysis

All domains that an analysis gives: its names that are candidates, each under every extension. The
order of the names is up to the words, the domains are not.

* `Candidates.toList_eq`: the domains to come, name by name.
* `Candidates.exists_toList_eq`: they may be any domains.
* `Candidates.toList_perm_of_ofAnalysis`: the domains do not depend on the words.
-/

namespace NameHunt.Candidates

/-- The next domain is the first of those to come. -/
theorem next?_of_toList_eq_cons {c : Candidates} {domain : String} {rest : List String}
    (h : c.toList = domain :: rest) :
    ∃ c', c.next? = some (domain, c') ∧ c'.toList = rest := by
  cases hnext : c.next? with
  | none => simp [toList_of_next?_none hnext] at h
  | some found =>
    obtain ⟨domain', c'⟩ := found
    rw [toList_of_next? hnext] at h
    obtain ⟨rfl, rfl⟩ := List.cons.inj h
    exact ⟨c', rfl, rfl⟩

/-- The names of a generator that are candidates. -/
def bases (g : Generator) : List String :=
  g.toList.filter fun name => isCandidate name.toList

theorem bases_of_next {g g' : Generator} {name : String} (h : g.next = (some name, g')) :
    bases g = if isCandidate name.toList then name :: bases g' else bases g' := by
  rw [bases, Generator.toList_of_next h, List.filter_cons]
  rfl

/-- The next base is the first name that is a candidate. -/
theorem bases_eq (g : Generator) :
    bases g =
      match nextBase g with
      | some (base, g') => base :: bases g'
      | none => [] := by
  fun_induction nextBase g with
  | case1 g name g' hnext hcandidate => rw [bases_of_next hnext, if_pos hcandidate]
  | case2 g name g' hnext hcandidate ih => rw [bases_of_next hnext, if_neg hcandidate, ih]
  | case3 g g' hnext => rw [bases, Generator.toList_of_next_none hnext, List.filter_nil]

/-- A name under every extension. -/
def expand (extensions : List String) (base : String) : List String :=
  extensions.map (base ++ ·)

/-- The domains to come: those of the newest name under the extensions that are left, then those
of the names still to come. -/
theorem toList_eq (c : Candidates) :
    c.toList = expand c.pending c.base ++ (bases c.generator).flatMap (expand c.extensions) := by
  fun_induction toList c with
  | case1 c domain c' hnext ih =>
    rw [ih]
    unfold next? at hnext
    split at hnext
    · rename_i extension rest _ hpending
      obtain ⟨rfl, rfl⟩ := Prod.mk.inj (Option.some.inj hnext)
      rw [hpending]
      rfl
    · cases hnext
    · rename_i extension rest hpending hextensions
      split at hnext
      · rename_i base generator hbase
        obtain ⟨rfl, rfl⟩ := Prod.mk.inj (Option.some.inj hnext)
        rw [bases_eq c.generator, hbase, hpending]
        simp only [List.flatMap_cons, hextensions]
        rfl
      · cases hnext
  | case2 c hnext =>
    unfold next? at hnext
    split at hnext
    · cases hnext
    · rename_i hpending hextensions
      simp [expand, hpending, hextensions]
    · rename_i extension rest hpending hextensions
      split at hnext
      · cases hnext
      · rename_i hbase
        rw [bases_eq c.generator, hbase, hpending]
        rfl

/-- Any list of domains may be to come. -/
theorem exists_toList_eq (domains : List String) : ∃ c : Candidates, c.toList = domains := by
  refine ⟨⟨⟨[], .listed #[], 0⟩, [], "", domains⟩, ?_⟩
  rw [toList_eq]
  simp [expand]

/-- Whether an analysis is too large is not up to the words. -/
theorem ofAnalysis_error {analysis : Analysis} {words : Words} {error : Error}
    (h : ofAnalysis analysis words = .error error) (words' : Words) :
    ofAnalysis analysis words' = .error error := by
  unfold ofAnalysis at h ⊢
  split at h
  · cases h
  · rename_i found hcreate
    rw [Generator.create_error hcreate words']
    exact h

/-- The domains that the numbers of an analysis spell, in the order of the numbers. -/
def spelled (analysis : Analysis) : List String :=
  (((List.range (Generator.indexCount analysis.segments analysis.segments.size)).filterMap
    (spell analysis.segments)).filter fun name => isCandidate name.toList).flatMap
      (expand analysis.extensions)

/-- The domains start with the first name of a new generator. -/
theorem exists_create_of_ofAnalysis {analysis : Analysis} {words rest : Words} {c : Candidates}
    (h : ofAnalysis analysis words = .ok (c, rest)) :
    ∃ g, Generator.create analysis.segments .auto words = .ok (g, rest) ∧
      c = ⟨g, analysis.extensions, "", []⟩ := by
  unfold ofAnalysis at h
  split at h
  · rename_i g words' hcreate
    cases h
    exact ⟨g, hcreate, rfl⟩
  · cases h

theorem toList_perm_spelled {analysis : Analysis} {words rest : Words} {c : Candidates}
    (h : ofAnalysis analysis words = .ok (c, rest)) : c.toList.Perm (spelled analysis) := by
  obtain ⟨g, hcreate, rfl⟩ := exists_create_of_ofAnalysis h
  obtain ⟨hpattern, hstart, hcovers⟩ := Generator.covers_of_create hcreate
  have hnames := Generator.toList_perm_spelled hstart hcovers
  rw [hpattern] at hnames
  rw [toList_eq]
  exact (hnames.filter _).flatMap_right _

/-- The words decide on nothing but the order of the domains. -/
theorem toList_perm_of_ofAnalysis {analysis : Analysis} {words rest words' rest' : Words}
    {c c' : Candidates} (h : ofAnalysis analysis words = .ok (c, rest))
    (h' : ofAnalysis analysis words' = .ok (c', rest')) : c.toList.Perm c'.toList :=
  (toList_perm_spelled h).trans (toList_perm_spelled h').symm

end NameHunt.Candidates
