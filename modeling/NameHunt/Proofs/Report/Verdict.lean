import NameHunt.Proofs.Domains
import NameHunt.Proofs.Sizing
import NameHunt.Report

/-!
# Which patterns are reported to be too large

The report on an entry says that its domains cannot be enumerated if their number passes the
ceiling. Whether they can is up to the number of its names: the extensions are gone through for each
name. So the report is wrong about the entries whose names can be counted and whose domains cannot.

* `Document.field?`: a field of a table.
* `Report.tooMany`, `Report.mem_analysis_iff`: the line that is printed about such an entry, and
  when it is.
* `Candidates.TooLarge`: the domains of an analysis cannot be enumerated.
* `Verdict`: what is reported of an entry, and what is true of it.
* `verdict`: that holds of every accepted entry.
-/

namespace NameHunt

/-- A field of a table. -/
def Document.field? (name : String) : Document → Option Document
  | .table fields => fields.lookup name
  | _ => none

namespace Report

/-- What is printed about an entry with too many domains. -/
def tooMany : Line :=
  toOutput "  count exceeds u128 and cannot be enumerated"

theorem field?_saturated (a : Analysis) :
    (analysisDocument a).field? "saturated" = some (.truth a.domains.saturated) := rfl

/-- The line stands in the report just if the count of the domains is flagged. The other lines do not
look like it, as long as the pattern does not begin with a blank. -/
theorem mem_analysis_iff {a : Analysis} {c : Char} {rest : List Char}
    (hpattern : a.pattern.toList = c :: rest) (hblank : c ≠ ' ') :
    tooMany ∈ analysis a ↔ a.domains.saturated = true := by
  have hsegments (segments : String) :
      tooMany ≠ toOutput (a.pattern ++ "  [" ++ segments ++ "]") := by
    intro h
    have hchar := congrArg (fun line => line.text.toList[0]?) h
    exact hblank (by simpa [tooMany, toOutput, hpattern] using hchar.symm)
  have hcombinations (count : String) : tooMany ≠ toOutput ("  combinations: " ++ count) := by
    intro h
    have hchar := congrArg (fun line => line.text.toList[4]?) h
    simp [tooMany, toOutput] at hchar
  have hdomains (count extensions : String) :
      tooMany ≠ toOutput ("  domains:      " ++ count ++ "  (" ++ extensions ++ ")") := by
    intro h
    have hchar := congrArg (fun line => line.text.toList[2]?) h
    simp [tooMany, toOutput] at hchar
  unfold analysis
  simp only [List.mem_append, List.mem_cons, List.not_mem_nil, hsegments, hcombinations, hdomains,
    false_or, or_false]
  cases a.domains.saturated with
  | true => exact iff_of_true (List.mem_singleton.2 rfl) rfl
  | false => exact iff_of_false List.not_mem_nil Bool.false_ne_true

end Report

/-! ### Whether the domains can be enumerated -/

/-- The domains of an analysis cannot be enumerated in the order that the words give. -/
def Candidates.TooLarge (analysis : Analysis) (words : Words) : Prop :=
  ∃ pattern, ofAnalysis analysis words = .error (.patternTooLarge pattern)

theorem Candidates.tooLarge_of_lt {analysis : Analysis}
    (h : Count.ceiling < analysis.segments.size) (words : Words) : TooLarge analysis words := by
  have hlarge : Strategy.auto.bound < analysis.segments.size := h
  exact ⟨_, by rw [ofAnalysis, Generator.create_of_bound_lt hlarge words]⟩

theorem Candidates.exists_ofAnalysis {analysis : Analysis}
    (h : analysis.segments.size ≤ Count.ceiling) (words : Words) :
    ∃ c rest, ofAnalysis analysis words = .ok (c, rest) := by
  have hsmall : analysis.segments.size ≤ Strategy.auto.bound := h
  obtain ⟨g, rest, hcreate⟩ := Generator.exists_create hsmall words
  exact ⟨_, rest, ofAnalysis_of_create hcreate⟩

theorem Candidates.tooLarge_iff {analysis : Analysis} {words : Words} :
    TooLarge analysis words ↔ Count.ceiling < analysis.segments.size := by
  refine ⟨fun ⟨pattern, herror⟩ => ?_, fun h => tooLarge_of_lt h words⟩
  by_contra hsmall
  obtain ⟨c, rest, hofAnalysis⟩ := exists_ofAnalysis (Nat.le_of_not_lt hsmall) words
  rw [hofAnalysis] at herror
  cases herror

/-- The report says that the domains cannot be enumerated just if this is so: in its document as
well as among its lines. -/
def Report.Truthful (analysis : Analysis) : Prop :=
  ∀ words,
    ((analysisDocument analysis).field? "saturated" = some (.truth true) ↔
      Candidates.TooLarge analysis words) ∧
    (tooMany ∈ Report.analysis analysis ↔ Candidates.TooLarge analysis words)

/-! ### What is reported -/

section

variable {entry : Entry} {analysis : Analysis} (h : analyze entry = .ok analysis)

include h

/-- An accepted pattern begins with a character, and that is no blank. -/
theorem exists_first_of_analyze : ∃ c rest, analysis.pattern.toList = c :: rest ∧ c ≠ ' ' := by
  obtain ⟨hpattern, -, rfl⟩ := faultless_of_analyze h
  show ∃ c rest, entry.pattern.toList = c :: rest ∧ c ≠ ' '
  generalize entry.pattern.toList = text at hpattern
  cases text with
  | nil => cases hpattern
  | cons c rest =>
    refine ⟨c, rest, rfl, ?_⟩
    rintro rfl
    exact absurd (Pattern.isPatternChar_of_fault? hpattern ' ' List.mem_cons_self) (by decide)

theorem extensions_pos_of_analyze : 0 < analysis.extensions.length := by
  obtain ⟨-, hextensions, rfl⟩ := faultless_of_analyze h
  exact List.length_pos_iff.2 (Extension.listFault?_eq_none_iff.1 hextensions).1

theorem saturated_domains_of_analyze : analysis.domains.saturated =
    decide (Count.ceiling < analysis.segments.size * analysis.extensions.length) := by
  rw [(Pattern.domains_of_analyze h).2, Count.saturated_clamp, (faultless_of_analyze h).2.2]
  rfl

end

/-- What is reported of an entry, and what is true of it. -/
structure Verdict (analysis : Analysis) : Prop where
  flag_iff : (Report.analysisDocument analysis).field? "saturated" = some (.truth true) ↔
    Count.ceiling < analysis.segments.size * analysis.extensions.length
  line_iff : Report.tooMany ∈ Report.analysis analysis ↔
    Count.ceiling < analysis.segments.size * analysis.extensions.length
  tooLarge_iff : ∀ words,
    Candidates.TooLarge analysis words ↔ Count.ceiling < analysis.segments.size
  /-- What is not too large can be enumerated. -/
  enumerable : analysis.segments.size ≤ Count.ceiling →
    ∀ words, ∃ c rest, Candidates.ofAnalysis analysis words = .ok (c, rest)
  /-- The report is right unless the names can be counted and the domains cannot. -/
  truthful_iff : Report.Truthful analysis ↔ ¬ (analysis.segments.size ≤ Count.ceiling ∧
    Count.ceiling < analysis.segments.size * analysis.extensions.length)

/-- The report on an accepted entry goes by the number of its domains, while it is the number of its
names that decides whether the domains can be enumerated. -/
theorem verdict {entry : Entry} {analysis : Analysis} (h : analyze entry = .ok analysis) :
    Verdict analysis := by
  have hdomains := saturated_domains_of_analyze h
  have hflag : (Report.analysisDocument analysis).field? "saturated" = some (.truth true) ↔
      Count.ceiling < analysis.segments.size * analysis.extensions.length := by
    rw [Report.field?_saturated, hdomains]
    simp
  have hline : Report.tooMany ∈ Report.analysis analysis ↔
      Count.ceiling < analysis.segments.size * analysis.extensions.length := by
    obtain ⟨c, rest, hpattern, hblank⟩ := exists_first_of_analyze h
    rw [Report.mem_analysis_iff hpattern hblank, hdomains, decide_eq_true_iff]
  refine ⟨hflag, hline, fun words => Candidates.tooLarge_iff,
    fun hsize words => Candidates.exists_ofAnalysis hsize words, ?_⟩
  have hmore := Nat.le_mul_of_pos_right analysis.segments.size (extensions_pos_of_analyze h)
  have hwords : Nonempty Words := ⟨⟨fun _ => 0, 0⟩⟩
  simp only [Report.Truthful, hflag, hline, Candidates.tooLarge_iff, and_self, forall_const]
  omega

/-- Twenty-four wildcards under eight extensions. -/
def wildcards : Entry where
  pattern := "________________________"
  extensions := [".a", ".b", ".c", ".d", ".e", ".f", ".g", ".h"]

theorem analyze_wildcards :
    analyze wildcards = .ok (Analysis.of wildcards.pattern wildcards.extensions) := by
  decide +kernel

/-- There are fewer names than the ceiling and more domains. -/
theorem verdict_wildcards :
    analyze wildcards = .ok (Analysis.of wildcards.pattern wildcards.extensions) ∧
      Verdict (Analysis.of wildcards.pattern wildcards.extensions) :=
  ⟨analyze_wildcards, verdict analyze_wildcards⟩

/-- They are reported to be too many to be enumerated, and can be enumerated all the same. -/
theorem not_truthful_wildcards :
    ∃ analysis, analyze wildcards = .ok analysis ∧ ¬ Report.Truthful analysis := by
  refine ⟨_, analyze_wildcards, fun htruthful => ?_⟩
  let words : Words := ⟨fun _ => 0, 0⟩
  have hsize : (Analysis.of wildcards.pattern wildcards.extensions).segments.size ≤
      Count.ceiling := by decide +kernel
  have hflagged : (Analysis.of wildcards.pattern wildcards.extensions).domains.saturated = true := by
    decide +kernel
  obtain ⟨c, rest, hofAnalysis⟩ := Candidates.exists_ofAnalysis hsize words
  obtain ⟨pattern, herror⟩ := (htruthful words).1.1 (by rw [Report.field?_saturated, hflagged])
  rw [hofAnalysis] at herror
  cases herror

end NameHunt
