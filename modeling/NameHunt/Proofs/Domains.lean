import NameHunt.Proofs.Candidates
import NameHunt.Proofs.Pattern.Letters

/-!
# The domains of accepted entries

The domains of an entry are its names under its extensions. Which of the names are used is up to
the pattern as a whole: all of them, or none if the pattern begins with a digit. The dot tells where
a name ends, so a domain is there as often as its extension is given.

* `Pattern.isCandidate_of_mem_names`: all names are used or none.
* `count_flatMap_expand`: how often a domain is there.
* `Hostname`: the form of a domain.
* `Spread`: names under extensions.
* `analyzed_spread`: the domains of an accepted entry.
-/

namespace NameHunt

open Extension (isExtensionChar)

/-! ### Which names are used -/

namespace Pattern

/-- Whether the first segment is a literal that begins with a digit. -/
def opensWithDigit : Pattern → Bool
  | .literal (c :: _) :: _ => c.isDigit
  | _ => false

/-- A name neither starts nor ends with a hyphen, so its first digit alone decides. -/
theorem IsName.isCandidate {p : Pattern} {c : Char} {text : List Char}
    (h : IsName p (c :: text)) : isCandidate (c :: text) = !c.isDigit := by
  have hfirst : c ≠ '-' := fun heq => h.no_hyphen_first (congrArg some heq)
  have hlast : ((c :: text).getLast? != some '-') = true := bne_iff_ne.2 h.no_hyphen_last
  simp only [NameHunt.isCandidate, bne_iff_ne.2 hfirst, hlast, Bool.true_and, Bool.and_true]

/-- All names of a plain pattern are used, or none if it begins with a digit. -/
theorem isCandidate_of_mem_names {p : Pattern} (hp : p.Plain) {name : String}
    (h : name ∈ p.names) : isCandidate name.toList = !p.opensWithDigit := by
  obtain ⟨hne, htext, hname⟩ := mem_names.1 h
  generalize name.toList = text at htext hname
  cases p with
  | nil => exact absurd rfl hne
  | cons s rest =>
    simp only [texts, List.mem_flatMap, List.mem_map] at htext
    obtain ⟨after, -, piece, hpiece, rfl⟩ := htext
    cases s with
    | literal literal =>
      obtain rfl := List.mem_singleton.1 hpiece
      obtain ⟨c, literal, rfl⟩ := List.exists_cons_of_ne_nil hp.head.1
      exact hname.isCandidate
    | choice token =>
      obtain ⟨c, -, rfl⟩ := List.mem_map.1 hpiece
      -- The digit was refused when the name was spelled.
      obtain hopens | hdigit := hname.no_digit_first
      · cases hopens
      · rw [List.singleton_append] at hname
        rw [List.singleton_append, hname.isCandidate, hdigit c rfl]
        rfl

end Pattern

/-- The names that are generated are those of the pattern. -/
theorem Generator.toList_perm_names {p : Pattern} (hp : p.Plain) {strategy : Strategy}
    {words rest : Words} {g : Generator} (h : create p strategy words = .ok (g, rest)) :
    g.toList.Perm p.names := by
  obtain ⟨hpattern, hstart, hcovers⟩ := covers_of_create h
  have hperm := toList_perm_spelled hstart hcovers
  rwa [hpattern, ← names_eq_filterMap_spell hp] at hperm

/-! ### Names under extensions -/

/-- A text with a dot in front and none behind it. -/
def Dotted (extension : String) : Prop :=
  ∃ label, extension.toList = '.' :: label ∧ '.' ∉ label

/-- Of two equal texts neither name is longer, or its rest would hold the other dot. -/
theorem eq_of_append_dot {a b x y : List Char} (hx : '.' ∉ x)
    (h : a ++ '.' :: x = b ++ '.' :: y) (hshort : a <+: b) : a = b := by
  obtain ⟨more, rfl⟩ := hshort
  rw [List.append_assoc, List.append_cancel_left_eq] at h
  cases more with
  | nil => rw [List.append_nil]
  | cons c more =>
    obtain ⟨-, rfl⟩ := List.cons.inj h
    exact absurd (List.mem_append_right more List.mem_cons_self) hx

/-- The last dot tells where the name ends. -/
theorem append_dotted_inj {base base' extension extension' : String} (h : Dotted extension)
    (h' : Dotted extension') (heq : base ++ extension = base' ++ extension') :
    base = base' ∧ extension = extension' := by
  obtain ⟨label, htext, hlabel⟩ := h
  obtain ⟨label', htext', hlabel'⟩ := h'
  have hchars := congrArg String.toList heq
  rw [String.toList_append, String.toList_append, htext, htext'] at hchars
  have hbase : base = base' := by
    apply String.toList_inj.1
    obtain hshort | hshort := List.prefix_or_prefix_of_prefix
      (List.prefix_append base.toList ('.' :: label))
      (hchars ▸ List.prefix_append base'.toList ('.' :: label'))
    · exact eq_of_append_dot hlabel hchars hshort
    · exact (eq_of_append_dot hlabel' hchars.symm hshort).symm
  subst hbase
  exact ⟨rfl, (String.append_right_inj base).1 heq⟩

open Candidates (expand)

theorem count_expand {extensions : List String} (hdotted : ∀ e ∈ extensions, Dotted e)
    (base base' : String) {extension : String} (h : extension ∈ extensions) :
    (expand extensions base').count (base ++ extension) =
      if base' = base then extensions.count extension else 0 := by
  by_cases hsame : base' = base
  · subst hsame
    rw [if_pos rfl, expand]
    exact List.count_map_of_injective _ _ (fun e e' => (String.append_right_inj base').1) _
  · rw [if_neg hsame, List.count_eq_zero]
    intro hmem
    obtain ⟨e, he, heq⟩ := List.mem_map.1 hmem
    exact hsame (append_dotted_inj (hdotted e he) (hdotted extension h) heq).1

/-- A domain is there as often as its extension is given, if its name is there. -/
theorem count_flatMap_expand {extensions : List String} (hdotted : ∀ e ∈ extensions, Dotted e)
    {bases : List String} (hbases : bases.Nodup) (base : String) {extension : String}
    (h : extension ∈ extensions) :
    (bases.flatMap (expand extensions)).count (base ++ extension) =
      if base ∈ bases then extensions.count extension else 0 := by
  induction bases with
  | nil => rfl
  | cons first bases ih =>
    obtain ⟨hfirst, hrest⟩ := List.nodup_cons.1 hbases
    rw [List.flatMap_cons, List.count_append, count_expand hdotted base first h, ih hrest]
    by_cases hsame : first = base
    · subst hsame
      simp [hfirst]
    · simp [hsame, Ne.symm hsame]

theorem mem_flatMap_expand {extensions bases : List String} {domain : String} :
    domain ∈ bases.flatMap (expand extensions) ↔
      ∃ base ∈ bases, ∃ extension ∈ extensions, domain = base ++ extension := by
  simp [expand, eq_comm]

theorem nodup_flatMap_expand {extensions : List String} (hdotted : ∀ e ∈ extensions, Dotted e)
    (hextensions : extensions.Nodup) {bases : List String} (hbases : bases.Nodup) :
    (bases.flatMap (expand extensions)).Nodup := by
  rw [List.nodup_iff_count_le_one]
  intro domain
  by_cases hmem : domain ∈ bases.flatMap (expand extensions)
  · obtain ⟨base, hbase, extension, hextension, rfl⟩ := mem_flatMap_expand.1 hmem
    rw [count_flatMap_expand hdotted hbases base hextension, if_pos hbase]
    exact List.nodup_iff_count_le_one.1 hextensions extension
  · rw [List.count_eq_zero.2 hmem]
    exact Nat.zero_le 1

theorem length_flatMap_expand (extensions bases : List String) :
    (bases.flatMap (expand extensions)).length = bases.length * extensions.length := by
  simp [List.length_flatMap, expand]

/-! ### The form of domains -/

/-- A name and a label with a dot between them. The name starts with a small letter, goes on with
small letters, digits and hyphens, holds no two hyphens in a row and does not end with one. The
label is not empty and holds small letters and digits. -/
structure Hostname (name label : List Char) : Prop where
  first : ∃ c ∈ name.head?, c.isLower = true
  name_chars : ∀ c ∈ name, c.isLower = true ∨ c.isDigit = true ∨ c = '-'
  no_double_hyphen : ¬ ['-', '-'] <:+: name
  no_hyphen_last : name.getLast? ≠ some '-'
  label_ne_nil : label ≠ []
  label_chars : ∀ c ∈ label, c.isLower = true ∨ c.isDigit = true

theorem isLower_or_isDigit {c : Char} (h : isExtensionChar c = true) :
    c.isLower = true ∨ c.isDigit = true := by
  simpa [isExtensionChar] using h

/-- A name that is used, under an extension without a fault, is a domain. -/
theorem hostname_of_mem_names {p : Pattern} (hsmall : p.Small) {name : String}
    (h : name ∈ p.names) (hcandidate : isCandidate name.toList = true) {label : List Char}
    (hlabel : label ≠ []) (hchars : ∀ c ∈ label, isExtensionChar c = true) :
    Hostname name.toList label := by
  obtain ⟨-, htext, hname⟩ := Pattern.mem_names.1 h
  have hspelled := hsmall.chars_of_mem_texts htext
  refine ⟨?_, ?_, hname.no_double_hyphen, hname.no_hyphen_last, hlabel,
    fun c hc => isLower_or_isDigit (hchars c hc)⟩
  · generalize name.toList = text at hname hcandidate hspelled
    cases text with
    | nil => cases hcandidate
    | cons c text =>
      rw [hname.isCandidate, Bool.not_eq_true'] at hcandidate
      refine ⟨c, rfl, ?_⟩
      obtain hchar | rfl := hspelled c List.mem_cons_self
      · simpa [hcandidate] using isLower_or_isDigit hchar
      · exact absurd rfl hname.no_hyphen_first
  · intro c hc
    obtain hchar | rfl := hspelled c hc
    · exact (isLower_or_isDigit hchar).imp_right .inl
    · exact .inr (.inr rfl)

/-! ### The domains of an entry -/

/-- The domains that come from the names of a pattern and from the extensions of an entry. -/
structure Spread (extensions : List String) (analysis : Analysis) (names domains : List String) :
    Prop where
  /-- The domains are the names that are used, under the extensions. -/
  mem_iff : ∀ domain, domain ∈ domains ↔
    ∃ name ∈ names, isCandidate name.toList = true ∧
      ∃ extension ∈ extensions, domain = name ++ extension
  /-- Each is there as often as its extension is given. -/
  count_eq : ∀ name, ∀ extension ∈ extensions, domains.count (name ++ extension) =
    if name ∈ names ∧ isCandidate name.toList = true then extensions.count extension else 0
  nodup : extensions.Nodup → domains.Nodup
  length_le : domains.length ≤ analysis.combinations.value * extensions.length
  hostname : ∀ domain ∈ domains, ∃ name label,
    domain.toList = name ++ '.' :: label ∧ Hostname name label
  /-- All names are used, or none if the pattern begins with a digit. -/
  all_or_none : ∀ name ∈ names, isCandidate name.toList = !analysis.segments.opensWithDigit

/-- A count that is not flagged is the size of the pattern. -/
theorem Pattern.count_eq_size {p : Pattern} (h : p.count.saturated = false) :
    p.size ≤ Count.ceiling ∧ p.count.value = p.size := by
  rw [count_eq_clamp] at h ⊢
  by_cases hsize : p.size ≤ Count.ceiling
  · rw [Count.clamp_of_le hsize]
    exact ⟨hsize, rfl⟩
  · rw [Count.clamp_of_lt (Nat.lt_of_not_le hsize)] at h
    cases h

/-- A pattern whose count is not flagged has a generator. -/
theorem Generator.exists_create_auto {p : Pattern} (h : p.count.saturated = false)
    (words : Words) : ∃ g rest, create p .auto words = .ok (g, rest) :=
  exists_create (Pattern.count_eq_size h).1 words

/-- A generator gives no more names than the pattern has combinations. -/
theorem Generator.length_toList_le {p : Pattern} {strategy : Strategy} {words rest : Words}
    {g : Generator} (h : create p strategy words = .ok (g, rest)) : g.toList.length ≤ p.size := by
  obtain ⟨-, hstart, hcovers⟩ := covers_of_create h
  rw [(toList_perm_spelled hstart hcovers).length_eq]
  refine (List.length_filterMap_le _ _).trans ?_
  rw [List.length_range]
  exact indexCount_le p p.size

theorem Candidates.ofAnalysis_of_create {analysis : Analysis} {words rest : Words} {g : Generator}
    (h : Generator.create analysis.segments .auto words = .ok (g, rest)) :
    ofAnalysis analysis words = .ok (⟨g, analysis.extensions, "", []⟩, rest) := by
  simp only [ofAnalysis, h]

/-- An extension without a fault has no dot but the one in front. -/
theorem Extension.dotted {extension : String} (h : fault? extension = none) : Dotted extension := by
  obtain ⟨label, htext, -, hchars⟩ := exists_label h
  exact ⟨label, htext, fun hdot => absurd (hchars '.' hdot) (by decide)⟩

/-- The names of a pattern, in any order, under extensions without a fault. -/
theorem spread_of_perm_names {analysis : Analysis} (hplain : analysis.segments.Plain)
    (hsmall : analysis.segments.Small) {extensions : List String}
    (hextensions : ∀ extension ∈ extensions, Extension.fault? extension = none)
    {names : List String} (hperm : names.Perm analysis.segments.names)
    (hlength : names.length ≤ analysis.combinations.value) :
    Spread extensions analysis names
      ((names.filter fun name => isCandidate name.toList).flatMap (expand extensions)) := by
  have hdotted : ∀ e ∈ extensions, Dotted e := fun e he => Extension.dotted (hextensions e he)
  have hused : (names.filter fun name => isCandidate name.toList).Nodup :=
    (hperm.nodup_iff.2 (Pattern.nodup_names _)).filter _
  refine ⟨?_, ?_, ?_, ?_, ?_, ?_⟩
  · intro domain
    simp only [mem_flatMap_expand, List.mem_filter, and_assoc]
  · intro name extension hextension
    simp only [count_flatMap_expand hdotted hused name hextension, List.mem_filter]
  · exact fun hdistinct => nodup_flatMap_expand hdotted hdistinct hused
  · rw [length_flatMap_expand]
    exact Nat.mul_le_mul_right _ ((List.length_filter_le _ _).trans hlength)
  · intro domain hdomain
    obtain ⟨name, hname, extension, hextension, rfl⟩ := mem_flatMap_expand.1 hdomain
    obtain ⟨label, htext, hne, hchars⟩ := Extension.exists_label (hextensions extension hextension)
    obtain ⟨hgiven, hcandidate⟩ := List.mem_filter.1 hname
    refine ⟨name.toList, label, by rw [String.toList_append, htext], ?_⟩
    exact hostname_of_mem_names hsmall (hperm.mem_iff.1 hgiven) hcandidate hne hchars
  · exact fun name hname => Pattern.isCandidate_of_mem_names hplain (hperm.mem_iff.1 hname)

/-- An accepted entry whose count is not flagged has its domains in every order: its names that are
used, under its extensions. -/
theorem analyzed_spread {entry : Entry} {analysis : Analysis} (h : analyze entry = .ok analysis)
    (hexact : analysis.combinations.saturated = false) (words : Words) :
    ∃ g c rest, Generator.create analysis.segments .auto words = .ok (g, rest) ∧
      Candidates.ofAnalysis analysis words = .ok (c, rest) ∧
      Spread entry.extensions analysis g.toList c.toList := by
  obtain ⟨hpattern, hextensions, rfl⟩ := analyze_eq_ok h
  obtain ⟨g, rest, hcreate⟩ := Generator.exists_create_auto hexact words
  have hplain := Pattern.plain_parse entry.pattern
  have hperm := Generator.toList_perm_names hplain hcreate
  have hlength : g.toList.length ≤ (Pattern.parse entry.pattern).count.value :=
    (Generator.length_toList_le hcreate).trans_eq (Pattern.count_eq_size hexact).2.symm
  refine ⟨g, _, rest, hcreate, Candidates.ofAnalysis_of_create hcreate, ?_⟩
  rw [Candidates.toList_eq]
  exact spread_of_perm_names hplain (Pattern.small_parse hpattern) hextensions hperm hlength

/-- Five names under three extensions, of which two are the same. -/
def vowels : Entry where
  pattern := "Xv"
  extensions := [".com", ".io", ".com"]

/-- Every name is used, and a domain is there twice where its extension is. -/
theorem spread_vowels :
    ∃ analysis g c rest, analyze vowels = .ok analysis ∧ analysis.combinations.saturated = false ∧
      Generator.create analysis.segments .auto (Words.ofSeed #[] 1) = .ok (g, rest) ∧
      Candidates.ofAnalysis analysis (Words.ofSeed #[] 1) = .ok (c, rest) ∧
      Spread vowels.extensions analysis g.toList c.toList ∧
      c.toList.count "xa.com" = 2 ∧ c.toList.count "xa.io" = 1 := by
  have hanalyze : analyze vowels = .ok (Analysis.of "Xv" [".com", ".io", ".com"]) := by decide
  have hexact : (Analysis.of "Xv" [".com", ".io", ".com"]).combinations.saturated = false := by
    decide
  obtain ⟨g, c, rest, hcreate, hofAnalysis, hspread⟩ :=
    analyzed_spread hanalyze hexact (Words.ofSeed #[] 1)
  have hname : "xa" ∈ g.toList ∧ isCandidate "xa".toList = true :=
    ⟨(Generator.toList_perm_names (Pattern.plain_parse "Xv") hcreate).mem_iff.2 (by decide),
      by decide⟩
  refine ⟨_, g, c, rest, hanalyze, hexact, hcreate, hofAnalysis, hspread, ?_, ?_⟩
  · exact (hspread.count_eq "xa" ".com" (by decide)).trans (if_pos hname)
  · exact (hspread.count_eq "xa" ".io" (by decide)).trans (if_pos hname)

end NameHunt
