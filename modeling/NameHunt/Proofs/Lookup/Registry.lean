import NameHunt.Lookup.Registry
import NameHunt.Proofs.Domains
import NameHunt.Proofs.Pattern.Tokens
import NameHunt.Proofs.Text.Padding

/-!
# Where domains are looked up

The registry of a domain is told by what stands after its last dot. A domain of an accepted entry
ends with an extension, which has a dot in front and none behind it, and there is a name before the
extension. So the domain is looked up at the registry of its extension. A text whose last dot does
not have something on both sides is looked up nowhere.

* `Text.cutAtLast_eq_some_iff`: the two sides of the last separator.
* `Registry.Qualified`: a text with something on both sides of its last dot.
* `Registry.topLevel_cases`, `Registry.url_eq`: the top-level domain of a text, and where it is
  looked up.
* `Registry.qualified_of_mem`: the domains of an entry have both sides.
* `Registry.Reached`, `Registry.reached`: where texts and the domains of an entry are looked up.
-/

namespace NameHunt

namespace Text

theorem cutAtLast_eq_some_iff {sep : Char} {s before after : List Char} :
    cutAtLast sep s = some (before, after) ↔ s = before ++ sep :: after ∧ sep ∉ after := by
  rw [cutAtLast, Option.map_eq_some_iff]
  constructor
  · rintro ⟨⟨back, front⟩, hcut, hsides⟩
    obtain ⟨rfl, rfl⟩ := Prod.mk.inj hsides
    obtain ⟨hs, hback⟩ := cutAt_eq_some_iff.1 hcut
    refine ⟨?_, by rwa [List.mem_reverse]⟩
    rw [← List.reverse_reverse s, hs]
    simp
  · rintro ⟨rfl, hafter⟩
    refine ⟨(after.reverse, before.reverse), cutAt_eq_some_iff.2 ⟨?_, ?_⟩, ?_⟩
    · simp
    · rwa [List.mem_reverse]
    · simp

/-- Small letters and digits are small already. -/
theorem lower_of_isExtensionChar {s : List Char}
    (h : ∀ c ∈ s, Extension.isExtensionChar c = true) : lower s = s := by
  have hascii : ∀ c ∈ s, c.toNat < 0x80 := by
    intro c hc
    have hrange := isExtensionChar_iff.1 (h c hc)
    omega
  rw [lower_of_ascii hascii]
  refine map_toLower_eq_self fun c hc => ?_
  have hrange := isExtensionChar_iff.1 (h c hc)
  rw [← Bool.not_eq_true, isUpper_iff]
  omega

end Text

namespace Registry

/-! ### The last dot -/

/-- A text with something on both sides of its last dot. -/
structure Qualified (domain : String) (name label : List Char) : Prop where
  text : domain.toList = name ++ '.' :: label
  last : '.' ∉ label
  name_ne_nil : name ≠ []
  label_ne_nil : label ≠ []

/-- What is said about any other text. -/
def unqualified (domain : String) : Error :=
  .internal ("'" ++ domain ++ "' is not a fully qualified domain")

theorem Qualified.cutAtLast {domain : String} {name label : List Char}
    (h : Qualified domain name label) : Text.cutAtLast '.' domain.toList = some (name, label) :=
  Text.cutAtLast_eq_some_iff.2 ⟨h.text, h.last⟩

/-- What stands after the last dot is the top-level domain if something stands before it, too. -/
theorem topLevel_cases (domain : String) :
    (∃ name label, Qualified domain name label ∧
      topLevel domain = .ok (String.ofList (Text.lower label))) ∨
    (¬ ∃ name label, Qualified domain name label) ∧
      topLevel domain = .error (unqualified domain) := by
  unfold topLevel
  split
  · rename_i c name d label hcut
    obtain ⟨htext, hlast⟩ := Text.cutAtLast_eq_some_iff.1 hcut
    exact .inl ⟨c :: name, d :: label,
      ⟨htext, hlast, List.cons_ne_nil c name, List.cons_ne_nil d label⟩, rfl⟩
  · rename_i hnot
    refine .inr ⟨?_, rfl⟩
    rintro ⟨name, label, h⟩
    obtain ⟨c, name, rfl⟩ := List.exists_cons_of_ne_nil h.name_ne_nil
    obtain ⟨d, label, rfl⟩ := List.exists_cons_of_ne_nil h.label_ne_nil
    exact hnot c name d label h.cutAtLast

theorem topLevel_of_qualified {domain : String} {name label : List Char}
    (h : Qualified domain name label) :
    topLevel domain = .ok (String.ofList (Text.lower label)) := by
  obtain ⟨name', label', h', htop⟩ | ⟨hnot, -⟩ := topLevel_cases domain
  · obtain ⟨-, rfl⟩ := Prod.mk.inj (Option.some.inj (h.cutAtLast.symm.trans h'.cutAtLast))
    exact htop
  · exact absurd ⟨name, label, h⟩ hnot

theorem topLevel_eq_ok_iff {domain last : String} :
    topLevel domain = .ok last ↔
      ∃ name label, Qualified domain name label ∧ last = String.ofList (Text.lower label) := by
  constructor
  · intro h
    obtain ⟨name, label, hqualified, htop⟩ | ⟨-, herror⟩ := topLevel_cases domain
    · exact ⟨name, label, hqualified, Except.ok.inj (h.symm.trans htop)⟩
    · rw [herror] at h
      cases h
  · rintro ⟨name, label, hqualified, rfl⟩
    exact topLevel_of_qualified hqualified

/-- A domain is looked up at the address of its top-level domain. -/
theorem url_eq (domain : String) :
    url domain = (topLevel domain).map fun last => address last ++ domain := by
  unfold url
  cases topLevel domain <;> rfl

/-- A text has an address exactly when it has a top-level domain. -/
theorem url_eq_ok_iff_topLevel {domain text : String} :
    url domain = .ok text ↔ ∃ last, topLevel domain = .ok last ∧ text = address last ++ domain := by
  rw [url_eq]
  cases topLevel domain with
  | error fault => simp [Except.map]
  | ok last => simp [Except.map, eq_comm]

theorem url_eq_ok_iff {domain text : String} :
    url domain = .ok text ↔ ∃ name label, Qualified domain name label ∧
      text = address (String.ofList (Text.lower label)) ++ domain := by
  rw [url_eq_ok_iff_topLevel]
  constructor
  · rintro ⟨last, htop, rfl⟩
    obtain ⟨name, label, hqualified, rfl⟩ := topLevel_eq_ok_iff.1 htop
    exact ⟨name, label, hqualified, rfl⟩
  · rintro ⟨name, label, hqualified, rfl⟩
    exact ⟨_, topLevel_of_qualified hqualified, rfl⟩

theorem topLevel_of_not_qualified {domain : String}
    (hnot : ¬ ∃ name label, Qualified domain name label) :
    topLevel domain = .error (unqualified domain) := by
  obtain ⟨name, label, hqualified, -⟩ | ⟨-, herror⟩ := topLevel_cases domain
  · exact absurd ⟨name, label, hqualified⟩ hnot
  · exact herror

/-! ### The domains of an entry -/

/-- A name and an extension without a fault. The dot of the extension is the last one. -/
theorem qualified_append {base extension : String} (hbase : base.toList ≠ [])
    (hextension : Extension.fault? extension = none) :
    ∃ label, extension = "." ++ String.ofList label ∧
      Qualified (base ++ extension) base.toList label ∧ Text.lower label = label := by
  obtain ⟨label, htext, hne, hchars⟩ := Extension.exists_label hextension
  refine ⟨label, ?_, ⟨?_, ?_, hbase, hne⟩, Text.lower_of_isExtensionChar hchars⟩
  · apply String.toList_inj.1
    simp [htext]
  · rw [String.toList_append, htext]
  · exact fun hdot => absurd (hchars '.' hdot) (by decide)

section

variable {entry : Entry} {analysis : Analysis} {words rest : Words} {c : Candidates}
  (h : analyze entry = .ok analysis)
  (hdomains : Candidates.ofAnalysis analysis words = .ok (c, rest))

include h hdomains

/-- A domain of an entry is a name under an extension, and names are not empty. -/
theorem exists_base_of_mem {domain : String} (hmem : domain ∈ c.toList) :
    ∃ base, ∃ extension ∈ entry.extensions, domain = base ++ extension ∧ base.toList ≠ [] := by
  obtain ⟨-, -, rfl⟩ := analyze_eq_ok h
  obtain ⟨g, -, rfl⟩ := Candidates.exists_create_of_ofAnalysis hdomains
  rw [Candidates.toList_eq] at hmem
  obtain ⟨base, hbase, extension, hextension, rfl⟩ := mem_flatMap_expand.1 hmem
  refine ⟨base, extension, hextension, rfl, fun hempty => ?_⟩
  have hcandidate := (List.mem_filter.1 hbase).2
  rw [hempty] at hcandidate
  cases hcandidate

/-- However a domain of an entry is split into a name and an extension, the name is not empty. -/
theorem base_ne_nil_of_mem {base extension : String} (hextension : extension ∈ entry.extensions)
    (hmem : base ++ extension ∈ c.toList) : base.toList ≠ [] := by
  obtain ⟨-, hfaultless, -⟩ := analyze_eq_ok h
  obtain ⟨base', extension', hextension', heq, hbase⟩ := exists_base_of_mem h hdomains hmem
  obtain ⟨rfl, -⟩ := append_dotted_inj (Extension.dotted (hfaultless extension hextension))
    (Extension.dotted (hfaultless extension' hextension')) heq
  exact hbase

end

/-- Where texts, and among them the domains of an entry, are looked up. -/
structure Reached (entry : Entry) (domains : List String) : Prop where
  /-- A text has a top-level domain if there is something on both sides of its last dot. -/
  topLevel_iff : ∀ domain last, topLevel domain = .ok last ↔
    ∃ name label, Qualified domain name label ∧ last = String.ofList (Text.lower label)
  /-- Such texts have an address. -/
  url_iff : ∀ domain text, url domain = .ok text ↔
    ∃ name label, Qualified domain name label ∧
      text = address (String.ofList (Text.lower label)) ++ domain
  /-- Other texts have neither. -/
  refused : ∀ domain, (¬ ∃ name label, Qualified domain name label) →
    topLevel domain = .error (unqualified domain) ∧ url domain = .error (unqualified domain)
  split : ∀ domain ∈ domains, ∃ base, ∃ extension ∈ entry.extensions, domain = base ++ extension
  /-- A domain of the entry is looked up at the registry of its extension. -/
  own : ∀ base, ∀ extension ∈ entry.extensions, base ++ extension ∈ domains →
    ∃ label, extension = "." ++ label ∧ topLevel (base ++ extension) = .ok label ∧
      url (base ++ extension) = .ok (address label ++ (base ++ extension))

/-- Every domain of an accepted entry can be looked up. -/
theorem reached {entry : Entry} {analysis : Analysis} (h : analyze entry = .ok analysis)
    {words rest : Words} {c : Candidates}
    (hdomains : Candidates.ofAnalysis analysis words = .ok (c, rest)) :
    Reached entry c.toList := by
  refine ⟨fun _ _ => topLevel_eq_ok_iff, fun _ _ => url_eq_ok_iff, ?_, ?_, ?_⟩
  · intro domain hnot
    have htop := topLevel_of_not_qualified hnot
    exact ⟨htop, by rw [url_eq, htop]; rfl⟩
  · intro domain hmem
    obtain ⟨base, extension, hextension, heq, -⟩ := exists_base_of_mem h hdomains hmem
    exact ⟨base, extension, hextension, heq⟩
  · intro base extension hextension hmem
    obtain ⟨label, hlabel, hqualified, hlower⟩ :=
      qualified_append (base_ne_nil_of_mem h hdomains hextension hmem)
        ((analyze_eq_ok h).2.1 extension hextension)
    have htop := topLevel_of_qualified hqualified
    rw [hlower] at htop
    exact ⟨String.ofList label, hlabel, htop, by rw [url_eq, htop]; rfl⟩

/-- A name under an extension with a registry of its own, and under one without. -/
def studio : Entry where
  pattern := "Xv"
  extensions := [".io", ".studio"]

theorem reached_studio :
    ∃ analysis c rest, analyze studio = .ok analysis ∧
      Candidates.ofAnalysis analysis (Words.ofSeed #[] 1) = .ok (c, rest) ∧
      Reached studio c.toList ∧ "xa.io" ∈ c.toList ∧ "xa.studio" ∈ c.toList ∧
      url "xa.io" = .ok "https://rdap.identitydigital.services/rdap/domain/xa.io" ∧
      url "xa.studio" = .ok "https://rdap.org/domain/xa.studio" := by
  have hanalyze : analyze studio = .ok (Analysis.of "Xv" [".io", ".studio"]) := by decide
  have hexact : (Analysis.of "Xv" [".io", ".studio"]).combinations.saturated = false := by decide
  obtain ⟨g, rest, hcreate⟩ := Generator.exists_create_auto hexact (Words.ofSeed #[] 1)
  have hdomains : Candidates.ofAnalysis (Analysis.of "Xv" [".io", ".studio"])
      (Words.ofSeed #[] 1) = .ok (⟨g, [".io", ".studio"], "", []⟩, rest) :=
    Candidates.ofAnalysis_of_create hcreate
  have h : Reached studio _ := reached hanalyze hdomains
  have hname : "xa" ∈ g.toList :=
    (Generator.toList_perm_names (Pattern.plain_parse "Xv") hcreate).mem_iff.2 (by decide)
  have hmem : ∀ extension ∈ [".io", ".studio"], "xa" ++ extension ∈
      (⟨g, [".io", ".studio"], "", []⟩ : Candidates).toList := by
    intro extension hextension
    rw [Candidates.toList_eq]
    exact mem_flatMap_expand.2
      ⟨"xa", List.mem_filter.2 ⟨hname, by decide⟩, extension, hextension, rfl⟩
  have hio := hmem ".io" (by decide)
  have hstudio := hmem ".studio" (by decide)
  obtain ⟨label, hlabel, -, hurl⟩ := h.own "xa" ".io" (by decide) hio
  obtain ⟨label', hlabel', -, hurl'⟩ := h.own "xa" ".studio" (by decide) hstudio
  obtain rfl : "io" = label := (String.append_right_inj ".").1 hlabel
  obtain rfl : "studio" = label' := (String.append_right_inj ".").1 hlabel'
  refine ⟨_, _, rest, hanalyze, hdomains, h, hio, hstudio, hurl.trans ?_, hurl'.trans ?_⟩
  · decide
  · decide

end Registry

end NameHunt
