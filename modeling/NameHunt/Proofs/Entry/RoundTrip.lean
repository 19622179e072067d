import NameHunt.Proofs.Entry.Source
import NameHunt.Proofs.Text.Padding

/-!
# Writing a line and reading it back

A line is cut four times: at the number sign before the comment, at the semicolons between the
options, at the equals sign in each option, and at the commas in a list of extensions. What is a
separator to one cut is an ordinary character in pieces that other cuts leave. The two sides of the
argument meet at `Written`, which says how a line is put together for an entry, with blanks around
every piece. A line that is put together in another way is refused for what is `Amiss` in it.

* `IsOption`, `NamesExtensions`, `GivesExtensions`: what may stand after a semicolon.
* `Options`, `Remark`, `Written`: the lines for a pattern, extensions and a comment.
* `fields`, `Amiss`: the fault of a line, by what stands before its first number sign.
* `ofLine?_eq`: what is read of a line depends on its trimmed fields and its comment.
* `Readable`, `readable`: what is read of every line.
-/

namespace NameHunt.Entry

open Text

variable {defaults : List String} {line : List Char}

/-! ### How lines are written -/

/-- A text that can be the pattern of a line. -/
structure IsPattern (pattern : String) : Prop where
  ne_empty : pattern ≠ ""
  tidy : Tidy pattern.toList
  semicolon : ';' ∉ pattern.toList
  numberSign : '#' ∉ pattern.toList

/-- An extension that can be written in a line. -/
structure IsExtension (extension : String) : Prop extends IsItem extension where
  semicolon : ';' ∉ extension.toList
  numberSign : '#' ∉ extension.toList

/-- What may stand after a semicolon: blanks, or a key and a value. -/
structure IsOption (option : List Char) : Prop where
  semicolon : ';' ∉ option
  numberSign : '#' ∉ option
  form : Blank option ∨ '=' ∈ option

/-- The keys for extensions, in any case of their letters. -/
def IsKey (name : List Char) : Prop :=
  name.map Char.toLower = "ext".toList ∨ name.map Char.toLower = "extensions".toList

/-- An option whose key is one for extensions. -/
def NamesExtensions (option : List Char) : Prop :=
  ∃ name key value, IsKey name ∧ Padded name key ∧ option = key ++ '=' :: value

/-- An option for extensions that has a list of them as its value. -/
def GivesExtensions (extensions : List String) (option : List Char) : Prop :=
  ∃ name key value, IsKey name ∧ Padded name key ∧ Listed extensions value ∧
    option = key ++ '=' :: value

/-- Options in a row, and the extensions that the last option for extensions among them gives. -/
inductive Options : Option (List String) → List (List Char) → Prop
  | standing {options : List (List Char)}
      (hoptions : ∀ o ∈ options, IsOption o ∧ ¬ NamesExtensions o) : Options none options
  | own {extensions : List String} {earlier later : List (List Char)} {option : List Char}
      (hearlier : ∀ o ∈ earlier, IsOption o) (hextensions : ∀ e ∈ extensions, IsExtension e)
      (hoption : GivesExtensions extensions option)
      (hlater : ∀ o ∈ later, IsOption o ∧ ¬ NamesExtensions o) :
      Options (some extensions) (earlier ++ option :: later)

/-- What ends a line: nothing, or a number sign and a comment. -/
inductive Remark : Option String → List Char → Prop
  | absent : Remark none []
  | comment {comment : String} {written : List Char} (hne : comment ≠ "")
      (htidy : Tidy comment.toList) (hwritten : Padded comment.toList written) :
      Remark (some comment) ('#' :: written)

/-- A line for a pattern, extensions of its own if there are any, and a comment. -/
inductive Written (pattern : String) (own : Option (List String)) (comment : Option String) :
    List Char → Prop
  | line {field : List Char} {options : List (List Char)} {remark : List Char}
      (hpattern : IsPattern pattern) (hfield : Padded pattern.toList field)
      (hoptions : Options own options) (hremark : Remark comment remark) :
      Written pattern own comment ([';'].intercalate (field :: options) ++ remark)

/-! ### What is amiss in a line -/

/-- The pieces between semicolons of what stands before the first number sign. -/
def fields (line : List Char) : List (List Char) :=
  (line.takeWhile (· != '#')).splitOn ';'

/-- The fault that a line is refused for. -/
inductive Amiss (line : List Char) : LineFault → Prop
  | noPattern {field : List Char} {options : List (List Char)}
      (hfields : fields line = field :: options) (hfield : Blank field) : Amiss line .noPattern
  /-- The first option that is neither blank nor has an equals sign. -/
  | notAssigned {field option : List Char} {earlier later : List (List Char)}
      (hfields : fields line = field :: (earlier ++ option :: later)) (hfield : ¬ Blank field)
      (hearlier : ∀ o ∈ earlier, Blank o ∨ '=' ∈ o) (hblank : ¬ Blank option)
      (hoption : '=' ∉ option) : Amiss line (.notAssigned (String.ofList (trim option)))

/-! ### Keys -/

theorem isExtensionsKey_iff {key : List Char} : isExtensionsKey key = true ↔ IsKey key := by
  simp only [isExtensionsKey, IsKey, Bool.or_eq_true, beq_iff_eq]

theorem isBlank_of_isAlpha {c : Char} (h : c.isAlpha = true) : isBlank c = false := by
  have hrange : (65 ≤ c.toNat ∧ c.toNat ≤ 90) ∨ (97 ≤ c.toNat ∧ c.toNat ≤ 122) := by
    simp only [Char.isAlpha, Char.isUpper, Char.isLower, Bool.or_eq_true, Bool.and_eq_true,
      decide_eq_true_eq] at h
    exact h
  exact isBlank_of_range (by omega) (by omega)

/-- The characters of a key are letters. -/
theorem IsKey.isAlpha {name : List Char} (h : IsKey name) {c : Char} (hc : c ∈ name) :
    c.isAlpha = true := by
  have hmem : c.toLower ∈ name.map Char.toLower := List.mem_map_of_mem hc
  have hshort : "ext".toList.all Char.isAlpha = true := by decide
  have hlong : "extensions".toList.all Char.isAlpha = true := by decide
  rw [← Char.isAlpha_toLower_eq_isAlpha]
  rcases h with h | h
  · rw [h] at hmem
    exact List.all_eq_true.1 hshort _ hmem
  · rw [h] at hmem
    exact List.all_eq_true.1 hlong _ hmem

theorem IsKey.tidy {name : List Char} (h : IsKey name) : Tidy name :=
  tidy_of_not_blank fun _ hc => isBlank_of_isAlpha (h.isAlpha hc)

/-- No separator stands in a key or in the blanks around it. -/
theorem IsKey.not_mem {name key : List Char} (h : IsKey name) (hkey : Padded name key) {c : Char}
    (hblank : isBlank c = false) (halpha : c.isAlpha = false) : c ∉ key := by
  intro hmem
  have hc := h.isAlpha ((hkey.mem_iff hblank).1 hmem)
  rw [halpha] at hc
  cases hc

theorem isExtensionsKey_trim_iff {key : List Char} :
    isExtensionsKey (trim key) = true ↔ ∃ name, IsKey name ∧ Padded name key := by
  rw [isExtensionsKey_iff]
  constructor
  · exact fun h => ⟨trim key, h, padded_trim key⟩
  · rintro ⟨name, hname, hkey⟩
    rwa [hkey.trim_eq, hname.tidy.trim_eq]

/-! ### Options -/

/-- An option for extensions holds nothing else than letters, an equals sign, commas, blanks and
the extensions. -/
theorem GivesExtensions.not_mem {extensions : List String} {option : List Char}
    (h : GivesExtensions extensions option) {c : Char} (hblank : isBlank c = false)
    (halpha : c.isAlpha = false) (hequals : c ≠ '=') (hcomma : c ≠ ',')
    (hextensions : ∀ e ∈ extensions, c ∉ e.toList) : c ∉ option := by
  rcases h with ⟨name, key, value, hname, hkey, hvalue, rfl⟩
  intro hmem
  rcases List.mem_append.1 hmem with hmem | hmem
  · exact hname.not_mem hkey hblank halpha hmem
  · rcases List.mem_cons.1 hmem with heq | hmem
    · exact hequals heq
    · rcases hvalue.exists_mem hblank hcomma hmem with ⟨e, he, hmem⟩
      exact hextensions e he hmem

theorem GivesExtensions.isOption {extensions : List String} {option : List Char}
    (h : GivesExtensions extensions option) (hextensions : ∀ e ∈ extensions, IsExtension e) :
    IsOption option := by
  refine ⟨?_, ?_, ?_⟩
  · exact h.not_mem (by decide) (by decide) (by decide) (by decide)
      fun e he => (hextensions e he).semicolon
  · exact h.not_mem (by decide) (by decide) (by decide) (by decide)
      fun e he => (hextensions e he).numberSign
  · rcases h with ⟨name, key, value, -, -, -, rfl⟩
    exact .inr (by simp)

/-- What an option gives is up to the trimmed key and the value between blanks. -/
theorem extensionsOf?_eq {option key value : List Char} (h : cutAt '=' option = some (key, value)) :
    extensionsOf? option = if isExtensionsKey (trim key) then some (items value) else none := by
  rw [extensionsOf?, h]
  rfl

theorem items_padded {value written : List Char} (h : Padded value written) :
    items written = items value := by
  rw [items, items, h.map_trim_splitOn (by decide)]

/-- The blanks around an option make no difference. -/
theorem extensionsOf?_trim (option : List Char) :
    extensionsOf? (trim option) = extensionsOf? option := by
  have hequals : isBlank '=' = false := by decide
  cases hcut : cutAt '=' (trim option) with
  | none =>
    have hnot : cutAt '=' option = none := by
      rw [cutAt_eq_none_iff, (padded_trim option).mem_iff hequals]
      exact cutAt_eq_none_iff.1 hcut
    rw [extensionsOf?, extensionsOf?, hcut, hnot]
  | some sides =>
    rcases sides with ⟨key, value⟩
    rcases (padded_trim option).cutAt_eq_some hequals hcut with
      ⟨key', value', hcut', hkey, hvalue⟩
    rw [extensionsOf?_eq hcut, extensionsOf?_eq hcut', hkey.trim_eq, items_padded hvalue]

theorem extensionsOf?_eq_none {option : List Char} (h : ¬ NamesExtensions option) :
    extensionsOf? option = none := by
  cases hcut : cutAt '=' option with
  | none => rw [extensionsOf?, hcut, Option.bind_none]
  | some sides =>
    rcases sides with ⟨key, value⟩
    rw [extensionsOf?_eq hcut, if_neg]
    intro hkey
    rcases isExtensionsKey_trim_iff.1 hkey with ⟨name, hname, hpadded⟩
    exact h ⟨name, key, value, hname, hpadded, (cutAt_eq_some_iff.1 hcut).1⟩

theorem extensionsOf?_eq_some {extensions : List String} {option : List Char}
    (h : GivesExtensions extensions option) (hextensions : ∀ e ∈ extensions, IsExtension e) :
    extensionsOf? option = some extensions := by
  rcases h with ⟨name, key, value, hname, hkey, hvalue, rfl⟩
  have hcut := cutAt_append (hname.not_mem hkey (c := '=') (by decide) (by decide)) value
  rw [extensionsOf?_eq hcut, if_pos (isExtensionsKey_trim_iff.2 ⟨name, hname, hkey⟩),
    items_of_listed (fun e he => (hextensions e he).toIsItem) hvalue]

/-- The last option for extensions counts. -/
theorem Options.getLast?_filterMap {own : Option (List String)} {options : List (List Char)}
    (h : Options own options) : (options.filterMap extensionsOf?).getLast? = own := by
  -- An option without a key for extensions gives none, so what stands last is found last.
  have hnone : ∀ later : List (List Char), (∀ o ∈ later, IsOption o ∧ ¬ NamesExtensions o) →
      later.filterMap extensionsOf? = [] := by
    intro later hlater
    exact List.filterMap_eq_nil_iff.2 fun o ho => extensionsOf?_eq_none (hlater o ho).2
  cases h with
  | standing hoptions => rw [hnone _ hoptions, List.getLast?_nil]
  | own hearlier hextensions hoption hlater =>
    rw [List.filterMap_append, List.filterMap_cons_some (extensionsOf?_eq_some hoption hextensions),
      hnone _ hlater, List.getLast?_append_cons, List.getLast?_singleton]

theorem Options.isOption {own : Option (List String)} {options : List (List Char)}
    (h : Options own options) : ∀ o ∈ options, IsOption o := by
  cases h with
  | standing hoptions => exact fun o ho => (hoptions o ho).1
  | own hearlier hextensions hoption hlater =>
    intro o ho
    rcases List.mem_append.1 ho with ho | ho
    · exact hearlier o ho
    · rcases List.mem_cons.1 ho with rfl | ho
      · exact hoption.isOption hextensions
      · exact (hlater o ho).1

/-! ### Reading the options -/

/-- The options that are read: those with more than blanks, without the blanks around them. -/
def trimmed (options : List (List Char)) : List (List Char) :=
  (options.map trim).filter fun option => !option.isEmpty

theorem trimmed_cons_of_blank {option : List Char} (h : Blank option)
    (rest : List (List Char)) : trimmed (option :: rest) = trimmed rest := by
  rw [trimmed, List.map_cons, trim_eq_nil_iff.2 h]
  rfl

theorem trimmed_cons_of_not_blank {option : List Char} (h : ¬ Blank option)
    (rest : List (List Char)) : trimmed (option :: rest) = trim option :: trimmed rest := by
  rw [trimmed, List.map_cons, List.filter_cons_of_pos]
  · rfl
  · simpa [trim_eq_nil_iff] using h

theorem filterMap_trimmed (options : List (List Char)) :
    (trimmed options).filterMap extensionsOf? = options.filterMap extensionsOf? := by
  induction options with
  | nil => rfl
  | cons option rest ih =>
    by_cases hblank : Blank option
    · have hnone : extensionsOf? option = none := by
        rw [← extensionsOf?_trim, trim_eq_nil_iff.2 hblank]
        rfl
      rw [trimmed_cons_of_blank hblank, ih, List.filterMap_cons_none hnone]
    · rw [trimmed_cons_of_not_blank hblank, List.filterMap_cons, List.filterMap_cons,
        extensionsOf?_trim, ih]

/-- An option that is blank or has an equals sign lets the next ones be read. -/
theorem readOptions_of_form {option : List Char} (h : Blank option ∨ '=' ∈ option)
    (found : Option (List String)) (rest : List (List Char)) :
    ∃ found', readOptions found (trimmed (option :: rest)) = readOptions found' (trimmed rest) := by
  by_cases hblank : Blank option
  · exact ⟨found, by rw [trimmed_cons_of_blank hblank]⟩
  · have hequals : '=' ∈ trim option :=
      ((padded_trim option).mem_iff (by decide)).1 (h.resolve_left hblank)
    cases hcut : cutAt '=' (trim option) with
    | none => exact absurd hequals (cutAt_eq_none_iff.1 hcut)
    | some sides =>
      rw [trimmed_cons_of_not_blank hblank, readOptions, hcut]
      exact ⟨_, rfl⟩

/-- Any other option is a fault. -/
theorem readOptions_of_not_mem {option : List Char} (hblank : ¬ Blank option)
    (hequals : '=' ∉ option) (found : Option (List String)) (rest : List (List Char)) :
    readOptions found (trimmed (option :: rest)) =
      .error (.notAssigned (String.ofList (trim option))) := by
  have hcut : cutAt '=' (trim option) = none := by
    rwa [cutAt_eq_none_iff, ← (padded_trim option).mem_iff (by decide)]
  rw [trimmed_cons_of_not_blank hblank, readOptions, hcut]

/-- The fault of options is the first of them that is neither blank nor has an equals sign. -/
theorem readOptions_eq_error_iff {found : Option (List String)} {options : List (List Char)}
    {fault : LineFault} :
    readOptions found (trimmed options) = .error fault ↔
      ∃ earlier option later, options = earlier ++ option :: later ∧
        (∀ o ∈ earlier, Blank o ∨ '=' ∈ o) ∧ ¬ Blank option ∧ '=' ∉ option ∧
        fault = .notAssigned (String.ofList (trim option)) := by
  induction options generalizing found with
  | nil => simp [trimmed, readOptions]
  | cons option rest ih =>
    by_cases hform : Blank option ∨ '=' ∈ option
    · rcases readOptions_of_form hform found rest with ⟨found', hread⟩
      rw [hread, ih]
      constructor
      · rintro ⟨earlier, o, later, rfl, hearlier, hfault⟩
        exact ⟨option :: earlier, o, later, rfl, List.forall_mem_cons.2 ⟨hform, hearlier⟩, hfault⟩
      · rintro ⟨_ | ⟨first, earlier⟩, o, later, hsplit, hearlier, hblank, hequals, hfault⟩
        · obtain ⟨rfl, rfl⟩ := List.cons.inj hsplit
          exact absurd hform (not_or.2 ⟨hblank, hequals⟩)
        · obtain ⟨rfl, rfl⟩ := List.cons.inj hsplit
          have hrest := (List.forall_mem_cons.1 hearlier).2
          exact ⟨earlier, o, later, rfl, hrest, hblank, hequals, hfault⟩
    · rcases not_or.1 hform with ⟨hblank, hequals⟩
      rw [readOptions_of_not_mem hblank hequals]
      constructor
      · intro h
        exact ⟨[], option, rest, rfl, List.forall_mem_nil _, hblank, hequals,
          (Except.error.inj h).symm⟩
      · rintro ⟨_ | ⟨first, earlier⟩, o, later, hsplit, hearlier, -, -, hfault⟩
        · obtain ⟨rfl, rfl⟩ := List.cons.inj hsplit
          rw [hfault]
        · obtain ⟨rfl, rfl⟩ := List.cons.inj hsplit
          exact absurd (List.forall_mem_cons.1 hearlier).1 hform

/-- Options without a fault give the extensions of the last one for extensions. -/
theorem Options.readOptions_eq {own : Option (List String)} {options : List (List Char)}
    (h : Options own options) : readOptions none (trimmed options) = .ok own := by
  cases hread : readOptions none (trimmed options) with
  | error fault =>
    rcases readOptions_eq_error_iff.1 hread with ⟨earlier, o, later, rfl, -, hblank, hequals, -⟩
    have hform := (h.isOption o (by simp)).form
    exact absurd hform (not_or.2 ⟨hblank, hequals⟩)
  | ok result =>
    rw [readOptions_eq_ok hread, filterMap_trimmed, h.getLast?_filterMap, Option.or_none]

/-! ### Reading the fields -/

theorem splitComment_append {body : List Char} (h : '#' ∉ body) (comment : List Char) :
    splitComment (body ++ '#' :: comment) = (body, some (trim comment)) := by
  rw [splitComment, cutAt_append h]

theorem splitComment_of_not_mem (h : '#' ∉ line) : splitComment line = (line, none) := by
  rw [splitComment, cutAt_eq_none_iff.2 h]

/-- What stands before the comment, in a line and in the same line between blanks. -/
theorem splitComment_trim (line : List Char) :
    Padded (splitComment (trim line)).1 (splitComment line).1 ∧
      (splitComment (trim line)).2 = (splitComment line).2 := by
  have hsign : isBlank '#' = false := by decide
  cases hcut : cutAt '#' (trim line) with
  | none =>
    have hmem := cutAt_eq_none_iff.1 hcut
    have hmem' : '#' ∉ line := by rwa [(padded_trim line).mem_iff hsign]
    rw [splitComment_of_not_mem hmem, splitComment_of_not_mem hmem']
    exact ⟨padded_trim line, rfl⟩
  | some sides =>
    rcases sides with ⟨body, comment⟩
    rcases (padded_trim line).cutAt_eq_some hsign hcut with
      ⟨body', comment', hcut', hbody, hcomment⟩
    have hinner : splitComment (trim line) = (body, some (trim comment)) := by
      rw [splitComment, hcut]
    have houter : splitComment line = (body', some (trim comment)) := by
      rw [splitComment, hcut', ← hcomment.trim_eq]
    rw [hinner, houter]
    exact ⟨hbody, rfl⟩

theorem fst_splitComment (line : List Char) :
    (splitComment line).1 = line.takeWhile (· != '#') := by
  by_cases hmem : '#' ∈ line
  · rcases List.eq_append_cons_of_mem hmem with ⟨body, comment, rfl, hbody⟩
    rw [splitComment_append hbody, List.takeWhile_append_of_pos]
    · simp
    · exact fun c hc => bne_iff_ne.2 fun heq => hbody (heq ▸ hc)
  · rw [splitComment_of_not_mem hmem, List.takeWhile_eq_self_iff.2]
    exact fun c hc => bne_iff_ne.2 fun heq => hmem (heq ▸ hc)

/-- The pieces of what stands before the comment, without blanks. -/
theorem map_trim_fields (line : List Char) :
    (splitOn ';' (splitComment (trim line)).1).map trim = (fields line).map trim := by
  rw [fields, ← splitOn_eq, ← fst_splitComment]
  exact ((splitComment_trim line).1.map_trim_splitOn (by decide)).symm

theorem ofBody_eq {comment : Option (List Char)} {body field : List Char}
    {options : List (List Char)} (h : splitOn ';' body = field :: options) :
    ofBody defaults comment body =
      if trim field = [] then .error .noPattern
      else (readOptions none (trimmed options)).map fun found =>
        { pattern := String.ofList (trim field)
          extensions := found.getD defaults
          comment := (comment.filter fun text => !text.isEmpty).map String.ofList } := by
  rw [ofBody, h]
  simp only [List.isEmpty_iff]
  split
  · rfl
  · show (readOptions none (trimmed options) >>= _) = _
    cases readOptions none (trimmed options) <;> rfl

/-- The remark of a line that is read. -/
def remarkOf (line : List Char) : Option String :=
  ((splitComment line).2.filter fun text => !text.isEmpty).map String.ofList

/-- What is read of a line is up to its trimmed fields and what follows the first number sign. -/
theorem ofLine?_eq (h : isPassedOver line = false) {field : List Char}
    {options : List (List Char)} (hfields : fields line = field :: options) :
    ofLine? defaults line = some (
      if trim field = [] then .error .noPattern
      else (readOptions none (trimmed options)).map fun found =>
        ⟨String.ofList (trim field), found.getD defaults, remarkOf line⟩) := by
  have hread : ofLine? defaults line =
      some (ofBody defaults (splitComment (trim line)).2 (splitComment (trim line)).1) := by
    show (if isPassedOver line then none else some _) = _
    rw [h]
    rfl
  have htrim := map_trim_fields line
  rw [hfields, List.map_cons] at htrim
  rcases List.map_eq_cons_iff.1 htrim with ⟨field', options', hsplit, hfield, hoptions⟩
  rw [hread, ofBody_eq hsplit, hfield, trimmed, hoptions, (splitComment_trim line).2, trimmed,
    remarkOf]

theorem exists_fields (line : List Char) : ∃ field options, fields line = field :: options := by
  rw [fields, ← splitOn_eq]
  exact List.exists_cons_of_ne_nil (splitOn_ne_nil ';' _)

/-- A line that is not passed over is refused for what is amiss in it. -/
theorem ofLine?_eq_error_iff {fault : LineFault} :
    ofLine? defaults line = some (.error fault) ↔ isPassedOver line = false ∧ Amiss line fault := by
  cases hpassed : isPassedOver line with
  | true => simp [ofLine?_eq_none_iff.2 hpassed]
  | false =>
    rcases exists_fields line with ⟨field, options, hfields⟩
    rw [ofLine?_eq hpassed hfields, Option.some_inj, and_iff_right rfl]
    by_cases hfield : Blank field
    · rw [if_pos (trim_eq_nil_iff.2 hfield)]
      constructor
      · intro h
        obtain rfl := Except.error.inj h
        exact .noPattern hfields hfield
      · intro h
        cases h with
        | noPattern => rfl
        | notAssigned hfields' hfield' =>
          obtain ⟨rfl, -⟩ := List.cons.inj (hfields.symm.trans hfields')
          exact absurd hfield hfield'
    · have hmap : ∀ {entry : Option (List String) → Entry},
          (readOptions none (trimmed options)).map entry = .error fault ↔
            readOptions none (trimmed options) = .error fault := by
        intro entry
        cases readOptions none (trimmed options) <;> simp [Except.map]
      rw [if_neg (mt trim_eq_nil_iff.1 hfield), hmap, readOptions_eq_error_iff]
      constructor
      · rintro ⟨earlier, option, later, rfl, hearlier, hblank, hequals, rfl⟩
        exact .notAssigned hfields hfield hearlier hblank hequals
      · intro h
        cases h with
        | noPattern hfields' hfield' =>
          obtain ⟨rfl, -⟩ := List.cons.inj (hfields.symm.trans hfields')
          exact absurd hfield' hfield
        | notAssigned hfields' _ hearlier hblank hequals =>
          obtain ⟨-, rfl⟩ := List.cons.inj (hfields.symm.trans hfields')
          exact ⟨_, _, _, rfl, hearlier, hblank, hequals, rfl⟩

/-! ### Lines that were written -/

theorem isPassedOver_eq_false_iff :
    isPassedOver line = false ↔ ¬ (trim line = [] ∨ (trim line).head? = some '#') := by
  rw [isPassedOver, ← Bool.not_eq_true, Bool.or_eq_true, List.isEmpty_iff, beq_iff_eq]

/-- The first character that is not blank stays the first one. -/
theorem head?_trim_append {before : List Char} (hbefore : Blank before) {c : Char}
    (hc : isBlank c = false) (rest : List Char) : (trim (before ++ c :: rest)).head? = some c := by
  rw [trim_append_of_blank hbefore]
  rcases padded_trim (c :: rest) with ⟨front, back, hfront, hback, hsplit⟩
  cases front with
  | nil =>
    have hmem : c ∈ trim (c :: rest) := ((padded_trim _).mem_iff hc).1 List.mem_cons_self
    rcases List.exists_cons_of_ne_nil (List.ne_nil_of_mem hmem) with ⟨d, s, htrim⟩
    rw [htrim] at hsplit ⊢
    rw [List.head?_cons, (List.cons.inj hsplit).1]
  | cons d front =>
    obtain ⟨rfl, -⟩ := List.cons.inj hsplit
    rw [hfront c List.mem_cons_self] at hc
    cases hc

theorem IsPattern.isPassedOver_eq {pattern : String} (h : IsPattern pattern) {field : List Char}
    (hfield : Padded pattern.toList field) (rest : List Char) :
    isPassedOver (field ++ rest) = false := by
  rcases hfield with ⟨before, after, hbefore, -, rfl⟩
  rcases List.exists_cons_of_ne_nil (mt String.toList_eq_nil_iff.1 h.ne_empty) with ⟨c, s, hs⟩
  have hblank : isBlank c = false := h.tidy.first c (by rw [hs]; rfl)
  have hsign : c ≠ '#' := fun heq => h.numberSign (by rw [hs, heq]; exact List.mem_cons_self)
  have hhead : (trim (before ++ pattern.toList ++ after ++ rest)).head? = some c := by
    rw [hs, List.append_assoc, List.append_assoc]
    exact head?_trim_append hbefore hblank _
  rw [isPassedOver_eq_false_iff, hhead]
  rintro (hnil | hhead')
  · rw [hnil] at hhead
    cases hhead
  · exact hsign (Option.some.inj hhead')

/-- The comment of a line begins at the number sign that it was written with. -/
theorem Remark.splitComment_append {comment : Option String} {remark : List Char}
    (h : Remark comment remark) {body : List Char} (hbody : '#' ∉ body) :
    (splitComment (body ++ remark)).1 = body ∧ remarkOf (body ++ remark) = comment := by
  cases h with
  | absent =>
    rw [List.append_nil, remarkOf, splitComment_of_not_mem hbody]
    exact ⟨rfl, rfl⟩
  | comment hne htidy hwritten =>
    rw [remarkOf, Entry.splitComment_append hbody, hwritten.trim_eq, htidy.trim_eq]
    simp [Option.filter, hne]

theorem ofLine?_of_written {pattern : String} {own : Option (List String)}
    {comment : Option String} (h : Written pattern own comment line) :
    ofLine? defaults line = some (.ok ⟨pattern, own.getD defaults, comment⟩) := by
  cases h with
  | @line field options remark hpattern hfield hoptions hremark =>
    -- No piece holds a separator of a cut that comes before its own, so every cut is made where the
    -- line was joined.
    have hsemicolon : ∀ piece ∈ field :: options, ';' ∉ piece := by
      refine List.forall_mem_cons.2 ⟨?_, fun o ho => (hoptions.isOption o ho).semicolon⟩
      rw [hfield.mem_iff (by decide)]
      exact hpattern.semicolon
    have hsign : ∀ piece ∈ field :: options, '#' ∉ piece := by
      refine List.forall_mem_cons.2 ⟨?_, fun o ho => (hoptions.isOption o ho).numberSign⟩
      rw [hfield.mem_iff (by decide)]
      exact hpattern.numberSign
    have hbody : '#' ∉ [';'].intercalate (field :: options) := by
      intro hmem
      rcases (mem_intercalate_iff (by decide)).1 hmem with ⟨piece, hpiece, hmem⟩
      exact hsign piece hpiece hmem
    rcases hremark.splitComment_append hbody with ⟨hbefore, hafter⟩
    have hfields : fields ([';'].intercalate (field :: options) ++ remark) = field :: options := by
      rw [fields, ← splitOn_eq, ← fst_splitComment, hbefore]
      exact splitOn_intercalate_of_ne_nil (List.cons_ne_nil field options) hsemicolon
    have hpassed : isPassedOver ([';'].intercalate (field :: options) ++ remark) = false := by
      obtain ⟨rest, hrest⟩ : field <+: [';'].intercalate (field :: options) := by
        simpa using prefix_intercalate [';'] [field] options
      rw [← hrest, List.append_assoc]
      exact hpattern.isPassedOver_eq hfield _
    have hne : trim field ≠ [] := by
      rw [hfield.trim_eq, hpattern.tidy.trim_eq]
      exact mt String.toList_eq_nil_iff.1 hpattern.ne_empty
    rw [ofLine?_eq hpassed hfields, if_neg hne, hoptions.readOptions_eq, hfield.trim_eq,
      hpattern.tidy.trim_eq, hafter]
    simp [Except.map]

/-! ### All lines -/

/-- What is read of a line, with the standing extensions and the number of the line. -/
structure Readable (defaults : List String) (number : Nat) : Prop where
  /-- A line is read as the entry that it was written for. -/
  written : ∀ {pattern : String} {own : Option (List String)} {comment : Option String}
    {line : List Char}, Written pattern own comment line →
      ofNumberedLine? defaults line number = some (.ok ⟨pattern, own.getD defaults, comment⟩)
  /-- Blank lines and lines of comment hold nothing. -/
  passedOver : ∀ line : List Char, ofNumberedLine? defaults line number = none ↔
    trim line = [] ∨ (trim line).head? = some '#'
  /-- Any other line is refused if its first field is blank, or an option has neither blanks only
  nor an equals sign. -/
  refused : ∀ line : List Char, ¬ (trim line = [] ∨ (trim line).head? = some '#') →
    ((∃ error, ofNumberedLine? defaults line number = some (.error error)) ↔
      (∃ field ∈ (fields line).head?, Blank field) ∨
        ∃ option ∈ (fields line).tail, ¬ Blank option ∧ '=' ∉ option)
  /-- It is refused with its number, for the first of these that is amiss. -/
  fault : ∀ (line : List Char) (error : Error),
    ofNumberedLine? defaults line number = some (.error error) ↔
      ¬ (trim line = [] ∨ (trim line).head? = some '#') ∧
        ∃ fault, Amiss line fault ∧ error = .patternLine number fault.reason

/-- The first of the options that is neither blank nor has an equals sign. -/
theorem exists_first_of_mem {options : List (List Char)}
    (h : ∃ option ∈ options, ¬ Blank option ∧ '=' ∉ option) :
    ∃ earlier option later, options = earlier ++ option :: later ∧
      (∀ o ∈ earlier, Blank o ∨ '=' ∈ o) ∧ ¬ Blank option ∧ '=' ∉ option := by
  induction options with
  | nil => simp at h
  | cons first rest ih =>
    by_cases hform : Blank first ∨ '=' ∈ first
    · rcases h with ⟨option, hmem, hoption⟩
      rcases List.mem_cons.1 hmem with rfl | hmem
      · exact absurd hform (not_or.2 hoption)
      rcases ih ⟨option, hmem, hoption⟩ with ⟨earlier, o, later, rfl, hearlier, ho⟩
      exact ⟨first :: earlier, o, later, rfl, List.forall_mem_cons.2 ⟨hform, hearlier⟩, ho⟩
    · exact ⟨[], first, rest, rfl, List.forall_mem_nil _, not_or.1 hform⟩

/-- Something is amiss in a line if its pattern is missing or one of its options has no key. -/
theorem exists_amiss_iff :
    (∃ fault, Amiss line fault) ↔ (∃ field ∈ (fields line).head?, Blank field) ∨
      ∃ option ∈ (fields line).tail, ¬ Blank option ∧ '=' ∉ option := by
  constructor
  · rintro ⟨fault, hfault⟩
    cases hfault with
    | noPattern hfields hfield => exact .inl ⟨_, by rw [hfields]; rfl, hfield⟩
    | notAssigned hfields _ _ hblank hoption =>
      exact .inr ⟨_, by rw [hfields]; simp, hblank, hoption⟩
  · rcases exists_fields line with ⟨field, options, hfields⟩
    rw [hfields, List.tail_cons]
    intro h
    by_cases hfield : Blank field
    · exact ⟨_, .noPattern hfields hfield⟩
    · rcases h with ⟨first, hfirst, hblank⟩ | hoption
      · obtain rfl := Option.some.inj hfirst
        exact absurd hblank hfield
      rcases exists_first_of_mem hoption with
        ⟨earlier, option, later, rfl, hearlier, hblank, hequals⟩
      exact ⟨_, .notAssigned hfields hfield hearlier hblank hequals⟩

/-- Every line that was written for an entry is read as it, and the others are refused for what is
amiss in them. -/
theorem readable (defaults : List String) (number : Nat) : Readable defaults number := by
  refine ⟨?_, ?_, ?_, ?_⟩
  · intro pattern own comment line h
    rw [ofNumberedLine?, ofLine?_of_written h]
    rfl
  · intro line
    rw [ofNumberedLine?, Option.map_eq_none_iff, ofLine?_eq_none_iff, ← not_iff_not,
      Bool.not_eq_true, isPassedOver_eq_false_iff]
  · intro line h
    rw [← exists_amiss_iff]
    simp only [ofNumberedLine?_eq_error_iff, ofLine?_eq_error_iff, isPassedOver_eq_false_iff]
    constructor
    · rintro ⟨error, fault, ⟨-, hfault⟩, -⟩
      exact ⟨fault, hfault⟩
    · rintro ⟨fault, hfault⟩
      exact ⟨_, fault, ⟨h, hfault⟩, rfl⟩
  · intro line error
    simp only [ofNumberedLine?_eq_error_iff, ofLine?_eq_error_iff, isPassedOver_eq_false_iff]
    constructor
    · rintro ⟨fault, ⟨h, hfault⟩, rfl⟩
      exact ⟨h, fault, hfault, rfl⟩
    · rintro ⟨h, fault, hfault, rfl⟩
      exact ⟨fault, ⟨h, hfault⟩, rfl⟩

/-- The last list of extensions counts, and the comment keeps what separates options. -/
theorem readable_spaced :
    Written "c=v" (some [".io", ".a=i"]) (some "a; b = #c")
        " c=v ;ext=.x;; Key=1;\tEXT = .io ,.a=i #  a; b = #c ".toList ∧
      ofNumberedLine? [".com"] " c=v ;ext=.x;; Key=1;\tEXT = .io ,.a=i #  a; b = #c ".toList 7 =
        some (.ok ⟨"c=v", [".io", ".a=i"], some "a; b = #c"⟩) := by
  have h : Written "c=v" (some [".io", ".a=i"]) (some "a; b = #c")
      " c=v ;ext=.x;; Key=1;\tEXT = .io ,.a=i #  a; b = #c ".toList := by
    have hpattern : IsPattern "c=v" :=
      ⟨by decide, by decide, by decide, by decide⟩
    have hearlier : ∀ o ∈ ["ext=.x".toList, [], " Key=1".toList], IsOption o := by
      simp only [List.forall_mem_cons]
      exact ⟨⟨by decide, by decide, by decide⟩, ⟨by decide, by decide, by decide⟩,
        ⟨by decide, by decide, by decide⟩, List.forall_mem_nil _⟩
    have hextensions : ∀ e ∈ [".io", ".a=i"], IsExtension e := by
      simp only [List.forall_mem_cons]
      exact ⟨⟨⟨by decide, by decide, by decide⟩, by decide, by decide⟩,
        ⟨⟨by decide, by decide, by decide⟩, by decide, by decide⟩,
        List.forall_mem_nil _⟩
    have hlisted : Listed [".io", ".a=i"] " .io ,.a=i ".toList :=
      ⟨[" .io ".toList, ".a=i ".toList], .cons ⟨[' '], [' '], by decide, by decide, rfl⟩
        (.cons ⟨[], [' '], by decide, by decide, rfl⟩ .nil), [], [], by decide, by decide, rfl⟩
    have hoption : GivesExtensions [".io", ".a=i"] "\tEXT = .io ,.a=i ".toList :=
      ⟨"EXT".toList, "\tEXT ".toList, " .io ,.a=i ".toList, .inl (by decide),
        ⟨['\t'], [' '], by decide, by decide, rfl⟩, hlisted, rfl⟩
    exact .line hpattern ⟨[' '], [' '], by decide, by decide, rfl⟩
      (.own hearlier hextensions hoption (List.forall_mem_nil _))
      (.comment (by decide) (by decide) ⟨"  ".toList, [' '], by decide, by decide, rfl⟩)
  exact ⟨h, (readable [".com"] 7).written h⟩

end NameHunt.Entry
