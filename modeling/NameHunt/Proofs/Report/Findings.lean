import NameHunt.Proofs.Domains
import NameHunt.Proofs.Hunt.Account
import NameHunt.Proofs.Text.Column
import NameHunt.Proofs.Text.Lines
import NameHunt.Report

/-!
# The domains that are printed

The output gets one line for each look-up of a hunt that found its domain to be available. In JSON
the line holds the domain, whatever its length. For people the domain is put into a column, and a
domain that does not fit is cut. Its line does not name it any more: what is lost is at least the end
of its extension.

* `Event.finding?`, `Report.finding`: what was found, and its line.
* `Report.printed`: the text that goes to the output.
* `Json.infix_quoted`, `lineFeed_not_mem_json`: a plain text in JSON, and an outcome as one line.
* `Report.names_available_iff`: when a line for people names its domain.
* `Announced`: what is printed of a hunt.
* `announced`: that is printed of every hunt.
-/

namespace NameHunt

/-! ### What was found -/

/-- The outcome of a look-up that found its domain to be available. -/
def Event.finding? : Event → Option Outcome
  | .checked outcome => if outcome.success && outcome.available then some outcome else none
  | _ => none

/-- The findings among some events, in order. -/
def findings (events : List Event) : List Outcome :=
  events.filterMap Event.finding?

theorem mem_findings {events : List Event} {outcome : Outcome} :
    outcome ∈ findings events ↔
      .checked outcome ∈ events ∧ outcome.success = true ∧ outcome.available = true := by
  simp only [findings, List.mem_filterMap]
  constructor
  · rintro ⟨event, hevent, hfinding⟩
    cases event with
    | checked found =>
      simp only [Event.finding?, Option.ite_none_right_eq_some, Bool.and_eq_true,
        Option.some.injEq] at hfinding
      obtain ⟨hflags, rfl⟩ := hfinding
      exact ⟨hevent, hflags⟩
    | _ => cases hfinding
  · rintro ⟨hevent, hsuccess, havailable⟩
    exact ⟨_, hevent, by simp only [Event.finding?, hsuccess, havailable, Bool.and_self, if_true]⟩

namespace Report

/-- The line of a finding. -/
def finding (json : Bool) (outcome : Outcome) : Line :=
  if json then toOutput outcome.document.json else available outcome

/-- The text of some events that goes to the output. A line feed ends each line. -/
def printed (json : Bool) (events : List Event) : List Char :=
  ((events.flatMap (event json)).filter fun line => line.channel == .output).flatMap fun line =>
    line.text.toList ++ ['\n']

/-- The lines of an event that go to the output. -/
theorem filter_event (json : Bool) (e : Event) :
    ((event json e).filter fun line => line.channel == .output) =
      (e.finding?.map (finding json)).toList := by
  cases e with
  | started analysis => cases json <;> rfl
  | checked outcome =>
    simp only [event, Event.finding?]
    split
    · cases json <;> rfl
    · rfl
  | _ => rfl

/-- The output gets the lines of the findings, in order. -/
theorem filter_flatMap_event (json : Bool) (events : List Event) :
    ((events.flatMap (event json)).filter fun line => line.channel == .output) =
      (findings events).map (finding json) := by
  induction events with
  | nil => rfl
  | cons e events ih =>
    rw [List.flatMap_cons, List.filter_append, filter_event, ih, findings, findings,
      List.filterMap_cons]
    cases e.finding? <;> rfl

end Report

/-- The line names the domain in full. -/
def Line.Names (line : Line) (domain : String) : Prop :=
  domain.toList <:+: line.text.toList

instance (line : Line) (domain : String) : Decidable (line.Names domain) :=
  inferInstanceAs (Decidable (_ <:+: _))

/-! ### The characters of domains -/

/-- A character that needs no quoting: printable, and neither a blank nor a quote or a
backslash. -/
structure Bare (c : Char) : Prop where
  printable : Text.Printable c
  ne_blank : c ≠ ' '
  ne_quote : c.toNat ≠ 0x22
  ne_backslash : c.toNat ≠ 0x5c

theorem bare_of_isExtensionChar {c : Char} (h : Extension.isExtensionChar c = true) : Bare c := by
  rw [Text.isExtensionChar_iff] at h
  refine ⟨⟨by omega, by omega⟩, ?_, by omega, by omega⟩
  rintro rfl
  exact absurd h (by decide)

theorem bare_hyphen : Bare '-' :=
  ⟨by decide, by decide, by decide, by decide⟩

theorem bare_dot : Bare '.' :=
  ⟨by decide, by decide, by decide, by decide⟩

/-- A domain of an accepted entry. -/
def Obtainable (domain : String) : Prop :=
  ∃ entry analysis domains, Hunt.Examined entry analysis domains ∧ domain ∈ domains

/-- A domain is spelled with small letters, digits, hyphens and dots. -/
theorem Obtainable.bare {domain : String} (h : Obtainable domain) : ∀ c ∈ domain.toList, Bare c := by
  obtain ⟨entry, analysis, domains, ⟨words, source, hexamine, rfl⟩, hdomain⟩ := h
  obtain ⟨hanalyze, rest, hsource⟩ := Hunt.analyze_of_examine hexamine
  obtain ⟨hpattern, hextensions, rfl⟩ := analyze_eq_ok hanalyze
  obtain ⟨g, hcreate, rfl⟩ := Candidates.exists_create_of_ofAnalysis hsource
  rw [Candidates.toList_eq] at hdomain
  obtain ⟨name, hname, extension, hextension, rfl⟩ := mem_flatMap_expand.1 hdomain
  obtain ⟨label, htext, -, hlabel⟩ := Extension.exists_label (hextensions extension hextension)
  have hgiven : name ∈ (Pattern.parse entry.pattern).names :=
    (Generator.toList_perm_names (Pattern.plain_parse entry.pattern) hcreate).mem_iff.1
      (List.mem_of_mem_filter hname)
  have hspelled := (Pattern.small_parse hpattern).chars_of_mem_texts (Pattern.mem_names.1 hgiven).2.1
  rw [String.toList_append, htext]
  intro c hc
  obtain hc | hc := List.mem_append.1 hc
  · obtain hchar | rfl := hspelled c hc
    · exact bare_of_isExtensionChar hchar
    · exact bare_hyphen
  · obtain rfl | hc := List.mem_cons.1 hc
    · exact bare_dot
    · exact bare_of_isExtensionChar (hlabel c hc)

/-! ### Texts in JSON -/

namespace Json

theorem hexDigit_ne_lineFeed : ∀ n < 16, hexDigit n ≠ '\n' := by decide

theorem lineFeed_not_mem_escaped (c : Char) : '\n' ∉ escaped c := by
  unfold escaped
  split
  case h_8 hlineFeed _ _ =>
    split
    · rename_i hcontrol
      have hhigh := hexDigit_ne_lineFeed (c.toNat / 16) (by omega)
      have hlow := hexDigit_ne_lineFeed (c.toNat % 16) (by omega)
      simp [Ne.symm hhigh, Ne.symm hlow]
    · intro hmem
      exact hlineFeed (congrArg Char.toNat (List.mem_singleton.1 hmem).symm)
  all_goals decide

theorem lineFeed_not_mem_quoted (s : String) : '\n' ∉ quoted s := by
  simp [quoted, lineFeed_not_mem_escaped]

theorem lineFeed_not_mem_digits (n : Nat) : '\n' ∉ Decimal.digits n := by
  intro h
  have hdigit : '\n'.isDigit = true := Nat.isDigit_of_mem_toDigits (by decide) (by decide) h
  cases hdigit

theorem escaped_of_bare {c : Char} (h : Bare c) : escaped c = [c] := by
  obtain ⟨⟨hlow, -⟩, -, hquote, hbackslash⟩ := h
  unfold escaped
  split
  case h_8 => rw [if_neg (Nat.not_lt.2 hlow)]
  all_goals omega

/-- A text without such characters stands between its quotes as it is. -/
theorem infix_quoted {s : String} (h : ∀ c ∈ s.toList, Bare c) : s.toList <:+: quoted s := by
  have hescaped : s.toList.flatMap escaped = s.toList.flatMap fun c => [c] :=
    List.flatMap_congr fun c hc => escaped_of_bare (h c hc)
  rw [quoted, hescaped, List.flatMap_singleton']
  exact ⟨['\x22'], ['\x22'], rfl⟩

end Json

namespace Document

/-- The value of a field stands in the JSON text of its table. -/
theorem infix_jsonFields {fields : List (String × Document)} {name : String} {value : Document}
    (h : (name, value) ∈ fields) : value.jsonChars <:+: jsonFields fields := by
  induction fields with
  | nil => cases h
  | cons field fields ih =>
    obtain ⟨first, item⟩ := field
    cases fields with
    | nil =>
      obtain ⟨rfl, rfl⟩ := Prod.mk.inj (List.mem_singleton.1 h)
      exact ⟨Json.quoted name ++ [':'], [], by simp [jsonFields]⟩
    | cons next fields =>
      obtain hfirst | hrest := List.mem_cons.1 h
      · obtain ⟨rfl, rfl⟩ := Prod.mk.inj hfirst
        exact ⟨Json.quoted name ++ [':'], ',' :: jsonFields (next :: fields), by simp [jsonFields]⟩
      · refine (ih hrest).trans ⟨Json.quoted first ++ ':' :: item.jsonChars ++ [','], [], ?_⟩
        simp [jsonFields]

theorem infix_json {fields : List (String × Document)} {name : String} {value : Document}
    (h : (name, value) ∈ fields) : value.jsonChars <:+: (table fields).json.toList := by
  refine (infix_jsonFields h).trans ⟨['\x7b'], ['\x7d'], ?_⟩
  simp [json, jsonChars]

/-- A table is written on one line if its values are. -/
theorem lineFeed_not_mem_jsonFields {fields : List (String × Document)}
    (h : ∀ field ∈ fields, '\n' ∉ field.2.jsonChars) : '\n' ∉ jsonFields fields := by
  induction fields with
  | nil => simp [jsonFields]
  | cons field fields ih =>
    obtain ⟨name, value⟩ := field
    obtain ⟨hvalue, hrest⟩ := List.forall_mem_cons.1 h
    cases fields with
    | nil => simp [jsonFields, Json.lineFeed_not_mem_quoted, hvalue]
    | cons next fields => simp [jsonFields, Json.lineFeed_not_mem_quoted, hvalue, ih hrest]

theorem lineFeed_not_mem_table {fields : List (String × Document)}
    (h : ∀ field ∈ fields, '\n' ∉ field.2.jsonChars) : '\n' ∉ (table fields).jsonChars := by
  have hfields := lineFeed_not_mem_jsonFields h
  simp only [jsonChars, List.mem_append, List.mem_cons, List.not_mem_nil, hfields, or_false]
  decide

end Document

/-- An outcome is written on one line. -/
theorem Outcome.lineFeed_not_mem_json (outcome : Outcome) :
    '\n' ∉ outcome.document.json.toList := by
  rw [Document.json, String.toList_ofList]
  refine Document.lineFeed_not_mem_table fun field hfield => ?_
  simp only [List.mem_append, List.mem_cons, List.not_mem_nil, or_false, Option.mem_toList,
    Option.map_eq_some_iff] at hfield
  obtain ((rfl | rfl | rfl) | ⟨duration, -, rfl⟩) | ⟨reason, -, rfl⟩ := hfield
  · exact Json.lineFeed_not_mem_quoted _
  · cases outcome.available <;> decide
  · cases outcome.success <;> decide
  · refine Document.lineFeed_not_mem_table fun field hfield => ?_
    simp only [List.mem_cons, List.not_mem_nil, or_false] at hfield
    obtain rfl | rfl := hfield
    · exact Json.lineFeed_not_mem_digits _
    · exact Json.lineFeed_not_mem_digits _
  · exact Json.lineFeed_not_mem_quoted _

/-- The JSON text of an outcome holds its domain. -/
theorem Outcome.infix_json {outcome : Outcome} (h : ∀ c ∈ outcome.domain.toList, Bare c) :
    outcome.domain.toList <:+: outcome.document.json.toList := by
  have hfield : Json.quoted outcome.domain <:+: outcome.document.json.toList := by
    show (Document.text outcome.domain).jsonChars <:+: _
    exact Document.infix_json List.mem_cons_self
  exact (Json.infix_quoted h).trans hfield

/-! ### Lines for people -/

namespace Report

open Text (padRight)

theorem toList_available (outcome : Outcome) :
    (available outcome).text.toList =
      ' ' :: ' ' :: (padRight domainColumn cutMark outcome.domain.toList ++
        ' ' :: ' ' :: "AVAILABLE".toList) := by
  simp [available, toOutput]

theorem printable_cutMark : ∀ c ∈ cutMark, Text.Printable c := by
  simp [cutMark, bare_dot.printable]

variable {outcome : Outcome} (h : ∀ c ∈ outcome.domain.toList, Bare c)

include h

/-- A domain that fits stands in front of spaces. -/
theorem column_of_length_le (hfits : outcome.domain.length ≤ domainColumn) :
    padRight domainColumn cutMark outcome.domain.toList =
      outcome.domain.toList ++ List.replicate (domainColumn - outcome.domain.length) ' ' :=
  Text.padRight_of_length_le (fun c hc => (h c hc).printable) hfits

/-- A domain that does not fit fills the column with the mark at its end. -/
theorem column_of_lt_length (hlong : domainColumn < outcome.domain.length) :
    padRight domainColumn cutMark outcome.domain.toList =
      outcome.domain.toList.take (domainColumn - cutMark.length) ++ cutMark :=
  Text.padRight_of_lt_length (fun c hc => (h c hc).printable) printable_cutMark hlong

theorem lineFeed_not_mem_available : '\n' ∉ (available outcome).text.toList := by
  have hdomain : '\n' ∉ outcome.domain.toList := fun hmem => absurd (h _ hmem).printable (by decide)
  rw [toList_available]
  obtain hlong | hfits := Nat.lt_or_ge domainColumn outcome.domain.length
  · rw [column_of_lt_length h hlong]
    have htake (n : Nat) : '\n' ∉ outcome.domain.toList.take n :=
      fun hmem => hdomain (List.mem_of_mem_take hmem)
    simp [htake, cutMark]
  · rw [column_of_length_le h hfits]
    simp [hdomain]

/-- The line names the domain if and only if it fits. A longer domain would have to stand between
two blanks where there is no room for it. -/
theorem names_available_iff :
    (available outcome).Names outcome.domain ↔ outcome.domain.length ≤ domainColumn := by
  rw [Line.Names, toList_available]
  constructor
  · intro hnames
    by_contra hlong
    have hblank : ' ' ∉ outcome.domain.toList := fun hmem => (h _ hmem).ne_blank rfl
    rw [column_of_lt_length h (Nat.lt_of_not_le hlong)] at hnames
    apply hlong
    have hrest := Text.infix_of_infix_cons hblank (Text.infix_of_infix_cons hblank hnames)
    rw [← String.length_toList]
    obtain hcolumn | hword := Text.infix_append_cons hblank hrest
    · refine hcolumn.length_le.trans ?_
      rw [List.length_append, List.length_take]
      exact Nat.add_le_of_le_sub (by decide) (Nat.min_le_left _ _)
    · exact hword.length_le.trans (by decide)
  · intro hfits
    rw [column_of_length_le h hfits]
    exact ⟨[' ', ' '], List.replicate (domainColumn - outcome.domain.length) ' ' ++
      ' ' :: ' ' :: "AVAILABLE".toList, by simp⟩

end Report

example : (Report.available (.answered "brava.io" true ⟨0⟩)).Names "brava.io" := by decide +kernel

/-! ### What is printed of a hunt -/

/-- What is printed of some events. -/
structure Announced (json : Bool) (events : List Event) : Prop where
  /-- There is one line for each finding, in order, and nothing else. -/
  lines : Text.splitOn '\n' (Report.printed json events) =
    (findings events).map (fun outcome => (Report.finding json outcome).text.toList) ++ [[]]
  names_iff : ∀ outcome ∈ findings events,
    (Report.finding json outcome).Names outcome.domain ↔
      json = true ∨ outcome.domain.length ≤ Report.domainColumn
  /-- A line for people shows the first characters of a domain that does not fit. -/
  cut : ∀ outcome ∈ findings events, Report.domainColumn < outcome.domain.length →
    (Report.available outcome).text =
      "  " ++ String.ofList (outcome.domain.toList.take 28) ++ "..  AVAILABLE"

/-- The output gets one line for each finding, and the line names its domain unless it is printed
for people and the domain is too long for its column. -/
theorem announced {events : List Event}
    (h : ∀ outcome, .checked outcome ∈ events → Obtainable outcome.domain) (json : Bool) :
    Announced json events := by
  have hbare : ∀ outcome ∈ findings events, ∀ c ∈ outcome.domain.toList, Bare c :=
    fun outcome hmem => (h outcome (mem_findings.1 hmem).1).bare
  refine ⟨?_, fun outcome hmem => ?_, fun outcome hmem hlong => ?_⟩
  · have hprinted : Report.printed json events =
        ((findings events).map fun outcome => (Report.finding json outcome).text.toList).flatMap
          (· ++ ['\n']) := by
      rw [Report.printed, Report.filter_flatMap_event, List.flatMap_map, List.flatMap_map]
    rw [hprinted]
    refine Text.splitOn_ended (List.forall_mem_map.2 fun outcome hmem => ?_)
    cases json with
    | true => exact outcome.lineFeed_not_mem_json
    | false => exact Report.lineFeed_not_mem_available (hbare outcome hmem)
  · cases json with
    | true => exact iff_of_true (Outcome.infix_json (hbare outcome hmem)) (.inl rfl)
    | false =>
      rw [or_iff_right Bool.false_ne_true]
      exact Report.names_available_iff (hbare outcome hmem)
  · apply String.toList_inj.1
    rw [Report.toList_available, Report.column_of_lt_length (hbare outcome hmem) hlong]
    simp [Report.domainColumn, Report.cutMark]

/-- A domain that is said to be available without an answer is not printed. -/
example : Report.printed false [.checked ⟨"brava.io", true, false, none, none⟩] = [] := rfl

/-- Every finding is named by its line. -/
def Report.Complete (json : Bool) (events : List Event) : Prop :=
  ∀ outcome ∈ findings events, (finding json outcome).Names outcome.domain

/-- Twenty-eight letters under two extensions. -/
def longName : Entry where
  pattern := "abdefghijkmopqrstuwxyzabdefg"
  extensions := [".com", ".net"]

/-- The outcome for the name under an extension: it is available. -/
def longFinding (extension : String) : Outcome :=
  .answered (longName.pattern ++ extension) true ⟨0⟩

/-- Both domains of the entry are found to be available. -/
def longFindings : List Event :=
  longName.extensions.map fun extension => .checked (longFinding extension)

theorem obtainable_longFindings {outcome : Outcome} (h : .checked outcome ∈ longFindings) :
    Obtainable outcome.domain := by
  have hexamine : ∃ source, Hunt.examine longName ⟨fun _ => 0, 0⟩ =
      .ok (Analysis.of longName.pattern longName.extensions, source) := ⟨_, by cbv⟩
  obtain ⟨source, hexamine⟩ := hexamine
  obtain ⟨-, rest, hsource⟩ := Hunt.analyze_of_examine hexamine
  have hspelled : Candidates.spelled (Analysis.of longName.pattern longName.extensions) =
      [longName.pattern ++ ".com", longName.pattern ++ ".net"] := by cbv
  have hperm := Candidates.toList_perm_spelled hsource
  rw [hspelled] at hperm
  refine ⟨longName, _, source.toList, ⟨_, source, hexamine, rfl⟩, hperm.mem_iff.2 ?_⟩
  obtain ⟨extension, hextension, hevent⟩ := List.mem_map.1 h
  obtain rfl := Event.checked.inj hevent
  exact List.mem_map_of_mem hextension

/-- Each of the two gets a line. -/
theorem announced_longFindings :
    (∀ outcome, .checked outcome ∈ longFindings → Obtainable outcome.domain) ∧
      Announced false longFindings ∧ Announced true longFindings :=
  ⟨fun _ => obtainable_longFindings, announced (fun _ => obtainable_longFindings) false,
    announced (fun _ => obtainable_longFindings) true⟩

/-- For people the two lines are the same, and neither names its domain. -/
theorem not_complete_longFindings :
    (∀ outcome, .checked outcome ∈ longFindings → Obtainable outcome.domain) ∧
      (∀ outcome ∈ findings longFindings, Report.finding false outcome =
        Report.toOutput "  abdefghijkmopqrstuwxyzabdefg..  AVAILABLE") ∧
      ¬ Report.Complete false longFindings := by
  refine ⟨fun _ => obtainable_longFindings, by decide +kernel, fun hcomplete => ?_⟩
  have hmem : .checked (longFinding ".com") ∈ longFindings := List.mem_cons_self
  have hnames := hcomplete _ (mem_findings.2 ⟨hmem, rfl, rfl⟩)
  have hfits := (Report.names_available_iff (obtainable_longFindings hmem).bare).1 hnames
  exact absurd hfits (by decide)

end NameHunt
