import NameHunt.Entry.Line
import NameHunt.Proofs.Text.Lines

/-!
# Lines by themselves

What a line of a source gives is up to the line alone, and the blanks around it make no difference.
Its number is kept for its fault only. Hence a source is read line by line, and what stands below
other lines is only counted from further down.

* `Entry.ofLines`: the entries of lines that are counted from some number on.
* `Entry.ofSource_eq`: the entries of a source are those of its pieces between line feeds.
* `Error.shift`, `Error.unnumbered`: a fault further down, and a fault in any line.
* `Entry.isPassedOver`: blank lines and lines of comment.
* `Entry.ownExtensions?`, `Entry.extensions_of_ofLine?`: the extensions that a line gives.
* `Entry.Linewise`, `Entry.linewise`: what lines have to do with each other.
-/

namespace NameHunt

namespace Error

/-- A fault in a line that is further down. -/
def shift (lines : Nat) : Error → Error
  | patternLine line reason => patternLine (line + lines) reason
  | error => error

/-- A fault in any line. -/
def unnumbered : Error → Error
  | patternLine _ reason => patternLine 0 reason
  | error => error

end Error

namespace Entry

variable {defaults : List String} {line : List Char}

/-! ### One line -/

/-- Whether a line is blank or a comment. -/
def isPassedOver (line : List Char) : Bool :=
  (Text.trim line).isEmpty || (Text.trim line).head? == some '#'

theorem ofLine?_eq_none_iff : ofLine? defaults line = none ↔ isPassedOver line = true := by
  show (if isPassedOver line then none else some _) = none ↔ _
  split <;> simp_all

/-- The blanks around a line make no difference. -/
theorem ofNumberedLine?_congr {longer : List Char} (h : Text.trim longer = Text.trim line)
    (number : Nat) :
    ofNumberedLine? defaults longer number = ofNumberedLine? defaults line number := by
  rw [ofNumberedLine?, ofNumberedLine?, ofLine?, ofLine?, h]

theorem ofNumberedLine?_add (number lines : Nat) :
    ofNumberedLine? defaults line (number + lines) =
      (ofNumberedLine? defaults line number).map (·.mapError (Error.shift lines)) := by
  unfold ofNumberedLine?
  obtain _ | fault | entry := ofLine? defaults line <;> rfl

theorem map_unnumbered_ofNumberedLine? (number : Nat) :
    (ofNumberedLine? defaults line number).map (·.mapError Error.unnumbered) =
      ofNumberedLine? defaults line 0 := by
  unfold ofNumberedLine?
  obtain _ | fault | entry := ofLine? defaults line <;> rfl

/-- A fault is reported with the number of its line. -/
theorem ofNumberedLine?_eq_error_iff {number : Nat} {error : Error} :
    ofNumberedLine? defaults line number = some (.error error) ↔
      ∃ fault, ofLine? defaults line = some (.error fault) ∧
        error = .patternLine number fault.reason := by
  unfold ofNumberedLine?
  obtain _ | fault | entry := ofLine? defaults line
  · simp
  · simp [Except.mapError, eq_comm]
  · simp [Except.mapError]

/-! ### The extensions of a line -/

/-- The options of what stands before the comment of a line, without blanks around them. -/
def optionsOf (body : List Char) : List (List Char) :=
  ((Text.splitOn ';' body).tail.map Text.trim).filter (!·.isEmpty)

/-- The extensions that an option gives, if it is one for extensions. -/
def extensionsOf? (option : List Char) : Option (List String) :=
  (Text.cutAt '=' option).bind fun (key, value) =>
    if isExtensionsKey (Text.trim key) then some (Text.items value) else none

/-- The extensions that a line gives: those of its last option that is one for extensions. -/
def ownExtensions? (line : List Char) : Option (List String) :=
  ((optionsOf (splitComment (Text.trim line)).1).filterMap extensionsOf?).getLast?

theorem readOptions_eq_ok {found result : Option (List String)} {options : List (List Char)}
    (h : readOptions found options = .ok result) :
    result = (options.filterMap extensionsOf?).getLast?.or found := by
  induction options generalizing found with
  | nil =>
    obtain rfl := Except.ok.inj h
    rfl
  | cons option rest ih =>
    rw [readOptions] at h
    cases hcut : Text.cutAt '=' option with
    | none =>
      rw [hcut] at h
      cases h
    | some sides =>
      obtain ⟨key, value⟩ := sides
      rw [hcut] at h
      have hrest := ih h
      have hoption : extensionsOf? option =
          if isExtensionsKey (Text.trim key) then some (Text.items value) else none := by
        rw [extensionsOf?, hcut]
        rfl
      by_cases hkey : isExtensionsKey (Text.trim key) = true
      · rw [if_pos hkey] at hoption hrest
        rw [List.filterMap_cons_some hoption, List.getLast?_cons, hrest]
        cases (rest.filterMap extensionsOf?).getLast? <;> rfl
      · rw [if_neg hkey] at hoption hrest
        rw [List.filterMap_cons_none hoption, hrest]

theorem extensions_of_ofBody {comment : Option (List Char)} {body : List Char} {entry : Entry}
    (h : ofBody defaults comment body = .ok entry) :
    entry.extensions = ((optionsOf body).filterMap extensionsOf?).getLast?.getD defaults := by
  rw [ofBody] at h
  split at h
  · cases h
  · rename_i pattern options hsplit
    have hoptions : optionsOf body = (options.map Text.trim).filter (!·.isEmpty) := by
      rw [optionsOf, hsplit, List.tail_cons]
    split at h
    · cases h
    · rw [← hoptions] at h
      cases hread : readOptions none (optionsOf body) with
      | error fault =>
        rw [hread] at h
        cases h
      | ok result =>
        rw [hread] at h
        obtain rfl := Except.ok.inj h
        show result.getD defaults = _
        rw [readOptions_eq_ok hread, Option.or_none]

/-- An entry has the extensions that its line gives, or else the standing ones. -/
theorem extensions_of_ofLine? {entry : Entry} (h : ofLine? defaults line = some (.ok entry)) :
    entry.extensions = (ownExtensions? line).getD defaults := by
  rw [ofLine?] at h
  split at h
  · cases h
  · exact extensions_of_ofBody (Option.some.inj h)

/-! ### Rows of lines -/

/-- The entries of lines that are counted from `first` on. -/
def ofLines (defaults : List String) (first : Nat) (lines : List (List Char)) :
    List (Except Error Entry) :=
  (lines.zipIdx first).filterMap fun (line, number) => ofNumberedLine? defaults line number

theorem ofLines_cons (first : Nat) (line : List Char) (rest : List (List Char)) :
    ofLines defaults first (line :: rest) =
      (ofNumberedLine? defaults line first).toList ++ ofLines defaults (first + 1) rest := by
  rw [ofLines, List.zipIdx_cons, List.filterMap_cons]
  dsimp only
  cases ofNumberedLine? defaults line first <;> rfl

theorem ofLines_append (first : Nat) (upper lower : List (List Char)) :
    ofLines defaults first (upper ++ lower) =
      ofLines defaults first upper ++ ofLines defaults (first + upper.length) lower := by
  rw [ofLines, List.zipIdx_append, List.filterMap_append]
  rfl

/-- Lines that are counted from further down have the same entries, and their faults are further
down. -/
theorem ofLines_add (first above : Nat) (lines : List (List Char)) :
    ofLines defaults (first + above) lines =
      (ofLines defaults first lines).map (·.mapError (Error.shift above)) := by
  induction lines generalizing first with
  | nil => rfl
  | cons line rest ih =>
    rw [ofLines_cons, ofLines_cons, List.map_append, ← ih, ofNumberedLine?_add,
      Nat.add_right_comm, Option.toList_map]

/-- Lines that differ in the blanks around them have the same entries. -/
theorem ofLines_congr {lines longer : List (List Char)}
    (h : List.Forall₂ (fun line longer => Text.trim longer = Text.trim line) lines longer)
    (first : Nat) : ofLines defaults first longer = ofLines defaults first lines := by
  induction h generalizing first with
  | nil => rfl
  | cons htrim _ ih => rw [ofLines_cons, ofLines_cons, ofNumberedLine?_congr htrim, ih]

/-- The pieces between line feeds have the same entries as the lines. -/
theorem ofLines_linesOfPieces (first : Nat) (pieces : List (List Char)) :
    ofLines defaults first (Text.linesOfPieces pieces) = ofLines defaults first pieces := by
  induction pieces using Text.linesOfPieces.induct generalizing first with
  | case1 => rfl
  | case2 last hempty =>
    rw [Text.linesOfPieces, if_pos hempty, List.isEmpty_iff.1 hempty]
    rfl
  | case3 last hempty => rw [Text.linesOfPieces, if_neg hempty]
  | case4 piece rest hrest ih =>
    rw [Text.linesOfPieces, ofLines_cons, ofLines_cons, ih,
      ofNumberedLine?_congr (Text.WithReturn.of_dropReturn piece).trim_eq.symm]
    exact hrest

theorem ofSource_eq_lines (text : String) :
    ofSource defaults text = ofLines defaults 1 (Text.lines text.toList) :=
  rfl

theorem ofSource_eq (text : String) :
    ofSource defaults text = ofLines defaults 1 (Text.splitOn '\n' text.toList) :=
  ofLines_linesOfPieces 1 _

/-! ### Rows of lines without their numbers -/

/-- Without the numbers in them, results are up to the lines that are not passed over. -/
theorem map_unnumbered_ofLines (first : Nat) (lines : List (List Char)) :
    (ofLines defaults first lines).map (·.mapError Error.unnumbered) =
      (lines.filter fun line => !isPassedOver line).filterMap
        fun line => ofNumberedLine? defaults line 0 := by
  induction lines generalizing first with
  | nil => rfl
  | cons line rest ih =>
    rw [ofLines_cons, List.map_append, ← Option.toList_map, map_unnumbered_ofNumberedLine?, ih]
    cases hline : isPassedOver line with
    | true =>
      have hnone : ofNumberedLine? defaults line 0 = none :=
        Option.map_eq_none_iff.2 (ofLine?_eq_none_iff.2 hline)
      rw [List.filter_cons_of_neg (by simp [hline]), hnone]
      rfl
    | false =>
      rw [List.filter_cons_of_pos (by simp [hline]), List.filterMap_cons]
      cases ofNumberedLine? defaults line 0 <;> rfl

/-- The entries among the results are those of the lines. -/
theorem filterMap_toOption_ofLines (first : Nat) (lines : List (List Char)) :
    (ofLines defaults first lines).filterMap Except.toOption =
      lines.filterMap fun line => (ofLine? defaults line).bind Except.toOption := by
  induction lines generalizing first with
  | nil => rfl
  | cons line rest ih =>
    rw [ofLines_cons, List.filterMap_append, ih, List.filterMap_cons, ofNumberedLine?]
    obtain _ | fault | entry := ofLine? defaults line <;> rfl

/-! ### Faults and their numbers -/

theorem error_mem_ofLines_iff {first : Nat} {lines : List (List Char)} {error : Error} :
    .error error ∈ ofLines defaults first lines ↔
      ∃ n line fault, lines[n]? = some line ∧ ofLine? defaults line = some (.error fault) ∧
        error = .patternLine (first + n) fault.reason := by
  simp only [ofLines, List.mem_filterMap, Prod.exists, ofNumberedLine?_eq_error_iff]
  constructor
  · rintro ⟨line, number, hmem, fault, hfault, rfl⟩
    obtain ⟨hle, hget⟩ := List.mk_mem_zipIdx_iff_le_and_getElem?_sub.1 hmem
    exact ⟨number - first, line, fault, hget, hfault, by rw [Nat.add_sub_cancel' hle]⟩
  · rintro ⟨n, line, fault, hget, hfault, rfl⟩
    exact ⟨line, first + n, List.mk_add_mem_zipIdx_iff_getElem?.2 hget, fault, hfault, rfl⟩

/-- The line that a fault is reported for. -/
def faultyLine? : Except Error Entry → Option Nat
  | .error (.patternLine number _) => some number
  | _ => none

/-- Every line has at most one fault, and the lines are in order. -/
theorem faultyLines_sublist (first : Nat) (lines : List (List Char)) :
    ((ofLines defaults first lines).filterMap faultyLine?).Sublist
      (List.range' first lines.length) := by
  induction lines generalizing first with
  | nil => exact List.Sublist.slnil
  | cons line rest ih =>
    rw [ofLines_cons, List.filterMap_append, List.length_cons, List.range'_succ, ofNumberedLine?]
    obtain _ | fault | entry := ofLine? defaults line
    · exact (ih (first + 1)).cons first
    · exact (ih (first + 1)).cons_cons first
    · exact (ih (first + 1)).cons first

/-! ### Texts -/

/-- What the lines of a source have to do with each other: nothing but their numbers. -/
structure Linewise (defaults : List String) : Prop where
  /-- A text below another one has the same results, with its faults further down. -/
  append : ∀ upper lower : String,
    ofSource defaults (upper ++ "\n" ++ lower) =
      ofSource defaults upper ++
        (ofSource defaults lower).map (·.mapError (.shift (upper.toList.count '\n' + 1)))
  /-- What stands in a line has no part in what stands above and below its own result. -/
  single : ∀ before after : List String, (∀ line ∈ before ++ after, '\n' ∉ line.toList) →
    ∃ above below, ∀ line : String, '\n' ∉ line.toList →
      ofSource defaults ("\n".intercalate (before ++ line :: after)) =
        above ++ (ofNumberedLine? defaults line.toList (before.length + 1)).toList ++ below
  /-- A fault is reported with the number of its line, counted from one. -/
  fault : ∀ (text : String) (error : Error), .error error ∈ ofSource defaults text ↔
    ∃ n line fault, (Text.lines text.toList)[n]? = some line ∧
      ofLine? defaults line = some (.error fault) ∧ error = .patternLine (n + 1) fault.reason
  /-- The numbers increase. -/
  increasing : ∀ text : String,
    ((ofSource defaults text).filterMap faultyLine?).Pairwise (· < ·)
  /-- Blank lines and lines of comment move the others, and that is all they do. -/
  passedOver : ∀ text text' : String,
    (Text.lines text.toList).filter (!isPassedOver ·) =
      (Text.lines text'.toList).filter (!isPassedOver ·) →
    (ofSource defaults text).map (·.mapError Error.unnumbered) =
      (ofSource defaults text').map (·.mapError Error.unnumbered)
  /-- Line feeds with a carriage return before them do as well. -/
  returns : ∀ text : String,
    ofSource defaults (.ofList (Text.withReturns text.toList)) = ofSource defaults text

/-- The lines of a source are read one by one. -/
theorem linewise (defaults : List String) : Linewise defaults := by
  refine ⟨?_, ?_, ?_, ?_, ?_, ?_⟩
  · intro upper lower
    -- The line feed between the texts ends the last line of the upper one, empty or not.
    have hlines : Text.splitOn '\n' (upper ++ "\n" ++ lower).toList =
        Text.splitOn '\n' upper.toList ++ Text.splitOn '\n' lower.toList := by
      rw [String.toList_append, String.toList_append, List.append_assoc]
      exact Text.splitOn_append '\n' _ _
    rw [ofSource_eq, ofSource_eq, ofSource_eq, hlines, ofLines_append, Text.length_splitOn,
      ofLines_add]
  · intro before after hlines
    refine ⟨ofLines defaults 1 (before.map String.toList),
      ofLines defaults (1 + before.length + 1) (after.map String.toList), fun line hline => ?_⟩
    have hall : ∀ l ∈ before ++ line :: after, '\n' ∉ l.toList := by
      intro l hl
      obtain hbefore | rfl | hafter := by simpa using hl
      · exact hlines l (List.mem_append_left after hbefore)
      · exact hline
      · exact hlines l (List.mem_append_right before hafter)
    rw [ofSource_eq, Text.splitOn_intercalate rfl (by simp) hall, List.map_append, List.map_cons,
      ofLines_append, ofLines_cons, List.length_map, Nat.add_comm 1 before.length,
      List.append_assoc]
  · intro text error
    simp only [ofSource_eq_lines, error_mem_ofLines_iff, Nat.add_comm 1]
  · intro text
    rw [ofSource_eq]
    exact List.Pairwise.sublist (faultyLines_sublist 1 _) List.pairwise_lt_range'
  · intro text text' h
    rw [ofSource_eq_lines, ofSource_eq_lines, map_unnumbered_ofLines, map_unnumbered_ofLines, h]
  · intro text
    -- Every piece but the last one gets a carriage return, which is blank.
    rw [ofSource_eq, ofSource_eq, String.toList_ofList]
    exact ofLines_congr ((Text.splitOn_withReturns _).imp fun _ _ h => h.trim_eq) 1

/-- A comment above a text and a blank line in it move its fault to the fourth line, and a fault in
place of an entry leaves the other results. -/
theorem linewise_remarks :
    (ofSource [".com"] "ab\n; x").map (·.mapError Error.unnumbered) =
        (ofSource [".com"] "# two\nab\n\n; x").map (·.mapError Error.unnumbered) ∧
      ofSource [".com"] "# two\nab\n\n; x" =
        [.ok ⟨"ab", [".com"], none⟩,
          .error (.patternLine 4 "missing pattern before options")] ∧
      ∃ above below,
        ofSource [".com"] "ab\ncd\nef" = above ++ [.ok ⟨"cd", [".com"], none⟩] ++ below ∧
        ofSource [".com"] "ab\ncd;.io\nef" =
          above ++ [.error (.patternLine 2 "option '.io' is not key=value")] ++ below := by
  have h := linewise [".com"]
  obtain ⟨above, below, hline⟩ := h.single ["ab"] ["ef"] (by decide)
  exact ⟨h.passedOver _ _ (by decide), by decide, above, below, hline "cd" (by decide),
    hline "cd;.io" (by decide)⟩

end Entry

end NameHunt
