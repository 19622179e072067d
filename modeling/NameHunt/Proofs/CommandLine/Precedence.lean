import NameHunt.CommandLine.Session
import NameHunt.Proofs.Entry.Source
import NameHunt.Proofs.Settings.Merging
import NameHunt.Proofs.Settings.Variables

/-!
# Which source decides

Settings are written in a file, in variables and in arguments. For each of them the highest source
that writes it decides, and the standard holds if none does. Because whatever is valid is taken as
it is meant, nothing is left of what the lower sources write, and no setting has a part in another.

* `Arguments.written`, `Arguments.valid_of_fault?`: what arguments write, and that it is valid.
* `Settings.layered`: the settings that three sources come to.
* `Setting.highest?`: what the highest source writes.
* `Settings.get_layered`: the value of a setting.
* `Session.fileEntries_eq`, `Session.settings_eq`: the text with the patterns of a call, and its
  settings.
* `Settings.Precedence`, `Settings.layered_precedence`: what the sources decide.
-/

namespace NameHunt

namespace Arguments

/-- What arguments write for a setting. Extensions are for their own patterns only. -/
def written (a : Arguments) : (k : Setting) → Option k.Written
  | .concurrency => a.concurrency
  | .rate => a.rate
  | .timeout => a.timeout
  | .retries => a.retries
  | .cachePath => a.cache
  | .cacheCapacity => a.capacity
  | .checkpointEvery | .extensions => none

theorem written_layer (a : Arguments) (k : Setting) : a.layer.written k = a.written k := by
  cases k <;> rfl

/-- What arguments without a contradiction write is valid. -/
theorem valid_of_fault? {a : Arguments} (h : a.fault? = none) (k : Setting) :
    ∀ x ∈ a.written k, k.Valid x := by
  simp only [fault?, Setting.ite_some_eq_none_iff, Bool.not_eq_true] at h
  obtain ⟨-, -, -, hconcurrency, hrate, h⟩ := h
  split at h
  · cases h
  · rename_i htimeout
    have hcapacity : a.capacity ≠ some 0 := (Setting.ite_some_eq_none_iff.1 h).1
    cases k with
    | concurrency => exact Setting.any_concurrency_eq_false.1 hconcurrency
    | rate => exact Setting.any_rate_eq_false.1 hrate
    | timeout => exact Setting.filter_timeout_eq_none.1 htimeout
    | cacheCapacity => exact Setting.ne_some_zero_iff.1 hcapacity
    | retries | cachePath => exact fun _ _ => trivial
    | checkpointEvery | extensions =>
      intro x hx
      cases hx

end Arguments

section Sources

variable (file : FileSettings) (lookup : String → Option String) (a : Arguments)

/-- The settings that a file, variables and arguments come to. -/
def Settings.layered : Settings :=
  a.layer.apply ((EnvSettings.ofVariables lookup).layer.apply (file.layer.apply .standard))

/-- What is written for a setting in the highest source that writes something for it. -/
def Setting.highest? (k : Setting) : Option k.Written :=
  (a.written k).or ((EnvSettings.written lookup k).or (file.written k))

end Sources

variable {file : FileSettings} {lookup : String → Option String} {a : Arguments}

theorem Setting.valid_of_highest? (hfile : file.Valid) (ha : a.fault? = none) (k : Setting) :
    ∀ x ∈ k.highest? file lookup a, k.Valid x := by
  intro x hx
  obtain harguments | ⟨-, hlower⟩ := Option.or_eq_some_iff.1 hx
  · exact Arguments.valid_of_fault? ha k x harguments
  · obtain hvariable | ⟨-, hwritten⟩ := Option.or_eq_some_iff.1 hlower
    · exact EnvSettings.valid_of_written x hvariable
    · exact hfile k x hwritten

namespace Settings

/-- The value of a setting is up to what the sources write for it. -/
theorem get_layered (k : Setting) :
    (layered file lookup a).get k =
      ((a.written k).bind k.value?).getD
        (((EnvSettings.written lookup k).bind k.value?).getD
          (((file.written k).bind k.value?).getD (standard.get k))) := by
  rw [layered, Layer.get_apply, Layer.get_apply, FileSettings.get_apply_layer, Layer.value?,
    Layer.value?, Arguments.written_layer, EnvSettings.written_layer]

/-- The highest source that writes something decides. -/
theorem get_layered_eq_highest? (ha : a.fault? = none) (k : Setting) :
    (layered file lookup a).get k =
      ((k.highest? file lookup a).bind k.value?).getD (standard.get k) := by
  rw [get_layered, ← Setting.getD_value?_or EnvSettings.valid_of_written,
    ← Setting.getD_value?_or (Arguments.valid_of_fault? ha k), Setting.highest?]

theorem meaning?_of_highest? (hfile : file.Valid) (ha : a.fault? = none) {k : Setting}
    {x : k.Written} (h : k.highest? file lookup a = some x) :
    k.meaning? x = some ((layered file lookup a).get k) := by
  have hvalid := Setting.valid_of_highest? hfile ha k x h
  obtain ⟨value, hvalue⟩ := Option.isSome_iff_exists.1 (Setting.isSome_value? hvalid)
  rw [get_layered_eq_highest? ha, h, Option.bind_some, ← Setting.value?_eq_meaning? hvalid,
    hvalue, Option.getD_some]

end Settings

/-! ### The patterns of a call -/

namespace Session

/-- The text with the patterns of a call, which is empty if the arguments name no file. -/
def sourceText (w : World) : Option String → Except String String
  | none => .ok ""
  | some "-" =>
    (FileSystem.decodeText w.input).mapError fun _ => "stream did not contain valid UTF-8"
  | some path =>
    (w.files.readText path).mapError fun fault =>
      (Error.file path ("Failed to read pattern file: " ++ fault.reason)).message

theorem fileEntries_eq (w : World) (s : Settings) (a : Arguments) :
    fileEntries w s a = (sourceText w a.file).map (Entry.ofSource s.extensions) := by
  unfold fileEntries
  generalize a.file = source
  split
  · rfl
  · rw [sourceText]
    cases FileSystem.decodeText w.input <;> rfl
  · rename_i path hpath
    rw [Entry.load, sourceText]
    · cases w.files.readText path <;> rfl
    · exact hpath

/-- The settings of a call come from the file that is used, its variables and its arguments. -/
theorem settings_eq (w : World) (a : Arguments) :
    settings w a =
      (fileSettings w (chosenFile w a)).map fun file =>
        Settings.layered file w.environment a := by
  rw [settings]
  cases fileSettings w (chosenFile w a) <;> rfl

end Session

/-! ### What the sources decide -/

namespace Settings

/-- What a file, variables and arguments decide on settings and on the entries of a call. -/
structure Precedence (file : FileSettings) (lookup : String → Option String) (a : Arguments)
    (s : Settings) : Prop where
  /-- They are the settings of a call that uses the file and finds the variables. -/
  call : ∀ w, w.environment = lookup →
    Session.fileSettings w (Session.chosenFile w a) = .ok file → Session.settings w a = .ok s
  /-- What the highest source writes for a setting is taken as it is meant. -/
  written : ∀ k x, Setting.highest? file lookup a k = some x → k.meaning? x = some (s.get k)
  /-- A setting that no source writes is the standard one. -/
  unwritten : ∀ k, Setting.highest? file lookup a k = none → s.get k = standard.get k
  /-- A text that a variable does not accept counts as missing. -/
  missing : ∀ name, (∀ text ∈ lookup name, ¬ EnvSettings.Accepts name text) →
    EnvSettings.ofVariables (Function.update lookup name none) = EnvSettings.ofVariables lookup
  /-- A variable writes something for its own setting only. -/
  single : ∀ j name text, j.variableName? = some name → ∀ k ≠ j,
    EnvSettings.written (Function.update lookup name text) k = EnvSettings.written lookup k
  /-- Sources that write the same for a setting give it the same value, whatever they write for
  the others. -/
  apart : ∀ k file' lookup' a', file'.written k = file.written k →
    EnvSettings.written lookup' k = EnvSettings.written lookup k → a'.written k = a.written k →
    (layered file' lookup' a').get k = s.get k
  /-- The patterns among the arguments have the extensions among the arguments, or else those of
  the settings. -/
  patterns : (Session.argumentEntries s a).map Entry.pattern = a.patterns ∧
    ∀ entry ∈ Session.argumentEntries s a, entry.extensions = a.extensions.getD s.extensions
  /-- The text with the patterns is read with the extensions of the settings. -/
  source : ∀ w, Session.fileEntries w s a =
    (Session.sourceText w a.file).map (Entry.ofSource s.extensions)
  /-- The entries of a text are those of its lines, and they have the extensions that their lines
  give, or else those of the settings. -/
  lines : ∀ text : String,
    (Session.sift (Entry.ofSource s.extensions text)).1 =
      (Text.lines text.toList).filterMap (fun line =>
        (Entry.ofLine? s.extensions line).bind Except.toOption) ∧
    ∀ line entry, Entry.ofLine? s.extensions line = some (.ok entry) →
      entry.extensions = (Entry.ownExtensions? line).getD s.extensions
  /-- The extensions among the arguments have no part in the settings and in these entries. -/
  own : ∀ extensions, layered file lookup { a with extensions } = s ∧
    ∀ w, Session.fileEntries w s { a with extensions } = Session.fileEntries w s a

/-- A valid file, variables and arguments without a contradiction decide in this order, the
arguments first. -/
theorem layered_precedence (hfile : file.fault? = none) (ha : a.fault? = none) :
    Precedence file lookup a (layered file lookup a) := by
  rw [FileSettings.valid_iff] at hfile
  refine ⟨?_, fun k x => meaning?_of_highest? hfile ha, ?_, ?_, ?_, ?_, ⟨?_, ?_⟩, ?_, ?_, ?_⟩
  · rintro w rfl hload
    rw [Session.settings_eq, hload]
    rfl
  · intro k hnone
    rw [get_layered_eq_highest? ha, hnone]
    rfl
  · exact fun name => EnvSettings.ofVariables_update_none
  · intro j name text hname k hne
    refine EnvSettings.written_update_ne (fun hk => ?_) text
    exact hne (Setting.eq_of_variableName? hk hname)
  · intro k file' lookup' a' hfile' hlookup' ha'
    rw [get_layered, get_layered, hfile', hlookup', ha']
  · rw [Session.argumentEntries, List.map_map]
    exact List.map_id _
  · intro entry hentry
    obtain ⟨pattern, -, rfl⟩ := List.mem_map.1 hentry
    rfl
  · exact fun w => Session.fileEntries_eq w _ a
  · exact fun text =>
      ⟨Entry.filterMap_toOption_ofLines 1 _, fun _ _ => Entry.extensions_of_ofLine?⟩
  · -- Neither the layer of the arguments nor the text of their file reads their extensions.
    exact fun extensions => ⟨rfl, fun w => rfl⟩

/-- A settings file with something in every section. -/
def fileAtHome : FileSettings where
  defaults := some
    { concurrency := some 5, rate := some 20, timeout := some "2m", extensions := some [".io"] }
  cache := some { checkpointEvery := some 7 }

/-- Variables of which one is not valid. -/
def someVariables : String → Option String
  | "DS_CONCURRENCY" => some " +30 "
  | "DS_RATE" => some "0"
  | "DS_RETRIES" => some "99"
  | "DS_CAPACITY" => some "-4"
  | _ => none

/-- The file is below the variables, which are below the arguments. -/
theorem layered_precedence_home :
    let a : Arguments :=
      { patterns := ["ab"], extensions := some [".net"], timeout := some "3s" }
    let s := layered fileAtHome someVariables a
    s.concurrency = 30 ∧ s.rateLimit = none ∧ s.timeout = .ofSeconds 3 ∧ s.retries = 10 ∧
      s.checkpointEvery = 7 ∧ s.extensions = [".io"] ∧ s.cacheCapacity = standard.cacheCapacity ∧
      EnvSettings.ofVariables (Function.update someVariables "DS_CAPACITY" none) =
        EnvSettings.ofVariables someVariables ∧
      ∀ entry ∈ Session.argumentEntries s a, entry.extensions = [".net"] := by
  intro a s
  have hfile : fileAtHome.fault? = none := by decide
  have ha : a.fault? = none := by decide
  have h : Precedence fileAtHome someVariables a s := layered_precedence hfile ha
  refine ⟨?_, ?_, ?_, ?_, ?_, ?_, h.unwritten .cacheCapacity (by decide), ?_, h.patterns.2⟩
  · exact (Option.some.inj (h.written .concurrency 30 (by decide))).symm
  · exact (Option.some.inj (h.written .rate (0 : Nat) (by decide))).symm
  · exact (Option.some.inj (h.written .timeout "3s" (by decide))).symm
  · exact (Option.some.inj (h.written .retries (99 : Nat) (by decide))).symm
  · exact (Option.some.inj (h.written .checkpointEvery (7 : Nat) (by decide))).symm
  · exact (Option.some.inj (h.written .extensions [".io"] (by decide))).symm
  · refine h.missing "DS_CAPACITY" fun text htext => ?_
    obtain rfl := Option.some.inj htext
    rintro (⟨k, hname, hvalue⟩ | ⟨hname, -⟩)
    · obtain rfl : k = .cacheCapacity := Setting.eq_of_variableName? hname rfl
      exact absurd hvalue (by decide)
    · exact absurd hname (by decide)

end Settings

end NameHunt
