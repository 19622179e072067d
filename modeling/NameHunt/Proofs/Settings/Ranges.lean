import NameHunt.Proofs.CommandLine.Precedence

/-!
# The ranges of settings

A layer may write anything. What is taken of it lies in the range of its setting, and a value that
is not written stays, so settings in their ranges stay in them under any row of layers. Because the
value that is taken is up to the layer alone, a layer that has been applied changes nothing when it
is applied again.

* `Setting.InRange`, `Settings.inRange_iff`: the range of a setting, and settings in their ranges.
* `Setting.inRange_of_value?`: what is taken of what is written is in its range.
* `Layer.inRange_apply`, `Layer.apply_apply`: what a layer does to the ranges, and a layer twice.
* `Source`, `Settings.under`: where layers come from, and settings under a row of them.
* `Settings.Confined`, `Settings.confined`: the settings under every row.
-/

namespace NameHunt

namespace Setting

/-- The values that a setting may have. -/
def InRange : (k : Setting) → k.Value → Prop
  | concurrency, n => 1 ≤ n ∧ n ≤ Settings.maxConcurrency
  | rate, limit => ∀ n ∈ limit, 1 ≤ n ∧ n ≤ Settings.maxRate
  | timeout, span => ∃ n, 1 ≤ n ∧ span = .ofSeconds n
  | retries, n => n ≤ Settings.maxRetries
  | cacheCapacity, n | checkpointEvery, n => 1 ≤ n
  | cachePath, _ | extensions, _ => True

/-- What is taken of what is written is in its range, valid or not. -/
theorem inRange_of_value? {k : Setting} {written : k.Written} {value : k.Value}
    (h : k.value? written = some value) : k.InRange value := by
  cases k with
  | concurrency =>
    obtain rfl := Option.some.inj h
    exact ⟨le_min (le_max_right written 1) (by decide), min_le_right _ _⟩
  | rate =>
    obtain rfl := Option.some.inj h
    intro n hn
    obtain ⟨hpos, hn⟩ := Option.ite_none_left_eq_some.1 hn
    obtain rfl := Option.some.inj hn
    exact ⟨le_min (Nat.pos_of_ne_zero hpos) (by decide), min_le_right _ _⟩
  | timeout =>
    obtain ⟨n, hread, rfl⟩ := Option.map_eq_some_iff.1 h
    exact ⟨n, of_decide_eq_true (Option.filter_eq_some_iff.1 hread).2, rfl⟩
  | retries =>
    obtain rfl := Option.some.inj h
    exact min_le_right _ _
  | cacheCapacity | checkpointEvery =>
    obtain rfl := Option.some.inj h
    exact le_max_right _ _
  | cachePath | extensions => trivial

end Setting

/-- The ranges one setting at a time. -/
theorem Settings.inRange_iff {s : Settings} : s.InRange ↔ ∀ k : Setting, k.InRange (s.get k) := by
  constructor
  · intro h k
    cases k with
    | concurrency => exact h.concurrency
    | rate => exact h.rateLimit
    | timeout => exact h.timeout
    | retries => exact h.retries
    | cacheCapacity => exact h.cacheCapacity
    | checkpointEvery => exact h.checkpointEvery
    | cachePath | extensions => trivial
  · intro h
    exact ⟨h .concurrency, h .rate, h .timeout, h .retries, h .cacheCapacity, h .checkpointEvery⟩

theorem Settings.inRange_standard : standard.InRange where
  concurrency := by decide
  rateLimit := nofun
  timeout := ⟨5, by decide, rfl⟩
  retries := by decide
  cacheCapacity := by decide
  checkpointEvery := by decide

namespace Layer

/-- A layer leaves settings in their ranges. -/
theorem inRange_apply (layer : Layer) {s : Settings} (h : s.InRange) : (layer.apply s).InRange := by
  rw [Settings.inRange_iff] at h ⊢
  intro k
  rw [get_apply]
  cases hvalue : layer.value? k with
  | none => exact h k
  | some value =>
    obtain ⟨written, -, htaken⟩ := Option.bind_eq_some_iff.1 hvalue
    exact Setting.inRange_of_value? htaken

/-- A layer that has been applied changes nothing when it is applied again. -/
theorem apply_apply (layer : Layer) (s : Settings) :
    layer.apply (layer.apply s) = layer.apply s := by
  refine Settings.ext_get fun k => ?_
  rw [get_apply, get_apply]
  cases layer.value? k <;> rfl

end Layer

/-! ### Rows of layers -/

/-- Where a layer comes from. Nothing is said about the values in it. -/
inductive Source where
  | file (values : FileSettings)
  | environment (values : EnvSettings)
  | arguments (values : Arguments)

/-- The layer of a source. -/
def Source.layer : Source → Layer
  | file values => values.layer
  | environment values => values.layer
  | arguments values => values.layer

namespace Settings

/-- The settings with the layers of some sources, from the first source to the last. -/
def under (s : Settings) (sources : List Source) : Settings :=
  sources.foldl (fun s source => source.layer.apply s) s

/-- Settings in their ranges stay there under any row of sources. -/
theorem InRange.under {s : Settings} (h : s.InRange) (sources : List Source) :
    (s.under sources).InRange := by
  induction sources generalizing s with
  | nil => exact h
  | cons source sources ih => exact ih (source.layer.inRange_apply h)

/-- The settings of a call are the standard ones under its file, its variables and its arguments. -/
theorem settings_eq_under (w : World) (a : Arguments) :
    Session.settings w a =
      (Session.fileSettings w (Session.chosenFile w a)).map fun file =>
        standard.under
          [.file file, .environment (EnvSettings.ofVariables w.environment), .arguments a] :=
  Session.settings_eq w a

/-- Where the settings stay, whatever the layers hold. -/
structure Confined : Prop where
  inRange : ∀ sources, (standard.under sources).InRange
  /-- A layer twice in a row is the layer once. -/
  again : ∀ (s : Settings) source, s.under [source, source] = s.under [source]
  /-- The settings of a call come from such a row. -/
  call : ∀ w a, Session.settings w a =
    (Session.fileSettings w (Session.chosenFile w a)).map fun file =>
      standard.under
        [.file file, .environment (EnvSettings.ofVariables w.environment), .arguments a]
  /-- A hunt may have a look-up under way, and it saves its cache only after an answer. -/
  hunt : ∀ sources store, 1 ≤ (Session.rules (standard.under sources) store).concurrency ∧
    1 ≤ (Session.rules (standard.under sources) store).checkpointEvery

theorem confined : Confined where
  inRange := inRange_standard.under
  again := fun s source => source.layer.apply_apply s
  call := settings_eq_under
  hunt := by
    intro sources store
    have h : (standard.under sources).InRange := inRange_standard.under sources
    exact ⟨h.concurrency.1, h.checkpointEvery⟩

/-- Values out of their ranges are brought into them, and words without a meaning are passed
over. -/
example :
    standard.under
      [.arguments { rate := some 70000, timeout := some "2m", capacity := some 0 },
        .environment { concurrency := some 0, timeout := some "0s", retries := some 99 },
        .file { cache := some { checkpointEvery := some 0 } }] =
      { standard with
        concurrency := 1, rateLimit := some 10000, timeout := .ofSeconds 120, retries := 10,
        cacheCapacity := 1, checkpointEvery := 1 } := by
  decide

end Settings

end NameHunt
