import NameHunt.Proofs.Settings.Layers
import NameHunt.Proofs.Text.Number
import NameHunt.Settings.Environment

/-!
# Settings from variables

A variable belongs to a setting, and its text is read as what is written for this setting. A text
that is not valid counts as if the variable was missing.

* `Setting.variableName?`, `Setting.ofText?`: the variable of a setting, and what its text writes.
* `EnvSettings.written`: what the variables write for a setting.
* `EnvSettings.written_layer`: that is what their layer writes.
* `EnvSettings.ofVariables_update_none`: a text that is not accepted might as well be missing.
-/

namespace NameHunt

namespace Setting

instance decidableValid : (k : Setting) → (written : k.Written) → Decidable (k.Valid written)
  | concurrency, n => inferInstanceAs (Decidable (1 ≤ n ∧ n ≤ Settings.maxConcurrency))
  | rate, n => inferInstanceAs (Decidable (n ≤ Settings.maxRate))
  | timeout, words => inferInstanceAs (Decidable ((Timeout.read? words).isSome))
  | cacheCapacity, n | checkpointEvery, n => inferInstanceAs (Decidable (0 < n))
  | extensions, list => inferInstanceAs (Decidable (Extension.listFault? list = none))
  | retries, _ | cachePath, _ => inferInstanceAs (Decidable True)

/-- The variable of a setting. -/
def variableName? : Setting → Option String
  | concurrency => some "DS_CONCURRENCY"
  | rate => some "DS_RATE"
  | timeout => some "DS_TIMEOUT"
  | retries => some "DS_RETRIES"
  | cachePath => some "DS_CACHE"
  | cacheCapacity => some "DS_CAPACITY"
  | extensions => some "DS_EXT"
  | checkpointEvery => none

/-- No two settings share a variable. -/
theorem eq_of_variableName? {j k : Setting} {name : String} (hj : j.variableName? = some name)
    (hk : k.variableName? = some name) : j = k := by
  have hall : ∀ j k : Setting, j.variableName? ≠ none →
      j.variableName? = k.variableName? → j = k := by
    intro j k
    cases j <;> cases k <;> decide
  exact hall j k (hj ▸ Option.some_ne_none name) (hj.trans hk.symm)

/-- What a text writes for a setting, valid or not. Numbers have the width of the setting. -/
def read? : (k : Setting) → String → Option k.Written
  | concurrency, text | cacheCapacity, text | checkpointEvery, text =>
    EnvSettings.number? Text.max64 text
  | rate, text | retries, text => EnvSettings.number? Text.max32 text
  | timeout, text => some text
  | cachePath, text => EnvSettings.nonblank? text
  | extensions, text => some (Text.items text.toList)

/-- What a text writes for a setting, if it is valid. -/
def ofText? (k : Setting) (text : String) : Option k.Written :=
  (k.read? text).filter fun written => k.Valid written

/-- Where everything is valid, a text writes what is read. -/
theorem ofText?_eq_read? (k : Setting) (h : ∀ written, k.Valid written) (text : String) :
    k.ofText? text = k.read? text := by
  unfold ofText?
  cases k.read? text with
  | none => rfl
  | some written => exact Option.filter_some_pos (decide_eq_true (h written))

theorem valid_of_ofText? {k : Setting} {text : String} {written : k.Written}
    (h : k.ofText? text = some written) : k.Valid written :=
  of_decide_eq_true (Option.filter_eq_some_iff.1 h).2

end Setting

namespace EnvSettings

/-- What the variables write for a setting. -/
def written (lookup : String → Option String) (k : Setting) : Option k.Written :=
  (k.variableName?.bind lookup).bind k.ofText?

theorem valid_of_written {lookup : String → Option String} {k : Setting} :
    ∀ x ∈ written lookup k, k.Valid x := by
  intro x hx
  obtain ⟨text, -, htext⟩ := Option.bind_eq_some_iff.1 hx
  exact Setting.valid_of_ofText? htext

/-! ### What is read of a text -/

theorem number?_eq_filter {bound larger : Nat} (h : bound ≤ larger) (text : String) :
    number? bound text = (number? larger text).filter (· ≤ bound) :=
  Text.readUnsigned?_eq_filter h _

theorem ofText?_concurrency (text : String) :
    Setting.concurrency.ofText? text =
      (number? Settings.maxConcurrency text).filter (0 < ·) := by
  rw [number?_eq_filter (by decide : Settings.maxConcurrency ≤ Text.max64), Option.filter_filter]
  refine congrArg (fun p => Option.filter p (number? Text.max64 text)) (funext fun n => ?_)
  exact (Bool.decide_and _ _).trans (Bool.and_comm _ _)

theorem ofText?_rate (text : String) :
    Setting.rate.ofText? text = number? Settings.maxRate text :=
  (number?_eq_filter (by decide : Settings.maxRate ≤ Text.max32) text).symm

theorem ofText?_retries (text : String) :
    Setting.retries.ofText? text = number? Text.max32 text :=
  Setting.ofText?_eq_read? .retries (fun _ => trivial) text

theorem ofText?_cachePath (text : String) : Setting.cachePath.ofText? text = nonblank? text :=
  Setting.ofText?_eq_read? .cachePath (fun _ => trivial) text

theorem ofText?_timeout (text : String) :
    Setting.timeout.ofText? text =
      (some text).filter fun words => (Timeout.read? words).isSome :=
  congrArg (fun p => Option.filter p (some text)) (funext fun _ => Bool.decide_eq_true)

theorem ofText?_cacheCapacity (text : String) :
    Setting.cacheCapacity.ofText? text = (number? Text.max64 text).filter (0 < ·) :=
  congrArg (fun p => Option.filter p (number? Text.max64 text)) (funext fun _ => rfl)

theorem ofText?_extensions (text : String) :
    Setting.extensions.ofText? text = extensions? text := by
  rw [extensions?]
  cases hfault : Extension.listFault? (Text.items text.toList) with
  | none => exact Option.filter_some_pos (decide_eq_true hfault)
  | some error =>
    refine Option.filter_some_neg (decide_eq_false fun hvalid => ?_)
    exact Option.some_ne_none error (hfault.symm.trans hvalid)

theorem bind_eq_written {lookup : String → Option String} (k : Setting) {name : String}
    {f : String → Option k.Written} (hname : k.variableName? = some name)
    (hf : ∀ text, f text = k.ofText? text) : (lookup name).bind f = written lookup k := by
  rw [written, hname, Option.bind_some, funext hf]

theorem filter_bind_eq_written {lookup : String → Option String} (k : Setting) {name : String}
    {f : String → Option k.Written} {p : k.Written → Bool} (hname : k.variableName? = some name)
    (hf : ∀ text, (f text).filter p = k.ofText? text) :
    ((lookup name).bind f).filter p = written lookup k := by
  rw [← bind_eq_written k hname hf]
  cases lookup name <;> rfl

/-- The layer of the variables writes what they write one by one. -/
theorem written_layer (lookup : String → Option String) (k : Setting) :
    (ofVariables lookup).layer.written k = written lookup k := by
  cases k with
  | checkpointEvery => rfl
  | concurrency =>
    exact filter_bind_eq_written .concurrency rfl fun text => (ofText?_concurrency text).symm
  | rate => exact bind_eq_written .rate rfl fun text => (ofText?_rate text).symm
  | timeout =>
    rw [← filter_bind_eq_written .timeout rfl fun text => (ofText?_timeout text).symm,
      Option.bind_fun_some]
    rfl
  | retries => exact bind_eq_written .retries rfl fun text => (ofText?_retries text).symm
  | cachePath => exact bind_eq_written .cachePath rfl fun text => (ofText?_cachePath text).symm
  | cacheCapacity =>
    exact filter_bind_eq_written .cacheCapacity rfl fun text => (ofText?_cacheCapacity text).symm
  | extensions => exact bind_eq_written .extensions rfl fun text => (ofText?_extensions text).symm

/-! ### Variables one by one -/

theorem written_update_self {lookup : String → Option String} {k : Setting} {name : String}
    (hname : k.variableName? = some name) (text : Option String) :
    written (Function.update lookup name text) k = text.bind k.ofText? := by
  rw [written, hname, Option.bind_some, Function.update_self]

/-- A variable says nothing about the settings that it does not belong to. -/
theorem written_update_ne {lookup : String → Option String} {k : Setting} {name : String}
    (hname : k.variableName? ≠ some name) (text : Option String) :
    written (Function.update lookup name text) k = written lookup k := by
  unfold written
  cases hk : k.variableName? with
  | none => rfl
  | some other =>
    have hne : other ≠ name := fun h => hname (hk.trans (congrArg some h))
    rw [Option.bind_some, Option.bind_some, Function.update_of_ne hne]

/-- What variables give is what they write for the settings, and the path of a file. -/
theorem ext_written {e f : EnvSettings} (h : ∀ k, e.layer.written k = f.layer.written k)
    (hfile : e.file = f.file) : e = f := by
  obtain ⟨⟩ := e
  obtain ⟨⟩ := f
  rw [mk.injEq]
  exact ⟨h .concurrency, h .rate, h .timeout, h .retries, h .cachePath, h .cacheCapacity,
    h .extensions, hfile⟩

/-- Whether a text in a variable counts. -/
def Accepts (name text : String) : Prop :=
  (∃ k : Setting, k.variableName? = some name ∧ (k.ofText? text).isSome) ∨
    name = "DS_CONFIG" ∧ (nonblank? text).isSome

/-- A text that does not count might as well be missing. -/
theorem ofVariables_update_none {lookup : String → Option String} {name : String}
    (h : ∀ text ∈ lookup name, ¬ Accepts name text) :
    ofVariables (Function.update lookup name none) = ofVariables lookup := by
  refine ext_written (fun k => ?_) ?_
  · rw [written_layer, written_layer]
    by_cases hname : k.variableName? = some name
    · have hnone : (lookup name).bind k.ofText? = none :=
        Option.bind_eq_none_iff.2 fun text htext =>
          Option.not_isSome_iff_eq_none.1 fun hsome => h text htext (.inl ⟨k, hname, hsome⟩)
      rw [written_update_self hname, Option.bind_none, ← hnone]
      exact bind_eq_written k hname fun _ => rfl
    · exact written_update_ne hname none
  · by_cases hname : name = "DS_CONFIG"
    · subst hname
      have hnone : (lookup "DS_CONFIG").bind nonblank? = none :=
        Option.bind_eq_none_iff.2 fun text htext =>
          Option.not_isSome_iff_eq_none.1 fun hsome => h text htext (.inr ⟨rfl, hsome⟩)
      exact hnone.symm
    · show (Function.update lookup name none "DS_CONFIG").bind nonblank? = _
      rw [Function.update_of_ne (Ne.symm hname)]
      rfl

end EnvSettings

end NameHunt
