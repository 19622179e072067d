import Mathlib
import NameHunt.Pattern.Grammar
import NameHunt.Settings.Layer

/-!
# Settings one by one

A layer writes something for some of the settings. What it writes for one of them decides on the
value of that one and on no other, and what is written within its range is taken as it is.

* `Setting`: what can be set, with what is written for it and the values it has.
* `Setting.Valid`: what may be written.
* `Setting.value?`, `Setting.meaning?`: the value that is taken, and the value that is meant.
* `Settings.get`, `Layer.written`: the settings and a layer, one setting at a time.
* `Layer.get_apply`: the value of a setting after a layer.
-/

namespace NameHunt

/-- What can be set. -/
inductive Setting where
  | concurrency
  | rate
  | timeout
  | retries
  | cachePath
  | cacheCapacity
  | checkpointEvery
  | extensions
  deriving Repr, DecidableEq

namespace Setting

/-- What is written for a setting. -/
abbrev Written : Setting → Type
  | concurrency | rate | retries | cacheCapacity | checkpointEvery => Nat
  | timeout | cachePath => String
  | extensions => List String

/-- What the settings hold for it. A rate may be no limit at all. -/
abbrev Value : Setting → Type
  | concurrency | retries | cacheCapacity | checkpointEvery => Nat
  | rate => Option Nat
  | timeout => Duration
  | cachePath => String
  | extensions => List String

/-- What may be written for a setting. -/
def Valid : (k : Setting) → k.Written → Prop
  | concurrency, n => 1 ≤ n ∧ n ≤ Settings.maxConcurrency
  | rate, n => n ≤ Settings.maxRate
  | timeout, words => (Timeout.read? words).isSome
  | cacheCapacity, n | checkpointEvery, n => 0 < n
  | extensions, list => Extension.listFault? list = none
  | retries, _ | cachePath, _ => True

/-- The value that is taken of what is written. -/
def value? : (k : Setting) → k.Written → Option k.Value
  | concurrency, n => some (min (max n 1) Settings.maxConcurrency)
  | rate, n => some (if n = 0 then none else some (min n Settings.maxRate))
  | timeout, words => (Timeout.read? words).map .ofSeconds
  | retries, n => some (min n Settings.maxRetries)
  | cachePath, path => some path
  | cacheCapacity, n | checkpointEvery, n => some (max n 1)
  | extensions, list => some list

/-- The value that is meant by what is written: the same, but for a number of retries that is too
large, a rate of zero, which is no limit, and words for a timeout. -/
def meaning? : (k : Setting) → k.Written → Option k.Value
  | concurrency, n | cacheCapacity, n | checkpointEvery, n => some n
  | rate, n => some (if n = 0 then none else some n)
  | timeout, words => (Timeout.read? words).map .ofSeconds
  | retries, n => some (min n Settings.maxRetries)
  | cachePath, path => some path
  | extensions, list => some list

/-- What may be written is taken as it is meant. -/
theorem value?_eq_meaning? {k : Setting} {written : k.Written} (h : k.Valid written) :
    k.value? written = k.meaning? written := by
  cases k with
  | concurrency =>
    obtain ⟨hmin, hmax⟩ := h
    exact congrArg some (by rw [max_eq_left hmin, min_eq_left hmax])
  | rate => exact congrArg some (by rw [min_eq_left h])
  | cacheCapacity | checkpointEvery => exact congrArg some (max_eq_left h)
  | timeout | retries | cachePath | extensions => rfl

/-- What may be written has a value. -/
theorem isSome_value? {k : Setting} {written : k.Written} (h : k.Valid written) :
    (k.value? written).isSome := by
  cases k with
  | timeout => exact Option.isSome_map.trans h
  | concurrency | rate | retries | cachePath | cacheCapacity | checkpointEvery | extensions => rfl

/-- Of two things that are written the first one alone counts, if it may be written. -/
theorem getD_value?_or {k : Setting} {upper lower : Option k.Written}
    (h : ∀ written ∈ upper, k.Valid written) {value : k.Value} :
    ((upper.or lower).bind k.value?).getD value =
      (upper.bind k.value?).getD ((lower.bind k.value?).getD value) := by
  cases upper with
  | none => rfl
  | some written =>
    obtain ⟨value', hvalue⟩ := Option.isSome_iff_exists.1 (isSome_value? (h written rfl))
    rw [Option.some_or, Option.bind_some, hvalue]
    rfl

/-! ### Checks of what is written -/

/-- A check finds nothing if it does not apply and the checks after it find nothing. -/
theorem ite_some_eq_none_iff {α : Type} {c : Prop} [Decidable c] {fault : α} {rest : Option α} :
    (if c then some fault else rest) = none ↔ ¬c ∧ rest = none := by
  split <;> simp [*]

theorem any_concurrency_eq_false {written : Option Nat} :
    (written.any fun n => n = 0 ∨ Settings.maxConcurrency < n) = false ↔
      ∀ n ∈ written, concurrency.Valid n := by
  rw [Option.any_eq_false]
  refine forall₂_congr fun n _ => ?_
  rw [decide_eq_false_iff_not]
  show ¬(n = 0 ∨ Settings.maxConcurrency < n) ↔ 1 ≤ n ∧ n ≤ Settings.maxConcurrency
  omega

theorem any_rate_eq_false {written : Option Nat} :
    written.any (Settings.maxRate < ·) = false ↔ ∀ n ∈ written, rate.Valid n := by
  rw [Option.any_eq_false]
  refine forall₂_congr fun n _ => ?_
  rw [decide_eq_false_iff_not, Nat.not_lt]
  rfl

theorem filter_timeout_eq_none {written : Option String} :
    (written.filter fun words => (Timeout.read? words).isNone) = none ↔
      ∀ words ∈ written, timeout.Valid words := by
  rw [Option.filter_eq_none_iff]
  refine forall₂_congr fun words _ => ?_
  rw [Bool.not_eq_true, Option.isNone_eq_false_iff]
  rfl

theorem ne_some_zero_iff {written : Option Nat} : written ≠ some 0 ↔ ∀ n ∈ written, 0 < n := by
  cases written with
  | none => simp
  | some n => simp [Nat.pos_iff_ne_zero]

theorem bind_listFault?_eq_none {written : Option (List String)} :
    written.bind Extension.listFault? = none ↔ ∀ list ∈ written, extensions.Valid list :=
  Option.bind_eq_none_iff

end Setting

/-! ### Settings and layers -/

namespace Settings

/-- The value of a setting. -/
def get (s : Settings) : (k : Setting) → k.Value
  | .concurrency => s.concurrency
  | .rate => s.rateLimit
  | .timeout => s.timeout
  | .retries => s.retries
  | .cachePath => s.cachePath
  | .cacheCapacity => s.cacheCapacity
  | .checkpointEvery => s.checkpointEvery
  | .extensions => s.extensions

/-- Settings are all there is to them. -/
theorem ext_get {s t : Settings} (h : ∀ k, s.get k = t.get k) : s = t := by
  obtain ⟨⟩ := s
  obtain ⟨⟩ := t
  rw [mk.injEq]
  exact ⟨h .concurrency, h .rate, h .timeout, h .retries, h .cacheCapacity, h .checkpointEvery,
    h .cachePath, h .extensions⟩

/-- The settings with another value of one of them, if there is one. -/
def given (s : Settings) : (k : Setting) → Option k.Value → Settings
  | .concurrency, value => { s with concurrency := value.getD s.concurrency }
  | .rate, value => { s with rateLimit := value.getD s.rateLimit }
  | .timeout, value => { s with timeout := value.getD s.timeout }
  | .retries, value => { s with retries := value.getD s.retries }
  | .cachePath, value => { s with cachePath := value.getD s.cachePath }
  | .cacheCapacity, value => { s with cacheCapacity := value.getD s.cacheCapacity }
  | .checkpointEvery, value => { s with checkpointEvery := value.getD s.checkpointEvery }
  | .extensions, value => { s with extensions := value.getD s.extensions }

theorem get_given_self (s : Settings) (k : Setting) (value : Option k.Value) :
    (s.given k value).get k = value.getD (s.get k) := by
  cases k <;> rfl

theorem get_given_ne (s : Settings) {j k : Setting} (h : j ≠ k) (value : Option j.Value) :
    (s.given j value).get k = s.get k := by
  cases j <;> cases k
  all_goals simp only [ne_eq, reduceCtorEq, not_true_eq_false, not_false_eq_true] at h
  all_goals rfl

theorem given_none (s : Settings) (k : Setting) : s.given k none = s := by
  cases k <;> rfl

/-- A change of one setting, if there is something to change it to. -/
theorem changed_eq_given {α : Type} (k : Setting) (change : Settings → α → Settings)
    (f : α → Option k.Value) (h : ∀ s x, change s x = s.given k (f x)) (s : Settings)
    (written : Option α) : s.changed change written = s.given k (written.bind f) := by
  cases written with
  | none => exact (s.given_none k).symm
  | some x => exact h s x

end Settings

namespace Layer

open Settings (changed_eq_given)

/-- What a layer writes for a setting. -/
def written (layer : Layer) : (k : Setting) → Option k.Written
  | .concurrency => layer.concurrency
  | .rate => layer.rate
  | .timeout => layer.timeout
  | .retries => layer.retries
  | .cachePath => layer.cachePath
  | .cacheCapacity => layer.cacheCapacity
  | .checkpointEvery => layer.checkpointEvery
  | .extensions => layer.extensions

/-- The value that a layer gives to a setting. -/
def value? (layer : Layer) (k : Setting) : Option k.Value :=
  (layer.written k).bind k.value?

/-- A layer gives its values one after the other. -/
theorem apply_eq (layer : Layer) (s : Settings) :
    layer.apply s =
      ((((((((s.given .concurrency (layer.value? .concurrency)).given .rate
        (layer.value? .rate)).given .timeout (layer.value? .timeout)).given .retries
        (layer.value? .retries)).given .cachePath (layer.value? .cachePath)).given .cacheCapacity
        (layer.value? .cacheCapacity)).given .checkpointEvery
        (layer.value? .checkpointEvery)).given .extensions (layer.value? .extensions)) := by
  have htimeout : layer.timeout?.bind some = layer.value? .timeout := by
    rw [Option.bind_fun_some, timeout?, Option.map_bind]
    rfl
  rw [apply, changed_eq_given _ .withConcurrency (Setting.value? .concurrency) fun _ _ => rfl,
    changed_eq_given _ .withRate (Setting.value? .rate) fun _ _ => rfl,
    changed_eq_given .timeout .withTimeout some fun _ _ => rfl, htimeout,
    changed_eq_given _ .withRetries (Setting.value? .retries) fun _ _ => rfl,
    changed_eq_given _ .withCachePath (Setting.value? .cachePath) fun _ _ => rfl,
    changed_eq_given _ .withCacheCapacity (Setting.value? .cacheCapacity) fun _ _ => rfl,
    changed_eq_given _ .withCheckpointEvery (Setting.value? .checkpointEvery) fun _ _ => rfl,
    changed_eq_given _ .withExtensions (Setting.value? .extensions) fun _ _ => rfl]
  rfl

/-- A setting has the value that the layer gives it, or else the one it had. -/
theorem get_apply (layer : Layer) (s : Settings) (k : Setting) :
    (layer.apply s).get k = (layer.value? k).getD (s.get k) := by
  rw [apply_eq]
  cases k <;> simp (disch := decide) only [Settings.get_given_self, Settings.get_given_ne]

end Layer

end NameHunt
