import NameHunt.Pattern.Grammar
import NameHunt.Settings.Layer
import NameHunt.Text.Items

/-!
# Settings from the environment

* `EnvSettings`: the values of the variables that start with `DS_`.
* `EnvSettings.ofVariables`: the values that are valid; an invalid one counts as missing.
* `EnvSettings.layer`: the values as a layer.
-/

namespace NameHunt

/-- The values of the variables. -/
structure EnvSettings where
  concurrency : Option Nat := none
  rate : Option Nat := none
  timeout : Option String := none
  retries : Option Nat := none
  cachePath : Option String := none
  cacheCapacity : Option Nat := none
  extensions : Option (List String) := none
  /-- The path of a settings file to be used in place of those that are found. -/
  file : Option String := none
  deriving Repr, DecidableEq

namespace EnvSettings

/-- A number up to `bound`, with blanks around it. -/
def number? (bound : Nat) (value : String) : Option Nat :=
  Text.readUnsigned? bound (Text.trim value.toList)

/-- A text that is not blank, without the blanks around it. -/
def nonblank? (value : String) : Option String :=
  let text := Text.strip value
  if text.isEmpty then none else some text

/-- A list of extensions without a fault. -/
def extensions? (value : String) : Option (List String) :=
  let extensions := Text.items value.toList
  if (Extension.listFault? extensions).isNone then some extensions else none

/-- The valid values. -/
def ofVariables (lookup : String → Option String) : EnvSettings where
  concurrency := ((lookup "DS_CONCURRENCY").bind (number? Settings.maxConcurrency)).filter (0 < ·)
  rate := (lookup "DS_RATE").bind (number? Settings.maxRate)
  timeout := (lookup "DS_TIMEOUT").filter fun words => (Timeout.read? words).isSome
  retries := (lookup "DS_RETRIES").bind (number? Text.max32)
  cachePath := (lookup "DS_CACHE").bind nonblank?
  cacheCapacity := ((lookup "DS_CAPACITY").bind (number? Text.max64)).filter (0 < ·)
  extensions := (lookup "DS_EXT").bind extensions?
  file := (lookup "DS_CONFIG").bind nonblank?

/-- The values as a layer. -/
def layer (env : EnvSettings) : Layer where
  concurrency := env.concurrency
  rate := env.rate
  timeout := env.timeout
  retries := env.retries
  cachePath := env.cachePath
  cacheCapacity := env.cacheCapacity
  extensions := env.extensions

end EnvSettings

end NameHunt
