import NameHunt.Settings.Basic
import NameHunt.Settings.Timeout

/-!
# Layers of settings

Settings are put together in layers: the standard ones, then those of files, of the environment and
of the command line. A layer gives some values and leaves the others as they are.

* `Layer`: the values that a layer gives.
* `Layer.apply`: the settings with the values of a layer.
* `Settings.changed`: the settings with one value, if it is given.
-/

namespace NameHunt

/-- The values that a layer gives. -/
structure Layer where
  concurrency : Option Nat := none
  /-- Look-ups started in a second; zero stands for no limit. -/
  rate : Option Nat := none
  /-- The timeout in words; words without a meaning give no value. -/
  timeout : Option String := none
  retries : Option Nat := none
  cachePath : Option String := none
  cacheCapacity : Option Nat := none
  checkpointEvery : Option Nat := none
  extensions : Option (List String) := none
  deriving Repr, DecidableEq

/-- The settings with one value, if it is given. -/
def Settings.changed {α : Type} (s : Settings) (change : Settings → α → Settings) :
    Option α → Settings
  | some value => change s value
  | none => s

namespace Layer

/-- The timeout that the words of a layer stand for. -/
def timeout? (layer : Layer) : Option Duration :=
  (layer.timeout.bind Timeout.read?).map .ofSeconds

/-- The settings with the values of a layer. -/
def apply (layer : Layer) (s : Settings) : Settings :=
  ((((((((s.changed .withConcurrency layer.concurrency).changed .withRate layer.rate).changed
    .withTimeout layer.timeout?).changed .withRetries layer.retries).changed
    .withCachePath layer.cachePath).changed .withCacheCapacity layer.cacheCapacity).changed
    .withCheckpointEvery layer.checkpointEvery).changed .withExtensions layer.extensions)

end Layer

end NameHunt
