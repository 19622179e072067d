import NameHunt.Duration

/-!
# Settings

* `Settings`: what governs a hunt.
* `Settings.standard`: the settings that hold when nothing else is said.
* `Settings.withConcurrency` and the others: the settings with one value changed; a value outside
  its range is brought into it.
* `Settings.InRange`: all values are in their ranges.
-/

namespace NameHunt

/-- What governs a hunt. -/
structure Settings where
  /-- How many look-ups may be under way at once. -/
  concurrency : Nat
  /-- How many look-ups may start in a second, if there is a limit. -/
  rateLimit : Option Nat
  timeout : Duration
  /-- How often a look-up is repeated after a fault that may pass. -/
  retries : Nat
  /-- The capacity of a new cache. -/
  cacheCapacity : Nat
  /-- After how many answers the cache is saved. -/
  checkpointEvery : Nat
  cachePath : String
  /-- The extensions of patterns that name none. -/
  extensions : List String
  deriving Repr, DecidableEq

namespace Settings

def maxConcurrency : Nat := 100

def maxRate : Nat := 10000

def maxRetries : Nat := 10

/-- The settings that hold when nothing else is said. -/
def standard : Settings where
  concurrency := 10
  rateLimit := none
  timeout := .ofSeconds 5
  retries := 1
  cacheCapacity := 10000000
  checkpointEvery := 1000
  cachePath := "domain-scout.cache"
  extensions := [".com"]

/-- A concurrency from one to `maxConcurrency`. -/
def withConcurrency (s : Settings) (n : Nat) : Settings :=
  { s with concurrency := min (max n 1) maxConcurrency }

/-- A rate up to `maxRate`; zero takes the limit away. -/
def withRate (s : Settings) (n : Nat) : Settings :=
  { s with rateLimit := if n = 0 then none else some (min n maxRate) }

def withTimeout (s : Settings) (d : Duration) : Settings :=
  { s with timeout := d }

/-- At most `maxRetries` retries. -/
def withRetries (s : Settings) (n : Nat) : Settings :=
  { s with retries := min n maxRetries }

/-- A capacity of at least one. -/
def withCacheCapacity (s : Settings) (n : Nat) : Settings :=
  { s with cacheCapacity := max n 1 }

/-- A checkpoint after at least one answer. -/
def withCheckpointEvery (s : Settings) (n : Nat) : Settings :=
  { s with checkpointEvery := max n 1 }

def withCachePath (s : Settings) (path : String) : Settings :=
  { s with cachePath := path }

def withExtensions (s : Settings) (extensions : List String) : Settings :=
  { s with extensions }

/-- All values are in their ranges; the timeout is a whole number of seconds. -/
structure InRange (s : Settings) : Prop where
  concurrency : 1 ≤ s.concurrency ∧ s.concurrency ≤ maxConcurrency
  rateLimit : ∀ n ∈ s.rateLimit, 1 ≤ n ∧ n ≤ maxRate
  timeout : ∃ n, 1 ≤ n ∧ s.timeout = .ofSeconds n
  retries : s.retries ≤ maxRetries
  cacheCapacity : 1 ≤ s.cacheCapacity
  checkpointEvery : 1 ≤ s.checkpointEvery

end Settings

end NameHunt
