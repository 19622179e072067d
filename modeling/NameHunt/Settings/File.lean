import NameHunt.Document.Basic
import NameHunt.Pattern.Grammar
import NameHunt.Settings.Layer

/-!
# Settings files

A settings file has two sections, each of which may be missing: the defaults of the command line,
and the cache.

* `FileSettings`: the values in a file, section by section.
* `FileSettings.ofDocument?`: the settings in a document.
* `FileSettings.fault?`: the first value out of its range.
* `FileSettings.layer`: the values as a layer.
* `FileSettings.merge`: two files put together.
-/

namespace NameHunt

/-- The section of the defaults. -/
structure DefaultsSection where
  concurrency : Option Nat := none
  rate : Option Nat := none
  timeout : Option String := none
  retries : Option Nat := none
  extensions : Option (List String) := none
  deriving Repr, DecidableEq

/-- The section of the cache. -/
structure CacheSection where
  path : Option String := none
  capacity : Option Nat := none
  checkpointEvery : Option Nat := none
  deriving Repr, DecidableEq

/-- The values in a settings file. -/
structure FileSettings where
  defaults : Option DefaultsSection := none
  cache : Option CacheSection := none
  deriving Repr, DecidableEq

namespace DefaultsSection

/-- The section of a document. A list in place of the section may have a surplus of items if the
format of the document allows it. -/
def ofDocument? (surplus : Bool) (d : Document) : Option DefaultsSection := do
  let field ← d.record? surplus ["concurrency", "rate", "timeout", "retries", "extensions"]
  let concurrency ← Document.optional? (Document.natural? Text.max64) (field "concurrency")
  let rate ← Document.optional? (Document.natural? Text.max32) (field "rate")
  let timeout ← Document.optional? Document.text? (field "timeout")
  let retries ← Document.optional? (Document.natural? Text.max32) (field "retries")
  let extensions ← Document.optional? Document.texts? (field "extensions")
  return { concurrency, rate, timeout, retries, extensions }

/-- The values that are there. -/
def document (part : DefaultsSection) : Document :=
  .table <|
    (part.concurrency.map fun n => ("concurrency", Document.nat n)).toList ++
    (part.rate.map fun n => ("rate", Document.nat n)).toList ++
    (part.timeout.map fun t => ("timeout", Document.text t)).toList ++
    (part.retries.map fun n => ("retries", Document.nat n)).toList ++
    (part.extensions.map fun l => ("extensions", Document.list (l.map .text))).toList

/-- The first value out of its range. -/
def fault? (part : DefaultsSection) : Option String :=
  if part.concurrency.any fun n => n = 0 ∨ Settings.maxConcurrency < n then
    some ("Concurrency must be between 1 and " ++ toString Settings.maxConcurrency)
  else if part.rate.any (Settings.maxRate < ·) then
    some ("Rate must be between 0 and " ++ toString Settings.maxRate ++ " probes per second")
  else
    match part.timeout.filter fun words => (Timeout.read? words).isNone with
    | some words =>
      some ("Invalid timeout format '" ++ words ++ "'. Use format like '5s', '30s', '2m'")
    | none =>
      (part.extensions.bind Extension.listFault?).map fun error =>
        "Invalid default extensions: " ++ error.message

/-- Both sections together; the values of `upper` come first. -/
def merge (lower upper : DefaultsSection) : DefaultsSection where
  concurrency := upper.concurrency <|> lower.concurrency
  rate := upper.rate <|> lower.rate
  timeout := upper.timeout <|> lower.timeout
  retries := upper.retries <|> lower.retries
  extensions := upper.extensions <|> lower.extensions

end DefaultsSection

namespace CacheSection

def ofDocument? (surplus : Bool) (d : Document) : Option CacheSection := do
  let field ← d.record? surplus ["path", "capacity", "checkpoint_every"]
  let path ← Document.optional? Document.text? (field "path")
  let capacity ← Document.optional? (Document.natural? Text.max64) (field "capacity")
  let checkpointEvery ← Document.optional? (Document.natural? Text.max64) (field "checkpoint_every")
  return { path, capacity, checkpointEvery }

def document (part : CacheSection) : Document :=
  .table <|
    (part.path.map fun t => ("path", Document.text t)).toList ++
    (part.capacity.map fun n => ("capacity", Document.nat n)).toList ++
    (part.checkpointEvery.map fun n => ("checkpoint_every", Document.nat n)).toList

/-- The first value out of its range. -/
def fault? (part : CacheSection) : Option String :=
  if part.capacity = some 0 then some "Cache capacity must be greater than zero"
  else if part.checkpointEvery = some 0 then some "checkpoint_every must be greater than zero"
  else none

/-- Both sections together; the values of `upper` come first. -/
def merge (lower upper : CacheSection) : CacheSection where
  path := upper.path <|> lower.path
  capacity := upper.capacity <|> lower.capacity
  checkpointEvery := upper.checkpointEvery <|> lower.checkpointEvery

end CacheSection

/-- Two values of which the second may be missing, or the first, or both. -/
def mergeWith {α : Type} (merge : α → α → α) : Option α → Option α → Option α
  | some lower, some upper => some (merge lower upper)
  | lower, upper => upper <|> lower

namespace FileSettings

/-- The settings in a document. Other sections and other values in a section are passed over. -/
def ofDocument? (surplus : Bool) (d : Document) : Option FileSettings := do
  let field ← d.record? surplus ["defaults", "cache"]
  let defaults ← Document.optional? (DefaultsSection.ofDocument? surplus) (field "defaults")
  let cache ← Document.optional? (CacheSection.ofDocument? surplus) (field "cache")
  return { defaults, cache }

/-- The sections that are there. -/
def document (file : FileSettings) : Document :=
  .table <|
    (file.defaults.map fun s => ("defaults", s.document)).toList ++
    (file.cache.map fun s => ("cache", s.document)).toList

/-- The first value out of its range, in words. -/
def fault? (file : FileSettings) : Option Error :=
  ((file.defaults.bind DefaultsSection.fault?) <|>
    file.cache.bind CacheSection.fault?).map .config

/-- The values as a layer. A section that is missing gives none. -/
def layer (file : FileSettings) : Layer :=
  let defaults := file.defaults.getD {}
  let cache := file.cache.getD {}
  { concurrency := defaults.concurrency
    rate := defaults.rate
    timeout := defaults.timeout
    retries := defaults.retries
    cachePath := cache.path
    cacheCapacity := cache.capacity
    checkpointEvery := cache.checkpointEvery
    extensions := defaults.extensions }

/-- Both files together; the values of `upper` come first. -/
def merge (lower upper : FileSettings) : FileSettings where
  defaults := mergeWith DefaultsSection.merge lower.defaults upper.defaults
  cache := mergeWith CacheSection.merge lower.cache upper.cache

end FileSettings

end NameHunt
