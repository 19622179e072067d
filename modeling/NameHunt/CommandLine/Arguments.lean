import NameHunt.Settings.Layer
import NameHunt.Text.Split

/-!
# Arguments of the command line

* `Arguments`: what the arguments say.
* `Flag`, `Valued`: the options without and with a value.
* `Stop`: why the arguments are not followed.
* `Arguments.read`: the arguments of a row of words, from left to right up to the first word that
  cannot be used.
* `Arguments.fault?`: the first contradiction in the arguments.
* `Arguments.layer`: the settings among the arguments.
-/

namespace NameHunt

/-- What the arguments say. -/
structure Arguments where
  patterns : List String := []
  file : Option String := none
  extensions : Option (List String) := none
  analyze : Bool := false
  dryRun : Bool := false
  limit : Option Nat := none
  concurrency : Option Nat := none
  rate : Option Nat := none
  timeout : Option String := none
  retries : Option Nat := none
  cache : Option String := none
  capacity : Option Nat := none
  noCache : Bool := false
  stats : Bool := false
  json : Bool := false
  config : Option String := none
  verbose : Bool := false
  deriving Repr, DecidableEq

/-- The options without a value. -/
inductive Flag where
  | analyze
  | dryRun
  | noCache
  | stats
  | json
  | verbose
  deriving Repr, DecidableEq

/-- The options with a value. -/
inductive Valued where
  | file
  | extensions
  | limit
  | concurrency
  | rate
  | timeout
  | retries
  | cache
  | capacity
  | config
  deriving Repr, DecidableEq

/-- Why the arguments are not followed. -/
inductive Stop where
  | help
  | version
  /-- A word that cannot be used. -/
  | misuse
  deriving Repr, DecidableEq

/-- What an option is. -/
inductive Switch where
  | flag (flag : Flag)
  | valued (option : Valued)
  | stop (stop : Stop)
  deriving Repr, DecidableEq

namespace Switch

/-- The options by their long names. -/
def long : List (String × Switch) :=
  [ ("file", .valued .file), ("ext", .valued .extensions), ("analyze", .flag .analyze),
    ("dry-run", .flag .dryRun), ("limit", .valued .limit), ("concurrency", .valued .concurrency),
    ("rate", .valued .rate), ("timeout", .valued .timeout), ("retries", .valued .retries),
    ("cache", .valued .cache), ("capacity", .valued .capacity), ("no-cache", .flag .noCache),
    ("stats", .flag .stats), ("json", .flag .json), ("config", .valued .config),
    ("verbose", .flag .verbose), ("help", .stop .help), ("version", .stop .version) ]

/-- The options by their short names. -/
def short : List (Char × Switch) :=
  [ ('f', .valued .file), ('e', .valued .extensions), ('c', .valued .concurrency),
    ('j', .flag .json), ('v', .flag .verbose), ('h', .stop .help), ('V', .stop .version) ]

end Switch

namespace Arguments

/-- The value of an option that may be given once. -/
def once {α : Type} (present : Option α) (value : Option α) : Except Stop (Option α) :=
  match present, value with
  | none, some value => .ok (some value)
  | _, _ => .error .misuse

/-- A flag that may be given once. -/
def raise (present : Bool) : Except Stop Bool :=
  if present then .error .misuse else .ok true

/-- A number of 32 bits, of which zero may have a minus sign. -/
def number32? (s : List Char) : Option Nat :=
  match s with
  | '-' :: digits => (Text.readDigits? digits).filter (· = 0)
  | _ => Text.readUnsigned? Text.max32 s

/-- The arguments with a flag. -/
def setFlag (a : Arguments) : Flag → Except Stop Arguments
  | .analyze => return { a with analyze := ← raise a.analyze }
  | .dryRun => return { a with dryRun := ← raise a.dryRun }
  | .noCache => return { a with noCache := ← raise a.noCache }
  | .stats => return { a with stats := ← raise a.stats }
  | .json => return { a with json := ← raise a.json }
  | .verbose => return { a with verbose := ← raise a.verbose }

/-- The arguments with the value of an option. Extensions are given between commas, and more of them
may be given later. -/
def setValue (a : Arguments) (value : List Char) : Valued → Except Stop Arguments
  | .file => return { a with file := ← once a.file (some (String.ofList value)) }
  | .extensions =>
    let more := (Text.splitOn ',' value).map String.ofList
    .ok { a with extensions := some (a.extensions.getD [] ++ more) }
  | .limit => return { a with limit := ← once a.limit (Text.readUnsigned? Text.max64 value) }
  | .concurrency =>
    return { a with concurrency := ← once a.concurrency (Text.readUnsigned? Text.max64 value) }
  | .rate => return { a with rate := ← once a.rate (number32? value) }
  | .timeout => return { a with timeout := ← once a.timeout (some (String.ofList value)) }
  | .retries => return { a with retries := ← once a.retries (number32? value) }
  | .cache =>
    let path := if value.isEmpty then none else some (String.ofList value)
    return { a with cache := ← once a.cache path }
  | .capacity =>
    return { a with capacity := ← once a.capacity (Text.readUnsigned? Text.max64 value) }
  | .config => return { a with config := ← once a.config (some (String.ofList value)) }

/-- The arguments after some words, and the option that waits for its value in the next word. -/
structure Reading where
  arguments : Arguments
  waiting : Option Valued := none

/-- An option with its long name, and with a value after an equals sign. -/
def readLong (a : Arguments) (word : List Char) : Except Stop Reading :=
  let (name, value) :=
    match Text.cutAt '=' word with
    | some (name, value) => (name, some value)
    | none => (word, none)
  match Switch.long.lookup (String.ofList name), value with
  | some (.flag flag), none => return { arguments := ← a.setFlag flag }
  | some (.valued option), some value => return { arguments := ← a.setValue value option }
  | some (.valued option), none => .ok { arguments := a, waiting := some option }
  | some (.stop stop), none => .error stop
  | _, _ => .error .misuse

/-- Options with short names, put together in one word. A value follows its option at once, or after
an equals sign, or in the next word. -/
def readShort (a : Arguments) : List Char → Except Stop Reading
  | [] => .ok { arguments := a }
  | name :: rest =>
    match Switch.short.lookup name with
    | some (.flag flag) => do readShort (← a.setFlag flag) rest
    | some (.valued option) =>
      match rest with
      | [] => .ok { arguments := a, waiting := some option }
      | '=' :: value => return { arguments := ← a.setValue value option }
      | value => return { arguments := ← a.setValue value option }
    | some (.stop stop) => .error stop
    | none => .error .misuse

/-- The arguments with one more pattern. -/
def addPattern (a : Arguments) (pattern : String) : Arguments :=
  { a with patterns := a.patterns ++ [pattern] }

/-- The arguments after the words that are left. A word that starts with a hyphen and is not a
single hyphen is no value. All words after a double hyphen are patterns. -/
def readFrom : Reading → List String → Except Stop Arguments
  | { arguments := a, waiting := none }, [] => .ok a
  | { arguments := _, waiting := some _ }, [] => .error .misuse
  | { arguments := a, waiting := some option }, word :: rest =>
    match word.toList with
    | '-' :: _ :: _ => .error .misuse
    | value => do readFrom { arguments := ← a.setValue value option } rest
  | { arguments := a, waiting := none }, word :: rest =>
    match word.toList with
    | ['-', '-'] => .ok (rest.foldl addPattern a)
    | '-' :: '-' :: long => do readFrom (← a.readLong long) rest
    | '-' :: name :: more => do readFrom (← a.readShort (name :: more)) rest
    | _ => readFrom { arguments := a.addPattern word } rest

/-- The arguments of a row of words. -/
def read (words : List String) : Except Stop Arguments :=
  readFrom { arguments := {} } words

/-- The first contradiction in the arguments, in words. -/
def fault? (a : Arguments) : Option String :=
  if a.patterns.isEmpty && a.file.isNone then
    some "You must specify patterns or a pattern file with --file"
  else if a.analyze && a.dryRun then some "Cannot specify both --analyze and --dry-run"
  else if a.limit.isSome && !a.dryRun then some "--limit only applies to --dry-run"
  else if a.concurrency.any fun n => n = 0 ∨ Settings.maxConcurrency < n then
    some ("Concurrency must be between 1 and " ++ toString Settings.maxConcurrency)
  else if a.rate.any (Settings.maxRate < ·) then
    some ("Rate must be between 0 and " ++ toString Settings.maxRate ++ " probes per second")
  else
    match a.timeout.filter fun words => (Timeout.read? words).isNone with
    | some words =>
      some ("Invalid timeout '" ++ words ++ "'. Use a non-zero value like '5s', '30s', '2m'")
    | none =>
      if a.capacity = some 0 then some "Cache capacity must be greater than zero" else none

/-- The settings among the arguments. Extensions are not among them, for they are meant for the
patterns of the command line alone. -/
def layer (a : Arguments) : Layer where
  concurrency := a.concurrency
  rate := a.rate
  timeout := a.timeout
  retries := a.retries
  cachePath := a.cache
  cacheCapacity := a.capacity

end Arguments

end NameHunt
