import NameHunt.CommandLine.Arguments
import NameHunt.CommandLine.Preview
import NameHunt.Entry.Line
import NameHunt.Hunt.Run
import NameHunt.Settings.Discovery
import NameHunt.Settings.Environment
import NameHunt.Store

/-!
# The command line

* `World`: what the program finds around it.
* `Result`: what it leaves behind.
* `Session.settings`, `Session.entries`: the settings and the entries of a call.
* `Session.run`: the program as a function.
-/

namespace NameHunt

/-- What the program finds around it. -/
structure World where
  files : FileSystem
  environment : String → Option String
  input : Bytes
  /-- The order of the domains of an entry, by the number of entries that come after it. -/
  words : Nat → Words
  /-- The status that a registry gives for an address in an attempt. -/
  ask : String → Nat → Except Error Nat
  /-- How long a look-up and the hunt as a whole take. -/
  lookUpTime : Duration
  huntTime : Duration

/-- What the program leaves behind. -/
structure Result where
  lines : List Line
  code : Nat
  files : FileSystem

namespace Session

/-- The name and the version of the program. -/
def version : String := "0.1.0"

def versionLine : Line := Report.toOutput ("domain-scout " ++ version)

def help : List Line :=
  [ "Hunt for available domain names described by compact patterns",
    "",
    "Usage: domain-scout [OPTIONS] [PATTERNS]...",
    "",
    "Pattern tokens: c=consonant, v=vowel, n=digit, l=letter, _=letter/digit/hyphen, -=hyphen.",
    "Any other characters are kept as literal text. Domains already checked are remembered",
    "in a cache file and skipped on later runs.",
    "",
    "  -f, --file <FILE>         Pattern file (a single hyphen for the input)",
    "  -e, --ext <EXT>           Extensions for positional patterns, between commas",
    "      --analyze             Print segment breakdown and counts without probing",
    "      --dry-run             Print the domains that would be probed without probing",
    "      --limit <N>           Stop a dry run after this many domains",
    "  -c, --concurrency <N>     Max probes in flight",
    "      --rate <PER_SEC>      Max probes started per second",
    "      --timeout <DURATION>  Per-probe timeout, e.g. 5s or 1m",
    "      --retries <N>         Retries after a transient probe failure",
    "      --cache <PATH>        Cache file location",
    "      --capacity <BITS>     Bits in a newly created cache",
    "      --no-cache            Ignore the cache file entirely",
    "      --stats               Print cache statistics at the end",
    "  -j, --json                Emit one JSON object per line",
    "      --config <FILE>       Use specific config file instead of automatic discovery",
    "  -v, --verbose             Verbose logging",
    "  -h, --help                Print help",
    "  -V, --version             Print version" ].map Report.toOutput

/-- Where the settings files of a call are looked for. -/
def places (w : World) : Places where
  home := w.environment "HOME"
  settings := w.environment "XDG_CONFIG_HOME"

/-- The settings in files: one file that was asked for, or those that are found. -/
def fileSettings (w : World) (path : Option String) : Except String FileSettings :=
  match path with
  | some path =>
    (FileSettings.load w.files path).mapError fun error =>
      "Failed to load config file '" ++ path ++ "': " ++ error.message
  | none => .ok ((places w).discover w.files)

/-- The settings file that a call asks for; the arguments come before the environment. -/
def chosenFile (w : World) (a : Arguments) : Option String :=
  a.config <|> (EnvSettings.ofVariables w.environment).file

/-- The paths of the settings files that a call may read. -/
def settingsPaths (w : World) (a : Arguments) : List String :=
  match chosenFile w a with
  | some path => [path]
  | none => (places w).candidates.flatten

/-- The settings of a call: the standard ones, then files, environment and arguments. -/
def settings (w : World) (a : Arguments) : Except String Settings := do
  let env := EnvSettings.ofVariables w.environment
  let file ← fileSettings w (chosenFile w a)
  return a.layer.apply (env.layer.apply (file.layer.apply .standard))

/-- The lines of the pattern file of a call. -/
def fileEntries (w : World) (s : Settings) (a : Arguments) :
    Except String (List (Except Error Entry)) :=
  match a.file with
  | none => .ok []
  | some "-" =>
    match FileSystem.decodeText w.input with
    | .ok text => .ok (Entry.ofSource s.extensions text)
    | .error _ => .error "stream did not contain valid UTF-8"
  | some path => (Entry.load w.files path s.extensions).mapError Error.message

/-- The entries of the patterns among the arguments. -/
def argumentEntries (s : Settings) (a : Arguments) : List Entry :=
  a.patterns.map fun pattern => { pattern, extensions := a.extensions.getD s.extensions }

/-- The entries among lines, and the warnings about the others. -/
def sift (found : List (Except Error Entry)) : List Entry × List Line :=
  (found.filterMap fun line => line.toOption,
    found.filterMap fun line =>
      match line with
      | .ok _ => none
      | .error error => some (Report.warning error.message))

/-- The error of a call in which no entry is valid. -/
def noValidPatterns (rejected : Nat) : String :=
  (Error.config ("No valid patterns (" ++ toString rejected ++ " rejected)")).message

/-- What was printed, the error at the end if there is one, and the files. -/
structure Trace where
  lines : List Line
  failure : Option String
  files : FileSystem

/-- The analyses of entries. -/
def analyze (w : World) (a : Arguments) (entries : List Entry) : Trace :=
  let print (entry : Entry) : List Line :=
    match NameHunt.analyze entry with
    | .ok analysis =>
      if a.json then [Report.toOutput (Report.analysisDocument analysis).json]
      else Report.analysis analysis
    | .error error => [Report.rejected entry.pattern error]
  let valid := entries.any fun entry => (NameHunt.analyze entry).isOk
  { lines := entries.flatMap print
    failure := if valid then none else some (noValidPatterns entries.length)
    files := w.files }

/-- The domains that a hunt would look up. -/
def dryRun (w : World) (a : Arguments) (entries : List Entry) (cache : Cache) : Trace :=
  let preview := Preview.ofEntries a.limit cache w.words entries
  if preview.valid = 0 then
    { lines := preview.lines a.json
      failure := some (noValidPatterns entries.length), files := w.files }
  else
    { lines := preview.lines a.json ++ [preview.total], failure := none, files := w.files }

/-- What governs the hunt of a call. -/
def rules (s : Settings) (store : Option Store) : Hunt.Rules FileSystem where
  concurrency := s.concurrency
  checkpointEvery := s.checkpointEvery
  save := store.map fun store cache fs =>
    let (fs, error) := store.save cache fs
    (fs, error.isNone)

/-- The hunt of a call. Nothing raises the flag. -/
def scene (w : World) (s : Settings) (store : Option Store) : Hunt.Scene FileSystem Unit where
  rules := rules s store
  words := w.words
  lookUp _ domain := ((), .ofRegistry w.ask s.retries w.lookUpTime domain, false)

/-- The hunt for entries. The cache is saved at the end; its totals are printed only then. -/
def hunt (w : World) (s : Settings) (a : Arguments) (store : Option Store) (entries : List Entry)
    (cache : Cache) : Trace × Cache :=
  let (state, _) := (scene w s store).run entries false cache w.files ()
  let lines := state.events.reverse.flatMap (Report.event a.json)
  let (files, error) :=
    match store with
    | some store => store.save state.cache state.disk
    | none => (state.disk, none)
  let trace : Trace :=
    match error with
    | some error => { lines, failure := some error.message, files }
    | none =>
      { lines := lines ++ Report.summary state.summary w.huntTime
        failure :=
          if state.summary.patterns = 0 ∧ 0 < state.summary.rejected then
            some (noValidPatterns state.summary.rejected)
          else none
        files }
  (trace, state.cache)

/-- A call with its cache open. -/
def withCache (w : World) (s : Settings) (a : Arguments) (store : Option Store)
    (entries : List Entry) (cache : Cache) : Trace :=
  let (trace, cache) :=
    if a.dryRun then (dryRun w a entries cache, cache) else hunt w s a store entries cache
  if trace.failure.isNone && a.stats then
    { trace with
      lines := trace.lines ++
        [Report.cacheFill cache.bitsSet cache.capacity (store.map Store.path)] }
  else trace

/-- A call with its entries. -/
def withEntries (w : World) (s : Settings) (a : Arguments) (entries : List Entry) : Trace :=
  if a.analyze then analyze w a entries
  else
    let store := if a.noCache then none else some (Store.mk s.cachePath)
    let cache :=
      match store with
      | some store => store.loadOrFresh s.cacheCapacity w.files
      | none => Cache.fresh s.cacheCapacity
    match cache with
    | .ok cache => withCache w s a store entries cache
    | .error error => { lines := [], failure := some error.message, files := w.files }

/-- A call without a contradiction in its arguments. -/
def follow (w : World) (a : Arguments) : Trace :=
  let fail (lines : List Line) (message : String) : Trace :=
    { lines, failure := some message, files := w.files }
  match settings w a with
  | .error message => fail [] message
  | .ok s =>
    match fileEntries w s a with
    | .error message => fail [] message
    | .ok found =>
      let (entries, warnings) := sift found
      match argumentEntries s a ++ entries with
      | [] => fail warnings "No patterns to process"
      | entries =>
        let trace := withEntries w s a entries
        { trace with lines := warnings ++ trace.lines }

/-- What is left behind after a failure or without one. -/
def close (trace : Trace) : Result :=
  match trace.failure with
  | some message =>
    { lines := trace.lines ++ [Report.toErrors ("Error: " ++ message)], code := 1
      files := trace.files }
  | none => { lines := trace.lines, code := 0, files := trace.files }

/-- The program. -/
def run (w : World) (words : List String) : Result :=
  match Arguments.read words with
  | .error .help => { lines := help, code := 0, files := w.files }
  | .error .version => { lines := [versionLine], code := 0, files := w.files }
  | .error .misuse =>
    { lines := [Report.toErrors "error: unusable arguments, try --help"], code := 2
      files := w.files }
  | .ok a =>
    match a.fault? with
    | some message => close { lines := [], failure := some message, files := w.files }
    | none => close (follow w a)

end Session

end NameHunt
