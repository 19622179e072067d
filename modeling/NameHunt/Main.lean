import NameHunt.CommandLine.Session

/-!
# The program

The outermost layer: a call is run on a picture of the files that it may need, and what it changed
is written back.

* `Program.look`: the picture with what a path leads to.
* `Program.keep`: a changed file put on the disk.
* `main`: the program.
-/

namespace NameHunt.Program

/-- What a path leads to on the disk, if all before it are directories. -/
def glimpse (path : String) : IO (Option Node) := do
  try
    return some (.file (← IO.FS.readBinFile path).data)
  catch
    | .inappropriateType .. | .permissionDenied .. => return some .directory
    | _ => return none

/-- The picture with what a path and the directories above it lead to. -/
def look (fs : FileSystem) (path : String) : IO FileSystem := do
  let mut fs := fs
  for step in parents path ++ [path] do
    match fs.locate step with
    | .ok place =>
      if let some node ← glimpse step then fs := fs.put place node
    | .error _ => pure ()
  return fs

/-- All that comes in. -/
partial def readAll (stream : IO.FS.Stream) (seen : ByteArray) : IO ByteArray := do
  let more ← stream.read 65536
  if more.isEmpty then return seen else readAll stream (seen ++ more)

/-- Puts a file on the disk: its content goes to a second file first, which then takes its place. -/
def keep (store : Store) (content : Bytes) : IO Unit := do
  if let some directory := (parents store.path).getLast? then IO.FS.createDirAll directory
  IO.FS.writeBinFile store.temporary ⟨content⟩
  IO.FS.rename store.temporary store.path

/-- The content of the file of a store. -/
def kept (store : Store) (fs : FileSystem) : Option Bytes :=
  (fs.read store.path).toOption

/-- No registry can be reached from here. -/
def ask (_ : String) (_ : Nat) : Except Error Nat :=
  .error (.network "no connection to the registry" none)

/-- The names of the variables that a call may read. -/
def variableNames : List String :=
  [ "HOME", "XDG_CONFIG_HOME", "DS_CONCURRENCY", "DS_RATE", "DS_TIMEOUT", "DS_RETRIES", "DS_CACHE",
    "DS_CAPACITY", "DS_EXT", "DS_CONFIG" ]

/-- What a call finds before any of its files were looked at. -/
def surroundings (input : ByteArray) : IO World := do
  let found ← variableNames.mapM fun name => return (name, ← IO.getEnv name)
  let directory := (← IO.currentDir).toString
  let current := ((FileSystem.names directory).filter (!·.isEmpty)).reverse
  let files ← look { FileSystem.empty with current } directory
  let seed := UInt64.ofNat (← IO.monoNanosNow)
  return {
    files
    environment := fun name => (found.lookup name).join
    input := input.data
    words := fun n => .ofSeed #[] (scramble (seed + UInt64.ofNat n))
    ask
    lookUpTime := ⟨0⟩
    huntTime := ⟨0⟩ }

/-- The world with the files that a call with these arguments may need, and the store of its
cache. -/
def prepare (w : World) (a : Arguments) : IO (World × Option Store) := do
  let files ← (Session.settingsPaths w a).foldlM look w.files
  let w := { w with files }
  match Session.settings w a with
  | .error _ => return (w, none)
  | .ok s =>
    let store : Store := ⟨s.cachePath⟩
    let files ← (a.file.toList ++ [store.path, store.temporary]).foldlM look w.files
    return ({ w with files }, some store)

end NameHunt.Program

open NameHunt NameHunt.Program in
/-- The program. -/
def main (words : List String) : IO UInt32 := do
  let (w, store) ←
    match Arguments.read words with
    | .ok a => do
      let stdin ← IO.getStdin
      let input ← if a.file = some "-" then readAll stdin .empty else pure .empty
      prepare (← surroundings input) a
    | .error _ => do pure (← surroundings .empty, none)
  let result := Session.run w words
  if let some store := store then
    if let some content := kept store result.files then
      if kept store w.files ≠ some content then keep store content
  for line in result.lines do
    match line.channel with
    | .output => IO.println line.text
    | .errors => IO.eprintln line.text
  return UInt32.ofNat result.code
