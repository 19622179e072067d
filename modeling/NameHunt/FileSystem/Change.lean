import NameHunt.FileSystem.Basic

/-!
# Changes of a file system

* `Change`: the elementary changes, each of which happens as a whole or not at all.
* `FileSystem.apply`: one change.
* `FileSystem.run`: changes in order up to the first that fails; what was done before stays done.
* `parents`: the directories that the file of a path needs, from the top down.
-/

namespace NameHunt

/-- An elementary change. -/
inductive Change where
  /-- Makes a directory unless it is there. -/
  | ensureDirectory (path : String)
  /-- Makes a file or replaces its content. -/
  | write (path : String) (content : Bytes)
  /-- Moves a file to another path, where it replaces a file. -/
  | rename (source target : String)
  | remove (path : String)
  deriving Repr, DecidableEq

namespace FileSystem

/-- The tree after a change, if the change is possible. -/
def apply (fs : FileSystem) : Change → Except Fault FileSystem
  | .ensureDirectory path => do
    let place ← fs.locate path
    match fs.node? place with
    | some .directory => .ok fs
    | some (.file _) => .error .notADirectory
    | none => .ok (fs.put place .directory)
  | .write path content => do
    let place ← fs.locate path
    match fs.node? place with
    | some .directory => .error .isADirectory
    | _ => .ok (fs.put place (.file content))
  | .rename source target => do
    let origin ← fs.locate source
    match fs.node? origin with
    | none => .error .notFound
    | some .directory => .error .isADirectory
    | some (.file content) =>
      let place ← fs.locate target
      match fs.node? place with
      | some .directory => .error .isADirectory
      | _ => .ok ((fs.erase origin).put place (.file content))
  | .remove path => do
    let place ← fs.locate path
    match fs.node? place with
    | none => .error .notFound
    | some .directory => .error .isADirectory
    | some (.file _) => .ok (fs.erase place)

/-- The tree after the changes up to the first impossible one, and the fault of that one. -/
def run (fs : FileSystem) : List Change → FileSystem × Option Fault
  | [] => (fs, none)
  | change :: rest =>
    match fs.apply change with
    | .ok changed => changed.run rest
    | .error fault => (fs, some fault)

end FileSystem

/-- The names of a path without the last one that counts. -/
def parentNames (path : String) : List String :=
  ((FileSystem.names path).reverse.dropWhile fun name => name == "" || name == ".").tail.reverse

/-- The paths of the directories above a path, from the top down. -/
def parents (path : String) : List String :=
  let names := parentNames path
  ((List.range names.length).map fun n => "/".intercalate (names.take (n + 1))).filter
    fun above => !above.isEmpty

/-- The changes that make the directories above a path. -/
def ensureParents (path : String) : List Change :=
  (parents path).map .ensureDirectory

end NameHunt
