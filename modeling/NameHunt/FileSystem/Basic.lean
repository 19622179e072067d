import NameHunt.Cache.Bits
import NameHunt.Text.Split

/-!
# Files and directories

A tree of directories with files in them, as a value. A path is read from the current directory, or
from the top if it starts with a slash.

* `Location`, `Node`, `FileSystem`: where something is, what it is, and all of it together.
* `FileSystem.locate`: the location that a path leads to.
* `FileSystem.read`, `FileSystem.readText`: the content of a file.
* `FileSystem.put`, `FileSystem.node?`: changing and reading one location.
-/

namespace NameHunt

/-- The names from a place up to the top. -/
abbrev Location := List String

/-- What stands at a location. -/
inductive Node where
  | directory
  | file (content : Bytes)
  deriving Repr, DecidableEq

/-- Why a path cannot be used. -/
inductive Fault where
  | notFound
  | notADirectory
  | isADirectory
  /-- A path with a NUL character. -/
  | invalidName
  | nameTooLong
  /-- A file that is not UTF-8. -/
  | notUnicode
  deriving Repr, DecidableEq

/-- The fault in words. -/
def Fault.reason : Fault → String
  | notFound => "no such file or directory"
  | notADirectory => "not a directory"
  | isADirectory => "is a directory"
  | invalidName => "the name contains a NUL character"
  | nameTooLong => "the name is too long"
  | notUnicode => "the content is not valid UTF-8"

/-- The nodes below the top, newest first, and the directory that paths start from. -/
structure FileSystem where
  nodes : List (Location × Node)
  current : Location
  deriving Repr

namespace FileSystem

/-- An empty tree. -/
def empty : FileSystem := ⟨[], []⟩

/-- What stands at a location. The top is a directory. -/
def node? (fs : FileSystem) (place : Location) : Option Node :=
  if place.isEmpty then some .directory else fs.nodes.lookup place

/-- The tree with a node at a location. -/
def put (fs : FileSystem) (place : Location) (node : Node) : FileSystem :=
  { fs with nodes := (place, node) :: fs.nodes.filter (·.1 != place) }

/-- The tree with nothing at a location. -/
def erase (fs : FileSystem) (place : Location) : FileSystem :=
  { fs with nodes := fs.nodes.filter (·.1 != place) }

/-- The longest name and the longest path, in bytes. -/
def nameLimit : Nat := 255

def pathLimit : Nat := 4095

/-- One name further from a place, which has to be a directory. -/
def enter (fs : FileSystem) (place : Location) (name : String) : Except Fault Location :=
  match fs.node? place with
  | none => .error .notFound
  | some (.file _) => .error .notADirectory
  | some .directory =>
    if name == "" || name == "." then .ok place
    else if name == ".." then .ok place.tail
    else if nameLimit < name.utf8ByteSize then .error .nameTooLong
    else .ok (name :: place)

/-- The names of a path. -/
def names (path : String) : List String :=
  (Text.splitOn '/' path.toList).map String.ofList

/-- Where a path starts. -/
def start (fs : FileSystem) (path : String) : Location :=
  if path.toList.head? == some '/' then [] else fs.current

/-- The location that a path leads to. Nothing has to stand there, but all before it has to be
directories. -/
def locate (fs : FileSystem) (path : String) : Except Fault Location :=
  if path.isEmpty then .error .notFound
  else if path.toList.contains '\x00' then .error .invalidName
  else if pathLimit < path.utf8ByteSize then .error .nameTooLong
  else (names path).foldlM fs.enter (fs.start path)

/-- What a path leads to. -/
def find (fs : FileSystem) (path : String) : Except Fault Node := do
  match fs.node? (← fs.locate path) with
  | some node => .ok node
  | none => .error .notFound

/-- Whether a path leads to something. -/
def contains (fs : FileSystem) (path : String) : Bool :=
  match fs.find path with
  | .ok _ => true
  | .error _ => false

/-- The content of a file. -/
def read (fs : FileSystem) (path : String) : Except Fault Bytes := do
  match ← fs.find path with
  | .file content => .ok content
  | .directory => .error .isADirectory

/-- The text of some bytes, if they are UTF-8. -/
def decodeText (bytes : Bytes) : Except Fault String :=
  match String.fromUTF8? ⟨bytes⟩ with
  | some text => .ok text
  | none => .error .notUnicode

/-- The content of a text file. -/
def readText (fs : FileSystem) (path : String) : Except Fault String := do
  decodeText (← fs.read path)

theorem lookup_filter_self (place : Location) (nodes : List (Location × Node)) :
    (nodes.filter (·.1 != place)).lookup place = none := by
  rw [List.lookup_eq_none_iff]
  intro entry hentry
  have hne : entry.1 ≠ place := by simpa using (List.mem_filter.1 hentry).2
  simpa using Ne.symm hne

theorem lookup_filter_ne {place other : Location} (h : other ≠ place)
    (nodes : List (Location × Node)) :
    (nodes.filter (·.1 != place)).lookup other = nodes.lookup other := by
  induction nodes with
  | nil => rfl
  | cons entry rest ih =>
    obtain ⟨key, node⟩ := entry
    by_cases hkey : key = place
    · have hne : (other == key) = false := by simpa [hkey] using h
      simp [List.lookup_cons, hkey, ih, hkey ▸ hne]
    · simp [List.lookup_cons, hkey, ih]

/-- A node that was put stands where it was put. -/
theorem node?_put_self (fs : FileSystem) {place : Location} (h : place ≠ []) (node : Node) :
    (fs.put place node).node? place = some node := by
  simp [node?, put, h]

/-- Putting a node leaves all other locations alone. -/
theorem node?_put_ne (fs : FileSystem) {place other : Location} (h : other ≠ place) (node : Node) :
    (fs.put place node).node? other = fs.node? other := by
  have hne : (other == place) = false := by simpa using h
  simp [node?, put, List.lookup_cons, hne, lookup_filter_ne h]

/-- Nothing stands where a node was erased. -/
theorem node?_erase_self (fs : FileSystem) {place : Location} (h : place ≠ []) :
    (fs.erase place).node? place = none := by
  simp [node?, erase, h, lookup_filter_self]

/-- Erasing a node leaves all other locations alone. -/
theorem node?_erase_ne (fs : FileSystem) {place other : Location} (h : other ≠ place) :
    (fs.erase place).node? other = fs.node? other := by
  simp [node?, erase, lookup_filter_ne h]

end FileSystem

end NameHunt
