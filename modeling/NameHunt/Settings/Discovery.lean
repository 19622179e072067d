import NameHunt.Document.Toml.Reader
import NameHunt.FileSystem.Basic
import NameHunt.Settings.File

/-!
# Finding settings files

* `FileSettings.load`: the settings in one file.
* `Places`: where the files are looked for.
* `Places.files`: the files that are there, from the least to the most important.
* `Places.discover`: these files put together.
-/

namespace NameHunt

namespace FileSettings

/-- The settings in a text. -/
def ofText (text : String) : Except Error FileSettings :=
  match (Toml.read? text.toList).bind (ofDocument? true) with
  | none => .error (.config "Failed to parse TOML configuration: malformed text or value")
  | some file =>
    match file.fault? with
    | some error => .error error
    | none => .ok file

/-- The settings in a file. -/
def load (fs : FileSystem) (path : String) : Except Error FileSettings :=
  if fs.contains path then
    match fs.readText path with
    | .ok text => ofText text
    | .error fault => .error (.file path ("Failed to read configuration file: " ++ fault.reason))
  else .error (.file path "Configuration file not found")

end FileSettings

/-- Where settings files are looked for. -/
structure Places where
  home : Option String
  /-- The directory of settings, if it is not the usual one below the home directory. -/
  settings : Option String
  deriving Repr, DecidableEq

namespace Places

/-- A name inside a directory. A name with a slash in front stands for itself. -/
def inside (directory name : String) : String :=
  if directory.isEmpty || name.startsWith "/" then name
  else if directory.endsWith "/" then directory ++ name
  else directory ++ "/" ++ name

/-- The file in the directory of settings. -/
def shared (places : Places) : List String :=
  match places.settings <|> places.home.map (inside · ".config") with
  | some directory => [inside (inside directory "domain-scout") "config.toml"]
  | none => []

/-- The files in the home directory, of which the first that is there counts. -/
def personal (places : Places) : List String :=
  match places.home with
  | some directory => [".domain-scout.toml", "domain-scout.toml"].map (inside directory)
  | none => []

/-- The files in the current directory, of which the first that is there counts. -/
def here : List String := ["./domain-scout.toml", "./.domain-scout.toml"]

/-- The files that are looked for, from the least to the most important place. -/
def candidates (places : Places) : List (List String) :=
  [places.shared, places.personal, here]

/-- The files that are there, from the least to the most important. -/
def files (places : Places) (fs : FileSystem) : List String :=
  places.candidates.filterMap (·.find? fs.contains)

/-- The files that are there put together. A file that cannot be loaded is passed over. -/
def discover (places : Places) (fs : FileSystem) : FileSettings :=
  (places.files fs).foldl
    (fun found path =>
      match FileSettings.load fs path with
      | .ok file => found.merge file
      | .error _ => found)
    {}

end Places

end NameHunt
