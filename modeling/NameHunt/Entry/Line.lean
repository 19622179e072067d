import NameHunt.Entry
import NameHunt.Error
import NameHunt.FileSystem.Basic
import NameHunt.Text.Items

/-!
# Entries in lines of text

A line holds a pattern, then options after semicolons, then a comment after a number sign. The
option `ext`, also spelled `extensions`, gives the extensions as a list with commas.

* `LineFault`: why a line is refused.
* `Entry.ofLine?`: the entry of one line; blank lines and lines of comment have none.
* `Entry.ofSource`: the entries of a text, line by line.
* `Entry.load`: the entries of a file.
-/

namespace NameHunt

/-- Why a line is refused. -/
inductive LineFault where
  | noPattern
  /-- An option without an equals sign. -/
  | notAssigned (option : String)
  deriving Repr, DecidableEq

/-- The fault in words. -/
def LineFault.reason : LineFault → String
  | noPattern => "missing pattern before options"
  | notAssigned option => "option '" ++ option ++ "' is not key=value"

namespace Entry

/-- Whether an option names the extensions. The case of ASCII letters does not count. -/
def isExtensionsKey (key : List Char) : Bool :=
  let key := key.map Char.toLower
  key == "ext".toList || key == "extensions".toList

/-- The extensions that some options give after `found`; the last of them counts. Options with
another key are passed over. -/
def readOptions (found : Option (List String)) :
    List (List Char) → Except LineFault (Option (List String))
  | [] => .ok found
  | option :: rest =>
    match Text.cutAt '=' option with
    | none => .error (.notAssigned (String.ofList option))
    | some (key, value) =>
      readOptions (if isExtensionsKey (Text.trim key) then some (Text.items value) else found) rest

/-- What stands before and after the first number sign. -/
def splitComment (line : List Char) : List Char × Option (List Char) :=
  match Text.cutAt '#' line with
  | some (body, comment) => (body, some (Text.trim comment))
  | none => (line, none)

/-- The entry of what stands before the comment. -/
def ofBody (defaults : List String) (comment : Option (List Char)) (body : List Char) :
    Except LineFault Entry :=
  match Text.splitOn ';' body with
  | [] => .error .noPattern
  | pattern :: options =>
    if (Text.trim pattern).isEmpty then .error .noPattern
    else do
      let found ← readOptions none ((options.map Text.trim).filter fun option => !option.isEmpty)
      return {
        pattern := String.ofList (Text.trim pattern)
        extensions := found.getD defaults
        comment := (comment.filter fun text => !text.isEmpty).map String.ofList }

/-- The entry of a line, if it holds one. -/
def ofLine? (defaults : List String) (line : List Char) : Option (Except LineFault Entry) :=
  let line := Text.trim line
  if line.isEmpty || line.head? == some '#' then none
  else
    let (body, comment) := splitComment line
    some (ofBody defaults comment body)

/-- The entry of a line with its number, which a fault is reported with. -/
def ofNumberedLine? (defaults : List String) (line : List Char) (number : Nat) :
    Option (Except Error Entry) :=
  (ofLine? defaults line).map (·.mapError fun fault => .patternLine number fault.reason)

/-- The entries of a text, and the faults in place of entries. Lines are counted from one. -/
def ofSource (defaults : List String) (text : String) : List (Except Error Entry) :=
  ((Text.lines text.toList).zipIdx 1).filterMap fun (line, number) =>
    ofNumberedLine? defaults line number

/-- The entries of a file. -/
def load (fs : FileSystem) (path : String) (defaults : List String) :
    Except Error (List (Except Error Entry)) :=
  match fs.readText path with
  | .ok text => .ok (ofSource defaults text)
  | .error fault => .error (.file path ("Failed to read pattern file: " ++ fault.reason))

end Entry

end NameHunt
