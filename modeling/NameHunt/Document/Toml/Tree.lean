import NameHunt.Document.Basic

/-!
# Tables under construction

A TOML text defines its tables piece by piece. A tree remembers how each table came to be, because
that decides which later lines may add to it.

* `Toml.Node`: a finished value, an open table, or a list of tables of which the newest is open.
* `Toml.alter`: a change of the table at a path, with the tables on the way made if need be.
* `Toml.assign`: a key and its value, put into the table that a header names.
* `Toml.openTable`, `Toml.openElement`: what a header in one and in two brackets does.
-/

namespace NameHunt.Toml

/-- How a table came to be. -/
inductive Origin where
  /-- By a header of its own. -/
  | header
  /-- On the way to the table of a header. -/
  | passed
  /-- By a key with points. -/
  | dotted
  deriving Repr, DecidableEq

/-- A value, an open table, or a list of tables, newest first. -/
inductive Node where
  | leaf (value : Document)
  | branch (origin : Origin) (fields : List (String × Node))
  | series (tables : List (List (String × Node)))

/-- The fields of an open table in the order of their definition. -/
abbrev Fields := List (String × Node)

/-- A field that is there is replaced at its place, a new one is put at the end. -/
def Fields.set (name : String) (node : Node) : Fields → Fields
  | [] => [(name, node)]
  | field :: rest =>
    if field.1 = name then (name, node) :: rest else field :: Fields.set name node rest

/-- A change of the table at the end of a path. `dotted` tells a path of a key from a path of a
header: a key must not enter a table that has a header of its own. The change is told the origin
of the table, the open table at the start of the path counting as one with a header. -/
def alter (dotted : Bool) (change : Origin → Fields → Option Fields) :
    List String → Origin → Fields → Option Fields
  | [], origin, fields => change origin fields
  | name :: path, _, fields =>
    match fields.lookup name with
    | none =>
      let origin := if dotted then .dotted else .passed
      (alter dotted change path origin []).map fun inner => fields.set name (.branch origin inner)
    | some (.leaf _) => none
    | some (.branch origin inner) =>
      if dotted && origin == .header then none
      else
        (alter dotted change path origin inner).map fun inner =>
          fields.set name (.branch origin inner)
    | some (.series []) => none
    | some (.series (newest :: older)) =>
      (alter dotted change path .header newest).map fun newest =>
        fields.set name (.series (newest :: older))

/-- A change of the open table that a header has named. -/
def within (change : Fields → Option Fields) : List String → Fields → Option Fields
  | [], fields => change fields
  | name :: path, fields =>
    match fields.lookup name with
    | some (.branch origin inner) =>
      (within change path inner).map fun inner => fields.set name (.branch origin inner)
    | some (.series (newest :: older)) =>
      (within change path newest).map fun newest => fields.set name (.series (newest :: older))
    | _ => none

/-- A value under a key with points. Each key is set once, and the last table on the way must be
one of keys with points. -/
def assignHere (path : List String) (name : String) (value : Document) (fields : Fields) :
    Option Fields :=
  alter true
    (fun origin inner =>
      if !path.isEmpty && origin != .dotted then none
      else if (inner.lookup name).isSome then none
      else some (inner ++ [(name, .leaf value)]))
    path .header fields

/-- A value under a key, in the table of the newest header. -/
def assign (header path : List String) (name : String) (value : Document) (fields : Fields) :
    Option Fields :=
  within (assignHere path name value) header fields

/-- A header in one bracket: a new table, or one that was only passed on the way to another. -/
def openTable (path : List String) (name : String) (fields : Fields) : Option Fields :=
  alter false
    (fun _ inner =>
      match inner.lookup name with
      | none => some (inner ++ [(name, .branch .header [])])
      | some (.branch .passed deeper) => some (Fields.set name (.branch .header deeper) inner)
      | some _ => none)
    path .header fields

/-- A header in two brackets: one more table of a list. -/
def openElement (path : List String) (name : String) (fields : Fields) : Option Fields :=
  alter false
    (fun _ inner =>
      match inner.lookup name with
      | none => some (inner ++ [(name, .series [[]])])
      | some (.series tables) => some (Fields.set name (.series ([] :: tables)) inner)
      | some _ => none)
    path .header fields

mutual

/-- The document of a node. -/
def Node.document : Node → Document
  | .leaf value => value
  | .branch _ fields => .table (fieldDocuments fields)
  | .series tables => .list (tableDocuments tables).reverse

/-- The documents of the fields of a table. -/
def fieldDocuments : List (String × Node) → List (String × Document)
  | [] => []
  | (name, node) :: rest => (name, node.document) :: fieldDocuments rest

/-- The documents of a list of tables. -/
def tableDocuments : List (List (String × Node)) → List Document
  | [] => []
  | fields :: rest => .table (fieldDocuments fields) :: tableDocuments rest

end

end NameHunt.Toml
