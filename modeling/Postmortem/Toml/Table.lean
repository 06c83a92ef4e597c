import Postmortem.Data.Basic

/-! # Tables of TOML

A table is built up by headers and by dotted keys, and how it came about decides how it may still
grow: a header may define a table that only a longer header has mentioned, but not one that has a
definition of its own; a dotted key adds to tables that dotted keys made and to nothing that a
header defined. `Table.define`, `Table.addElement` and `Table.assign` are the three changes; each
fails where the table may not grow in that way. -/

namespace Postmortem.Toml

/-- How a table came about. -/
inductive Origin where
  /-- It has a header of its own, or it is the table of the whole document. -/
  | defined
  /-- It occurs within the header of another table. -/
  | mentioned
  /-- It occurs before the last dot of a key. -/
  | dotted
  deriving DecidableEq, Repr

/-- What a key stands for while the document is read. -/
inductive Entry where
  /-- A value that does not grow any more. -/
  | closed (value : Data)
  | table (origin : Origin) (entries : List (String × Entry))
  /-- Tables under a repeated header, the newest first. -/
  | elements (tables : List (List (String × Entry)))
  deriving Inhabited

/-- The entries of a table. -/
abbrev Table := List (String × Entry)

namespace Table

/-- Entries with another entry under a key: in place of the old one, else at the end. -/
def set (key : String) (entry : Entry) : Table → Table
  | [] => [(key, entry)]
  | other :: rest => if other.1 = key then (key, entry) :: rest else other :: set key entry rest

/-- A step of a path to the table that is to be changed. -/
structure Step where
  key : String
  /-- Whether the step is part of a dotted key and not of a header. -/
  dotted : Bool

/-- The table that a step leads to, and the entry that holds it once it was changed. -/
def Step.enter? (step : Step) : Option Entry → Option (Origin × Table × (Table → Entry))
  | none =>
    let origin := if step.dotted then .dotted else .mentioned
    some (origin, [], .table origin)
  | some (.table origin entries) =>
    if step.dotted ∧ origin = .defined then none else some (origin, entries, .table origin)
  | some (.elements (newest :: older)) => some (.defined, newest, fun t => .elements (t :: older))
  | some _ => none

/-- The table after `change` was made to the table at the end of the path. -/
def update? (change : Origin → Table → Option Table) (origin : Origin) :
    List Step → Table → Option Table
  | [], table => change origin table
  | step :: rest, table => do
    let (origin, inner, hold) ← step.enter? (table.lookup step.key)
    let inner ← update? change origin rest inner
    return table.set step.key (hold inner)

/-- A header: the table `name` inside those of the path is defined. -/
def define? (path : List String) (name : String) (root : Table) : Option Table :=
  update? (fun _ table =>
    match table.lookup name with
    | none => some (table.set name (.table .defined []))
    | some (.table .mentioned entries) => some (table.set name (.table .defined entries))
    | some _ => none) .defined (path.map (⟨·, false⟩)) root

/-- A repeated header: one more table `name` inside those of the path. -/
def addElement? (path : List String) (name : String) (root : Table) : Option Table :=
  update? (fun _ table =>
    match table.lookup name with
    | none => some (table.set name (.elements [[]]))
    | some (.elements tables) => some (table.set name (.elements ([] :: tables)))
    | some _ => none) .defined (path.map (⟨·, false⟩)) root

/-- A key with a value, under the header path and after the dots of its own path. -/
def assign? (header path : List String) (name : String) (value : Data) (root : Table) :
    Option Table :=
  update? (fun origin table =>
    if path ≠ [] ∧ origin ≠ .dotted then none
    else if (table.lookup name).isSome then none
    else some (table ++ [(name, .closed value)]))
    .defined (header.map (⟨·, false⟩) ++ path.map (⟨·, true⟩)) root

end Table

/-! ## Tables as data -/

mutual

/-- An entry as data. -/
def Entry.toData : Entry → Data
  | .closed value => value
  | .table _ entries => .record (fieldsOfEntries entries)
  | .elements tables => .array (recordsOfTables [] tables)

/-- The entries of a table as the fields of a record. -/
def fieldsOfEntries : List (String × Entry) → List (Option String × Data)
  | [] => []
  | (key, entry) :: rest => (some key, entry.toData) :: fieldsOfEntries rest

/-- Tables, the newest first, as records before those `done`. -/
def recordsOfTables (done : List Data) : List (List (String × Entry)) → List Data
  | [] => done
  | table :: older => recordsOfTables (.record (fieldsOfEntries table) :: done) older

end

/-- A table as data. -/
def Table.toData (table : Table) : Data := .record (fieldsOfEntries table)

end Postmortem.Toml
