import Postmortem.Data.Basic

/-! # Merge patches

A patch is itself a tree of data. Merged into a tree, its records are merged field by field, a field
that it holds as absent is removed, and anything else in it replaces what was there. -/

namespace Postmortem.Data

/-- Fields with `value` under `name`: in place of the old field, else at the end. -/
def setField (name : Option String) (value : Data) :
    List (Option String × Data) → List (Option String × Data)
  | [] => [(name, value)]
  | field :: rest =>
    if field.1 == name then (name, value) :: rest else field :: setField name value rest

mutual

/-- The tree after a patch was merged into it. -/
def mergePatch (target : Data) : Data → Data
  | .record changes =>
    match target with
    | .record fields => .record (mergeFields fields changes)
    | _ => .record (mergeFields [] changes)
  | replacement => replacement

/-- The fields of a record after the fields of a patch were merged into them, in order. -/
def mergeFields (fields : List (Option String × Data)) :
    List (Option String × Data) → List (Option String × Data)
  | [] => fields
  | (name, .null) :: rest => mergeFields (fields.filter fun field => field.1 != name) rest
  | (name, change) :: rest =>
    mergeFields (setField name (mergePatch ((fields.lookup name).getD .null) change) fields) rest

end

end Postmortem.Data
