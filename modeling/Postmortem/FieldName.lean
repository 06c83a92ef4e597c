/-! # Names of fields

A field of an object, and an entry of a layout, is named by the class or section it belongs to and
by its own name within it. -/

namespace Postmortem

/-- The name of a field of a class, or of an entry in a section of a layout. -/
structure FieldName where
  owner : String
  name : String
  deriving DecidableEq, Repr

/-- The two parts with a dot between them. -/
def FieldName.text (f : FieldName) : String := f.owner ++ "." ++ f.name

end Postmortem
