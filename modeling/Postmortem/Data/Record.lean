import Postmortem.Data.Basic

/-! # Reading records

A record type names its fields in a fixed order. Its values are written as a record, in which
unknown fields are passed over if they are sound and a known one must not occur twice, or as an
array that lists the fields by position. `Data.fields?` finds the fields; `required`, `optional`
and `defaulted` read one of them, which differ in what they make of a field that is not there. -/

namespace Postmortem.Data

/-- What becomes of items beyond the last field of a record written as an array. -/
inductive Surplus where
  | refused
  | ignored
  deriving DecidableEq, Repr

/-- The fields of a record whose type has the given field names. -/
def fields? (surplus : Surplus) (names : List String) : Data → Option (List (String × Data))
  | .array items =>
    if items.length ≤ names.length ∨ surplus = .ignored then some (names.zip items) else none
  | .record fields => do
    let named ← fields.mapM fun field => field.1.map (·, field.2)
    let known := named.filter fun field => names.contains field.1
    let isSound := named.all fun field => names.contains field.1 || field.2.isSound
    if (known.map Prod.fst).Nodup ∧ isSound then some known else none
  | _ => none

variable {α : Type} (read : Data → Option α) (fields : List (String × Data)) (name : String)

/-- A field that must be there. -/
def required : Option α := fields.lookup name >>= read

/-- A field that may be missing or hold the absent value. -/
def optional : Option (Option α) :=
  match fields.lookup name with
  | none | some .null => some none
  | some d => (read d).map some

/-- A field that has the value `default` if it is missing. -/
def defaulted (default : α) : Option α :=
  match fields.lookup name with
  | none => some default
  | some d => read d

end Postmortem.Data
