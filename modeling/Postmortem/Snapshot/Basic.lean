import Postmortem.Error
import Postmortem.Layout.Basic
import Postmortem.Memory.Basic

/-! # Snapshots of a heap

A `Snapshot` is the memory of a target together with the layout of its heap. Objects are addressed
without their tags, and every field is found by its name: `fieldAddress` adds the layout's offset to
the object's address and fails where the sum leaves the address space. -/

namespace Postmortem

/-- A slot index that the layout has to configure, under the given name. -/
def requireIndex (entry : FieldName) (index : Option UInt64) : Except DecodeError Nat :=
  match index with
  | some n => .ok n.toNat
  | none => .error (.missingConfiguration entry)

/-- The memory of a target and the layout of its heap. -/
structure Snapshot where
  memory : Memory
  layout : Layout

namespace Snapshot

variable (s : Snapshot)

/-- The class of a word. -/
def classify (w : Word) : WordClass := s.layout.tags.classify w

/-- The address of the object that a word points to. -/
def objectAddress (w : Word) : Except DecodeError Word :=
  match s.layout.tags.address? w with
  | some address => .ok address
  | none => .error (.notHeapPointer w)

/-! ## Bytes and words -/

/-- Bytes of the target. -/
def readBytes (address : Word) (length : Nat) : Except DecodeError (List UInt8) :=
  match s.memory.read address length with
  | .ok bytes => .ok bytes
  | .error cause => .error (.unreadable address length cause)

/-- A word of the target. -/
def readWord (address : Word) : Except DecodeError Word :=
  (s.readBytes address s.layout.tags.wordSize).map Word.ofBytes

/-! ## Fields -/

/-- The address of a field of an object. -/
def fieldAddress (object : Word) (field : FieldName) : Except DecodeError Word :=
  match s.layout.offset? field with
  | none => .error (.missingConfiguration field)
  | some offset =>
    match object.advance? offset.toNat with
    | some address => .ok address
    | none => .error (.corruptField object field .addressOverflow)

/-- The word in a field. -/
def readField (object : Word) (field : FieldName) : Except DecodeError Word := do
  s.readWord (← s.fieldAddress object field)

/-- The integer in a field that has to hold a small integer. -/
def readSmallInt (object : Word) (field : FieldName) : Except DecodeError Int := do
  match s.classify (← s.readField object field) with
  | .smallInt n => return n
  | _ => throw (.corruptField object field .notSmallInt)

/-- The natural number in a field that has to hold a small integer; `flaw` is what a negative one
means. -/
def readNatural (object : Word) (field : FieldName) (flaw : FieldFlaw) :
    Except DecodeError Nat := do
  let n ← s.readSmallInt object field
  if n < 0 then throw (.corruptField object field flaw)
  return n.toNat

/-- The integer in a field that holds a small integer on some builds and a plain one on others. -/
def readInteger (object : Word) (field : FieldName) : Except DecodeError Int := do
  let w ← s.readField object field
  match s.classify w with
  | .smallInt n => return n
  | _ => return w.toInt64.toInt

/-! ## Types -/

/-- The type byte of an object, which its map holds. -/
def typeByte (object : Word) : Except DecodeError UInt8 := do
  let map ← s.objectAddress (← s.readField object ⟨"HeapObject", "map"⟩)
  let bytes ← s.readBytes (← s.fieldAddress map ⟨"Map", "instance_attributes"⟩) 1
  return bytes.headD 0

/-- The address of the object that a word points to and its type byte, which has to be one of those
accepted. -/
def expectType (w : Word) (expected : String) (accepted : List (Option UInt8)) :
    Except DecodeError (Word × UInt8) := do
  let address ← s.objectAddress w
  let found ← s.typeByte address
  if accepted.contains (some found) then return (address, found)
  else throw (.wrongTypeTag address expected found)

end Snapshot

end Postmortem
