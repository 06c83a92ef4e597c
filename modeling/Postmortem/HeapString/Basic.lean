import Postmortem.Budget
import Postmortem.Snapshot.Basic

/-! # Strings on the heap

A string is stored in one of four ways: its characters follow the header, it is the concatenation of
two strings, it is a slice of another string, or its characters lie outside the heap behind a
resource. `HeapString.load` reads the header only, so nothing it says about length and offset has
been checked against the characters. -/

namespace Postmortem

/-- The width of a string's characters. -/
inductive Encoding where
  /-- Latin-1, one byte a character. -/
  | oneByte
  /-- UTF-16, two bytes a code unit. -/
  | twoByte
  deriving DecidableEq, Repr

namespace Encoding

/-- Bytes in a character. -/
def width : Encoding → Nat
  | .oneByte => 1
  | .twoByte => 2

theorem width_pos (e : Encoding) : 0 < e.width := by cases e <;> decide

/-- The code units that bytes hold, least significant byte first. -/
def units : Encoding → List UInt8 → List UInt16
  | .oneByte, bytes => bytes.map (·.toUInt16)
  | .twoByte, low :: high :: rest =>
    (low.toUInt16 ||| high.toUInt16 <<< 8) :: Encoding.twoByte.units rest
  | .twoByte, _ => []

/-- The field with the characters of a sequential string. -/
def charsField : Encoding → FieldName
  | .oneByte => ⟨"SeqOneByteString", "chars"⟩
  | .twoByte => ⟨"SeqTwoByteString", "chars"⟩

end Encoding

/-- How a string's characters are stored. -/
inductive Representation where
  /-- They follow the header. -/
  | sequential
  /-- Those of `first`, then those of `second`. -/
  | concatenated (first second : Word)
  /-- Those of `parent` from `offset` on. -/
  | sliced (parent : Word) (offset : Nat)
  /-- They lie at `data`, outside the heap. Where two-byte characters lie is not known. -/
  | external (resource : Word) (data : Option Word)
  deriving DecidableEq, Repr

/-- The header of a string. -/
structure HeapString where
  address : Word
  /-- The length in characters. -/
  length : Nat
  typeByte : UInt8
  encoding : Encoding
  representation : Representation
  /-- The policy for what is allocated while the string is written. -/
  policy : AllocationPolicy
  deriving DecidableEq, Repr

namespace HeapString

/-- Whether the characters take one byte each. -/
def isOneByte (h : HeapString) : Bool := h.encoding = .oneByte

/-- Whether the characters lie outside the heap. -/
def isExternal (h : HeapString) : Bool :=
  match h.representation with
  | .external .. => true
  | _ => false

/-- Reads how the characters of the string at an address are stored. -/
def readRepresentation (s : Snapshot) (tags : StringTags) (address : Word) (typeByte : UInt8)
    (encoding : Encoding) : Except DecodeError Representation := do
  let bits := typeByte &&& tags.representationMask
  if bits = tags.sequentialTag then return .sequential
  else if bits = tags.concatenatedTag then
    let first ← s.readField address ⟨"ConsString", "first"⟩
    let second ← s.readField address ⟨"ConsString", "second"⟩
    return .concatenated first second
  else if bits = tags.slicedTag then
    let parent ← s.readField address ⟨"SlicedString", "parent"⟩
    let offset ← s.readNatural address ⟨"SlicedString", "offset"⟩ .negativeOffset
    return .sliced parent offset
  else if bits = tags.externalTag then
    let resource ← s.readField address ⟨"ExternalString", "resource"⟩
    match encoding with
    | .oneByte =>
      let field ← s.fieldAddress resource ⟨"ExternalStringResource", "data"⟩
      return .external resource (some (← s.readWord field))
    | .twoByte => return .external resource none
  else throw (.unsupportedRepresentation address typeByte)

/-- Loads the string that a word points to. -/
def load (s : Snapshot) (w : Word) (policy : AllocationPolicy) : Except DecodeError HeapString := do
  let address ← s.objectAddress w
  let typeByte ← s.typeByte address
  match s.layout.types.strings with
  | none => throw (.missingConfiguration ⟨"types", "strings"⟩)
  | some tags =>
    if !tags.isString typeByte then throw (.wrongTypeTag address "String" typeByte)
    let encoding : Encoding := if tags.isOneByte typeByte then .oneByte else .twoByte
    let length ← s.readNatural address ⟨"String", "length"⟩ .negativeLength
    let representation ← readRepresentation s tags address typeByte encoding
    return { address, length, typeByte, encoding, representation, policy }

end HeapString

end Postmortem
