import Postmortem.FieldName
import Postmortem.Memory.Basic

/-! # Decoding errors

Everything that can go wrong while an object is decoded is a `DecodeError`: each constructor is a
cause and carries what is known about it. `DecodeError.message` words it. -/

namespace Postmortem

/-- What is wrong with an object that is laid out as an array. -/
inductive ArrayFlaw where
  | negativeLength (length : Int)
  /-- A context without all of its static slots. -/
  | contextTooShort
  /-- A scope info without all of its header. -/
  | headerTooShort
  /-- A scope info whose counts are not all natural numbers. -/
  | countsUnreadable
  /-- A scope info with fewer names than its counts say. -/
  | namesMissing
  deriving DecidableEq, Repr

/-- The wording of a flaw. -/
def ArrayFlaw.message : ArrayFlaw → String
  | .negativeLength length => "negative array length " ++ toString length
  | .contextTooShort => "context array is too short"
  | .headerTooShort => "array too short to be a ScopeInfo"
  | .countsUnreadable => "static ScopeInfo fields do not look like SMIs"
  | .namesMissing => "short scopeinfo"

/-- What is wrong with the value of a field. -/
inductive FieldFlaw where
  /-- The field lies beyond the address space. -/
  | addressOverflow
  | notSmallInt
  | negativeLength
  | negativeOffset
  /-- The characters that the length speaks of lie beyond the address space. -/
  | charactersOverflow
  deriving DecidableEq, Repr

/-- The wording of a flaw. -/
def FieldFlaw.message : FieldFlaw → String
  | .addressOverflow => "field address overflows"
  | .notSmallInt => "expected a small integer"
  | .negativeLength => "negative length"
  | .negativeOffset => "negative offset"
  | .charactersOverflow => "character data overflows the address space"

/-- Why an object could not be decoded. -/
inductive DecodeError where
  /-- The word is no pointer to a heap object. -/
  | notHeapPointer (value : Word)
  /-- The object's type byte is not among those accepted. -/
  | wrongTypeTag (address : Word) (expected : String) (found : UInt8)
  /-- The string's characters are stored in no known way. -/
  | unsupportedRepresentation (address : Word) (typeByte : UInt8)
  /-- The array is too short for what it is to be, or its header makes no sense. -/
  | corruptArray (address : Word) (flaw : ArrayFlaw)
  /-- The field holds a value that cannot be right. -/
  | corruptField (address : Word) (field : FieldName) (flaw : FieldFlaw)
  /-- The memory did not give the bytes asked for. -/
  | unreadable (address : Word) (length : Nat) (cause : ReadError)
  /-- The budget refused an allocation. -/
  | allocationRefused (size : UInt64)
  /-- The layout lacks an entry that the operation depends on. -/
  | missingConfiguration (entry : FieldName)
  /-- Strings are nested too deep. -/
  | depthExceeded (depth : Nat)
  /-- There is no slot at the index. -/
  | indexOutOfRange (index length : Nat)
  /-- External characters do not look like ASCII text. -/
  | nonAsciiData (address : Word)
  deriving DecidableEq, Repr

/-- The wording of an error. -/
def DecodeError.message : DecodeError → String
  | .notHeapPointer value => hex value.toNat ++ ": not a heap object"
  | .wrongTypeTag address expected found =>
    hex address.toNat ++ ": not a " ++ expected ++ " (type " ++ hexPadded 2 found.toNat ++ ")"
  | .unsupportedRepresentation address typeByte =>
    hex address.toNat ++ ": unsupported string representation (type "
      ++ hexPadded 2 typeByte.toNat ++ ")"
  | .corruptArray address flaw => hex address.toNat ++ ": " ++ flaw.message
  | .corruptField address field flaw =>
    hex address.toNat ++ ": corrupt " ++ field.text ++ ": " ++ flaw.message
  | .unreadable address length cause =>
    "failed to read " ++ toString length ++ " bytes at " ++ hex address.toNat ++ ": "
      ++ cause.message
  | .allocationRefused size => "failed to allocate " ++ toString size.toNat ++ " bytes"
  | .missingConfiguration entry => "missing layout configuration: " ++ entry.text
  | .depthExceeded depth => "maximum string depth exceeded at depth " ++ toString depth
  | .indexOutOfRange index length =>
    "index " ++ toString index ++ " is out of range (" ++ toString length ++ " slots)"
  | .nonAsciiData address => hex address.toNat ++ ": external string data is not ASCII"

end Postmortem
