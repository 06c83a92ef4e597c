import Postmortem.FieldName
import Postmortem.NameMap
import Postmortem.Tag

/-! # Layouts

Field offsets, type bytes and slot indices differ from build to build of the runtime that filled
the heap; a `Layout` records them for one build. Any of them may be absent. Offsets are byte
offsets from the start of an object without its tag (`Layout.offset?`). -/

namespace Postmortem

/-- The bit fields of a string's type byte. -/
structure StringTags where
  /-- The bits that tell strings from other objects. -/
  notStringMask : UInt8
  /-- Those bits in a string. -/
  stringTag : UInt8
  /-- The bits that hold the width of the characters. -/
  encodingMask : UInt8
  /-- Those bits in a string of one-byte characters, on newer builds. -/
  oneByteTag : Option UInt8
  /-- Those bits in a string of one-byte characters, on older builds. -/
  asciiTag : Option UInt8
  /-- The bits that say how the characters are stored. -/
  representationMask : UInt8
  sequentialTag : UInt8
  concatenatedTag : UInt8
  slicedTag : UInt8
  externalTag : UInt8
  deriving DecidableEq, Repr

namespace StringTags

/-- Whether the type byte is that of a string. -/
def isString (s : StringTags) (typeByte : UInt8) : Bool :=
  typeByte &&& s.notStringMask == s.stringTag

/-- Whether a string of this type has one-byte characters. -/
def isOneByte (s : StringTags) (typeByte : UInt8) : Bool :=
  let encoding := typeByte &&& s.encodingMask
  s.oneByteTag == some encoding || s.asciiTag == some encoding

end StringTags

/-- The type bytes of the objects that are decoded. -/
structure TypeBytes where
  function : Option UInt8
  fixedArray : Option UInt8
  array : Option UInt8
  /-- The type of contexts, on builds where they are not plain fixed arrays. -/
  context : Option UInt8
  /-- The type of scope infos, on builds where they are not plain fixed arrays. -/
  scopeInfo : Option UInt8
  strings : Option StringTags
  deriving DecidableEq, Repr

/-- Where a context keeps its static slots. -/
structure ContextIndices where
  closure : Option UInt64
  previous : Option UInt64
  extension : Option UInt64
  global : Option UInt64
  /-- How many slots come before those of the variables. -/
  common : Option UInt64
  deriving DecidableEq, Repr

/-- Where a scope info keeps its counts and its first names. -/
structure ScopeInfoIndices where
  parameterCount : Option UInt64
  stackLocalCount : Option UInt64
  contextLocalCount : Option UInt64
  /-- The first slot after the header. -/
  firstName : Option UInt64
  /-- Slots between the parameter names and those of the stack locals. -/
  stackLocalHeader : Option UInt64
  deriving DecidableEq, Repr

/-- Bounds on the bytes that decoded objects take. -/
structure Limits where
  /-- The most that one allocation may take. -/
  maxAllocation : UInt64 := 64 * 1024 * 1024
  /-- The soft limit on all of them together. -/
  budget : UInt64 := 256 * 1024 * 1024
  deriving DecidableEq, Repr

/-- Byte offsets by class and field. -/
abbrev Offsets := NameMap (NameMap UInt64)

/-- The layout of one build's heap. -/
structure Layout where
  /-- A free description of the build. -/
  version : Option String
  tags : TagScheme
  types : TypeBytes
  context : ContextIndices
  scopeInfo : ScopeInfoIndices
  offsets : Offsets
  limits : Limits
  deriving DecidableEq

namespace Layout

/-- The byte offset of a field, if the build has it. -/
def offset? (l : Layout) (field : FieldName) : Option UInt64 :=
  (l.offsets.get? field.owner).bind (·.get? field.name)

/-- The layout with another offset for a field. -/
def setOffset (l : Layout) (field : FieldName) (offset : UInt64) : Layout :=
  let fields := ((l.offsets.get? field.owner).getD ∅).insert field.name offset
  { l with offsets := l.offsets.insert field.owner fields }

theorem offset?_setOffset (l : Layout) (field other : FieldName) (offset : UInt64) :
    (l.setOffset field offset).offset? other =
      if other = field then some offset else l.offset? other := by
  obtain ⟨owner, name⟩ := field
  obtain ⟨owner', name'⟩ := other
  simp only [offset?, setOffset, NameMap.get?_insert, FieldName.mk.injEq]
  by_cases ho : owner' = owner
  · subst ho
    cases h : l.offsets.get? owner' with
    | none =>
      by_cases hn : name' = name
      · simp [NameMap.get?_insert, hn]
      · simp [NameMap.get?_insert, hn]
        rfl
    | some fields => simp [NameMap.get?_insert]
  · simp [ho]

end Layout

end Postmortem
