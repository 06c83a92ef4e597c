import Postmortem.Data.Record
import Postmortem.Layout.Basic

/-! # Layouts as data

Each part of a layout is a record with fixed field names. `toData` writes every field, an absent
entry as the absent value; `ofData?` reads a record back. Tags have to be there, and so do the
mandatory bits of the string tags; all else may be left out. -/

namespace Postmortem

open Data

/-! ## Tags -/

namespace TagScheme

/-- The field names of a tag scheme. -/
def fieldNames : List String :=
  ["pointer_size", "heap_object_tag", "heap_object_tag_mask", "smi_tag", "smi_tag_mask",
    "smi_value_shift", "smi_shift_size", "failure_tag", "failure_tag_mask"]

/-- A tag scheme as data. -/
def toData (t : TagScheme) : Data := .ofFields
  [("pointer_size", .nat t.pointerSize.toNat),
    ("heap_object_tag", .nat t.pointerTag.toNat),
    ("heap_object_tag_mask", .nat t.pointerMask.toNat),
    ("smi_tag", .nat t.smallIntTag.toNat),
    ("smi_tag_mask", .nat t.smallIntMask.toNat),
    ("smi_value_shift", .nat t.valueShift.toNat),
    ("smi_shift_size", .nat t.paddingShift.toNat),
    ("failure_tag", .ofOption (.nat ·.toNat) t.failureTag),
    ("failure_tag_mask", .ofOption (.nat ·.toNat) t.failureMask)]

/-- The tag scheme that data describe. -/
def ofData? (surplus : Surplus) (d : Data) : Option TagScheme := do
  let fields ← d.fields? surplus fieldNames
  return {
    pointerSize := ← required word? fields "pointer_size"
    pointerTag := ← required word? fields "heap_object_tag"
    pointerMask := ← required word? fields "heap_object_tag_mask"
    smallIntTag := ← required word? fields "smi_tag"
    smallIntMask := ← required word? fields "smi_tag_mask"
    valueShift := ← required halfWord? fields "smi_value_shift"
    paddingShift := ← required halfWord? fields "smi_shift_size"
    failureTag := ← optional word? fields "failure_tag"
    failureMask := ← optional word? fields "failure_tag_mask" }

end TagScheme

/-! ## Types -/

namespace StringTags

/-- The field names of string tags. -/
def fieldNames : List String :=
  ["is_not_string_mask", "string_tag", "encoding_mask", "one_byte_tag", "ascii_tag",
    "representation_mask", "seq_tag", "cons_tag", "sliced_tag", "external_tag"]

/-- String tags as data. -/
def toData (s : StringTags) : Data := .ofFields
  [("is_not_string_mask", .nat s.notStringMask.toNat),
    ("string_tag", .nat s.stringTag.toNat),
    ("encoding_mask", .nat s.encodingMask.toNat),
    ("one_byte_tag", .ofOption (.nat ·.toNat) s.oneByteTag),
    ("ascii_tag", .ofOption (.nat ·.toNat) s.asciiTag),
    ("representation_mask", .nat s.representationMask.toNat),
    ("seq_tag", .nat s.sequentialTag.toNat),
    ("cons_tag", .nat s.concatenatedTag.toNat),
    ("sliced_tag", .nat s.slicedTag.toNat),
    ("external_tag", .nat s.externalTag.toNat)]

/-- The string tags that data describe. -/
def ofData? (surplus : Surplus) (d : Data) : Option StringTags := do
  let fields ← d.fields? surplus fieldNames
  return {
    notStringMask := ← required byte? fields "is_not_string_mask"
    stringTag := ← required byte? fields "string_tag"
    encodingMask := ← required byte? fields "encoding_mask"
    oneByteTag := ← optional byte? fields "one_byte_tag"
    asciiTag := ← optional byte? fields "ascii_tag"
    representationMask := ← required byte? fields "representation_mask"
    sequentialTag := ← required byte? fields "seq_tag"
    concatenatedTag := ← required byte? fields "cons_tag"
    slicedTag := ← required byte? fields "sliced_tag"
    externalTag := ← required byte? fields "external_tag" }

end StringTags

namespace TypeBytes

/-- The field names of the type bytes. -/
def fieldNames : List String :=
  ["js_function", "fixed_array", "js_array", "context", "scope_info", "strings"]

/-- No type is known. -/
def none : TypeBytes where
  function := .none
  fixedArray := .none
  array := .none
  context := .none
  scopeInfo := .none
  strings := .none

/-- Type bytes as data. -/
def toData (t : TypeBytes) : Data := .ofFields
  [("js_function", .ofOption (.nat ·.toNat) t.function),
    ("fixed_array", .ofOption (.nat ·.toNat) t.fixedArray),
    ("js_array", .ofOption (.nat ·.toNat) t.array),
    ("context", .ofOption (.nat ·.toNat) t.context),
    ("scope_info", .ofOption (.nat ·.toNat) t.scopeInfo),
    ("strings", .ofOption StringTags.toData t.strings)]

/-- The type bytes that data describe. -/
def ofData? (surplus : Surplus) (d : Data) : Option TypeBytes := do
  let fields ← d.fields? surplus fieldNames
  return {
    function := ← optional byte? fields "js_function"
    fixedArray := ← optional byte? fields "fixed_array"
    array := ← optional byte? fields "js_array"
    context := ← optional byte? fields "context"
    scopeInfo := ← optional byte? fields "scope_info"
    strings := ← optional (StringTags.ofData? surplus) fields "strings" }

end TypeBytes

/-! ## Slot indices and limits -/

namespace ContextIndices

/-- The field names of the context indices. -/
def fieldNames : List String :=
  ["idx_closure", "idx_previous", "idx_extension", "idx_global", "ncommon"]

/-- No index is known. -/
def none : ContextIndices where
  closure := .none
  previous := .none
  extension := .none
  global := .none
  common := .none

/-- Context indices as data. -/
def toData (c : ContextIndices) : Data := .ofFields
  [("idx_closure", .ofOption (.nat ·.toNat) c.closure),
    ("idx_previous", .ofOption (.nat ·.toNat) c.previous),
    ("idx_extension", .ofOption (.nat ·.toNat) c.extension),
    ("idx_global", .ofOption (.nat ·.toNat) c.global),
    ("ncommon", .ofOption (.nat ·.toNat) c.common)]

/-- The context indices that data describe. -/
def ofData? (surplus : Surplus) (d : Data) : Option ContextIndices := do
  let fields ← d.fields? surplus fieldNames
  return {
    closure := ← optional word? fields "idx_closure"
    previous := ← optional word? fields "idx_previous"
    extension := ← optional word? fields "idx_extension"
    global := ← optional word? fields "idx_global"
    common := ← optional word? fields "ncommon" }

end ContextIndices

namespace ScopeInfoIndices

/-- The field names of the scope-info indices. -/
def fieldNames : List String :=
  ["idx_nparams", "idx_nstacklocals", "idx_ncontextlocals", "idx_first_vars",
    "offset_stack_locals"]

/-- No index is known. -/
def none : ScopeInfoIndices where
  parameterCount := .none
  stackLocalCount := .none
  contextLocalCount := .none
  firstName := .none
  stackLocalHeader := .none

/-- Scope-info indices as data. -/
def toData (s : ScopeInfoIndices) : Data := .ofFields
  [("idx_nparams", .ofOption (.nat ·.toNat) s.parameterCount),
    ("idx_nstacklocals", .ofOption (.nat ·.toNat) s.stackLocalCount),
    ("idx_ncontextlocals", .ofOption (.nat ·.toNat) s.contextLocalCount),
    ("idx_first_vars", .ofOption (.nat ·.toNat) s.firstName),
    ("offset_stack_locals", .ofOption (.nat ·.toNat) s.stackLocalHeader)]

/-- The scope-info indices that data describe. -/
def ofData? (surplus : Surplus) (d : Data) : Option ScopeInfoIndices := do
  let fields ← d.fields? surplus fieldNames
  return {
    parameterCount := ← optional word? fields "idx_nparams"
    stackLocalCount := ← optional word? fields "idx_nstacklocals"
    contextLocalCount := ← optional word? fields "idx_ncontextlocals"
    firstName := ← optional word? fields "idx_first_vars"
    stackLocalHeader := ← optional word? fields "offset_stack_locals" }

end ScopeInfoIndices

namespace Limits

/-- The field names of the limits. -/
def fieldNames : List String := ["max_allocation_bytes", "budget_bytes"]

/-- Limits as data. -/
def toData (l : Limits) : Data := .ofFields
  [("max_allocation_bytes", .nat l.maxAllocation.toNat), ("budget_bytes", .nat l.budget.toNat)]

/-- The limits that data describe; what is left out has its default. -/
def ofData? (surplus : Surplus) (d : Data) : Option Limits := do
  let fields ← d.fields? surplus fieldNames
  return {
    maxAllocation := ← defaulted word? fields "max_allocation_bytes" ({} : Limits).maxAllocation
    budget := ← defaulted word? fields "budget_bytes" ({} : Limits).budget }

end Limits

/-! ## Offsets -/

namespace NameMap

variable {α : Type}

/-- A map as data, its values written by `write`. -/
def toData (write : α → Data) (m : NameMap α) : Data :=
  .ofFields (m.entries.map fun entry => (entry.1, write entry.2))

/-- The map that data describe, its values read by `read`; the last of several entries counts. -/
def ofData? (read : Data → Option α) : Data → Option (NameMap α)
  | .record fields => do
    let entries ← fields.mapM fun field => do return (← field.1, ← read field.2)
    return ofList entries
  | _ => .none

end NameMap

/-! ## Layouts -/

namespace Layout

/-- The field names of a layout. -/
def fieldNames : List String :=
  ["version", "tags", "types", "context", "scope_info", "offsets", "limits"]

/-- A layout as data. -/
def toData (l : Layout) : Data := .ofFields
  [("version", .ofOption .string l.version),
    ("tags", l.tags.toData),
    ("types", l.types.toData),
    ("context", l.context.toData),
    ("scope_info", l.scopeInfo.toData),
    ("offsets", l.offsets.toData (NameMap.toData (.nat ·.toNat))),
    ("limits", l.limits.toData)]

/-- The layout that data describe, valid or not. -/
def ofData? (surplus : Surplus) (d : Data) : Option Layout := do
  let fields ← d.fields? surplus fieldNames
  return {
    version := ← optional string? fields "version"
    tags := ← required (TagScheme.ofData? surplus) fields "tags"
    types := ← defaulted (TypeBytes.ofData? surplus) fields "types" .none
    context := ← defaulted (ContextIndices.ofData? surplus) fields "context" .none
    scopeInfo := ← defaulted (ScopeInfoIndices.ofData? surplus) fields "scope_info" .none
    offsets := ← defaulted (NameMap.ofData? (NameMap.ofData? word?)) fields "offsets" ∅
    limits := ← defaulted (Limits.ofData? surplus) fields "limits" {} }

end Layout

end Postmortem
