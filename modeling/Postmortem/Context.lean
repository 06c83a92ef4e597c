import Postmortem.ScopeInfo

/-! # Contexts

A `Context` holds the variables that a closure captured. It is laid out as a fixed array: a few
static slots, and after `common` slots one dynamic slot for each variable (`Context.valueAt`). The
scope info of the closure names those variables. -/

namespace Postmortem

/-- Where a context keeps its static slots. -/
structure ContextHeader where
  closure : Nat
  previous : Nat
  extension : Nat
  global : Nat
  /-- How many slots come before those of the variables. -/
  common : Nat
  deriving DecidableEq, Repr

namespace ContextHeader

/-- The header that the layout describes. -/
def ofLayout (l : Layout) : Except DecodeError ContextHeader := do
  let indices := l.context
  return {
    closure := ← requireIndex ⟨"context", "idx_closure"⟩ indices.closure
    previous := ← requireIndex ⟨"context", "idx_previous"⟩ indices.previous
    extension := ← requireIndex ⟨"context", "idx_extension"⟩ indices.extension
    global := ← requireIndex ⟨"context", "idx_global"⟩ indices.global
    common := ← requireIndex ⟨"context", "ncommon"⟩ indices.common }

/-- The static slots with their labels, in the order in which they are shown. -/
def labelled (h : ContextHeader) : List (String × Nat) :=
  [("closure function", h.closure), ("previous context", h.previous), ("extension", h.extension),
    ("global object", h.global)]

/-- Whether an array of the given size has all the slots that the header speaks of. -/
def fits (h : ContextHeader) (size : Nat) : Bool :=
  h.common ≤ size && h.labelled.all (·.2 < size)

end ContextHeader

/-- A context, copied out of the target. -/
structure Context where
  array : FixedArray
  header : ContextHeader
  deriving DecidableEq, Repr

namespace Context

/-- Loads the context that a word points to. -/
def load (s : Snapshot) (w : Word) (policy : AllocationPolicy) : Loading Context := do
  let header ← Loading.ofExcept (ContextHeader.ofLayout s.layout)
  let array ← FixedArray.loadAs s w "Context" s.layout.types.context policy
  if header.fits array.size then return { array, header }
  else
    Loading.release array.booked
    throw (.corruptArray array.address .contextTooShort)

variable (c : Context)

/-- The address of the context. -/
def address : Word := c.array.address

/-- The number of slots. -/
def size : Nat := c.array.size

/-- The word in a slot. -/
def slot (index : Nat) : Word := (c.array.get? index).getD 0

/-! ## Static slots -/

/-- The closure that the context belongs to. -/
def closure : Word := c.slot c.header.closure

/-- The context around this one. -/
def previous : Word := c.slot c.header.previous

/-- The extension object. -/
def extension : Word := c.slot c.header.extension

/-- The global object. -/
def global : Word := c.slot c.header.global

/-- The static slots with their labels. -/
def staticSlots : List (String × Word) :=
  c.header.labelled.map fun (label, index) => (label, c.slot index)

/-- Visits the static slots. -/
def visitStatic {m : Type → Type} [Monad m] {β : Type} (visitor : String × Word → m (Flow β)) :
    m (Flow β) :=
  visit visitor c.staticSlots

/-! ## Variables -/

/-- The number of variables. -/
def variableCount : Nat := c.size - c.header.common

/-- The value of a variable. -/
def valueAt (index : Nat) : Except DecodeError Word :=
  if index < c.variableCount then .ok (c.slot (index + c.header.common))
  else .error (.indexOutOfRange index c.variableCount)

/-- The variables with their indices. -/
def dynamicSlots : List (Nat × Word) :=
  ((c.array.words.extract c.header.common c.size).toList.zipIdx).map Prod.swap

/-- Visits the variables. -/
def visitDynamic {m : Type → Type} [Monad m] {β : Type} (visitor : Nat × Word → m (Flow β)) :
    m (Flow β) :=
  visit visitor c.dynamicSlots

/-- The value of a variable of a scope, which only a context local has. -/
def valueOf (v : ScopeVar) : Except DecodeError Word :=
  match v.contextIndex? with
  | some index => c.valueAt index
  | none => .error (.indexOutOfRange v.ordinal 0)

end Context

end Postmortem
