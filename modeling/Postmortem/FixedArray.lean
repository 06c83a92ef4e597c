import Postmortem.Snapshot.Slots
import Postmortem.Visit

/-! # Arrays

A `FixedArray` is a length followed by that many tagged slots. Contexts and scope infos are laid out
as one, with a type of their own on some builds, so they are loaded through `FixedArray.loadAs`. A
`JSArray` is an array of the language: a length, and a fixed array that holds the elements. -/

namespace Postmortem

/-- An array of slots, copied out of the target. -/
structure FixedArray extends Slots where
  address : Word
  deriving DecidableEq, Repr

namespace FixedArray

/-- The number of slots. -/
def size (a : FixedArray) : Nat := a.words.size

/-- The word in a slot. -/
def get? (a : FixedArray) (index : Nat) : Option Word := a.words[index]?

/-- The address and the length of the array that a word points to. Besides fixed arrays, objects of
the type `alternative` are accepted. -/
def header (s : Snapshot) (w : Word) (expected : String) (alternative : Option UInt8) :
    Except DecodeError (Word × Nat) := do
  let (address, _) ← s.expectType w expected [s.layout.types.fixedArray, alternative]
  let length ← s.readSmallInt address ⟨"FixedArray", "length"⟩
  if length < 0 then throw (.corruptArray address (.negativeLength length))
  return (address, length.toNat)

/-- Loads the array that a word points to. Besides fixed arrays, objects of the type `alternative`
are accepted. -/
def loadAs (s : Snapshot) (w : Word) (expected : String) (alternative : Option UInt8)
    (policy : AllocationPolicy) : Loading FixedArray := do
  let (address, length) ← Loading.ofExcept (header s w expected alternative)
  let data ← Loading.ofExcept (s.fieldAddress address ⟨"FixedArray", "data"⟩)
  let slots ← s.readSlots data length policy
  return { slots with address }

/-- Loads the fixed array that a word points to. -/
def load (s : Snapshot) (w : Word) (policy : AllocationPolicy) : Loading FixedArray :=
  loadAs s w "FixedArray" none policy

end FixedArray

/-- An array of the language, copied out of the target. -/
structure JSArray where
  address : Word
  length : Nat
  /-- The array that holds the elements; an array of length zero needs none. -/
  store : Option FixedArray
  deriving DecidableEq, Repr

namespace JSArray

/-- Loads the array that a word points to. -/
def load (s : Snapshot) (w : Word) (policy : AllocationPolicy) : Loading JSArray := do
  let (address, length) ← Loading.ofExcept do
    let (address, _) ← s.expectType w "JSArray" [s.layout.types.array]
    let length ← s.readSmallInt address ⟨"JSArray", "length"⟩
    if length < 0 then throw (.corruptArray address (.negativeLength length))
    return (address, length.toNat)
  if length = 0 then return { address, length, store := none }
  let elements ← Loading.ofExcept (s.readField address ⟨"JSObject", "elements"⟩)
  let store ← FixedArray.load s elements policy
  return { address, length, store := some store }

/-- The bytes booked for the elements. -/
def booked (a : JSArray) : UInt64 := (a.store.map (·.booked)).getD 0

/-- The elements in order of index. The store may have spare slots beyond the length, and that of a
corrupt array too few. -/
def elements (a : JSArray) : List Word :=
  match a.store with
  | some store => store.words.toList.take a.length
  | none => []

/-- Visits the elements with their indices. -/
def visitElements {m : Type → Type} [Monad m] {β : Type} (a : JSArray)
    (visitor : Nat × Word → m (Flow β)) : m (Flow β) :=
  visit visitor (a.elements.zipIdx.map Prod.swap)

end JSArray

end Postmortem
