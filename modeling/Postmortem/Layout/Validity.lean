import Postmortem.Layout.Basic

/-! # Valid layouts

A layout is valid if it can describe a real target: words of four or eight bytes, payload bits left
in a small integer, and no entry that is useless without another one. `Layout.flaw?` finds the
first reason why it is not. -/

namespace Postmortem

/-- A reason why a layout describes no real target. -/
inductive LayoutFlaw where
  | pointerSize (size : UInt64)
  /-- The padding of a small integer fills the word. -/
  | noValueBits (shift wordBits : Nat)
  /-- A failure tag without its mask, or the reverse. -/
  | halfFailureTag
  /-- String tags that tell no one-byte string. -/
  | noOneByteTag
  deriving DecidableEq, Repr

/-- The wording of a flaw. -/
def LayoutFlaw.message : LayoutFlaw → String
  | .pointerSize size => "pointer_size must be 4 or 8, got " ++ toString size.toNat
  | .noValueBits shift wordBits =>
    "SMI shift " ++ toString shift ++ " leaves no value bits in a " ++ toString wordBits
      ++ "-bit word"
  | .halfFailureTag => "failure_tag and failure_tag_mask must be set together"
  | .noOneByteTag => "strings need one_byte_tag or ascii_tag"

namespace Layout

/-- The first flaw of a layout. -/
def flaw? (l : Layout) : Option LayoutFlaw :=
  if l.tags.pointerSize ≠ 4 ∧ l.tags.pointerSize ≠ 8 then
    some (.pointerSize l.tags.pointerSize)
  else if l.tags.wordBits ≤ l.tags.shift then
    some (.noValueBits l.tags.shift l.tags.wordBits)
  else if l.tags.failureTag.isSome ≠ l.tags.failureMask.isSome then
    some .halfFailureTag
  else
    match l.types.strings with
    | some s => if s.oneByteTag.isNone ∧ s.asciiTag.isNone then some .noOneByteTag else none
    | none => none

/-- A layout that describes a real target. -/
def Valid (l : Layout) : Prop := l.flaw? = none

instance (l : Layout) : Decidable l.Valid := inferInstanceAs (Decidable (_ = _))

end Layout

end Postmortem
