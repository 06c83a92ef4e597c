import Postmortem.Word

/-! # Tagged words

The low bits of a slot's word say what it is: a small integer stored in the upper bits, a pointer
to a heap object, or a failure marker. The masks and shifts differ between builds, so a
`TagScheme` holds them.

`TagScheme.classify` sorts a word into its class, small integers first and pointers second;
`TagScheme.encode` and `TagScheme.decode` write and read small integers, and
`TagScheme.smallIntRange` gives the integers that the payload bits can hold. -/

namespace Postmortem

/-- What a tagged word turned out to be. -/
inductive WordClass where
  /-- An integer held in the word itself. -/
  | smallInt (value : Int)
  /-- A failure marker, or a word of no known kind. -/
  | failure
  /-- A pointer to the object at `address`, from which the bits `tag` were taken off. -/
  | pointer (address tag : Word)
  deriving DecidableEq, Repr

/-- Tag masks and shifts of one build. -/
structure TagScheme where
  /-- Bytes in a target word. -/
  pointerSize : UInt64
  /-- Tag bits of a pointer. -/
  pointerTag : Word
  /-- The bits in which a pointer shows its tag. -/
  pointerMask : Word
  /-- Tag bits of a small integer. -/
  smallIntTag : Word
  /-- The bits in which a small integer shows its tag. -/
  smallIntMask : Word
  /-- Bits below the payload of a small integer. -/
  valueShift : UInt32
  /-- Further padding bits below the payload. -/
  paddingShift : UInt32
  /-- Tag bits of a failure marker, on builds that have them. -/
  failureTag : Option Word
  /-- The bits in which a failure marker shows its tag. -/
  failureMask : Option Word
  deriving DecidableEq, Repr, Inhabited

namespace TagScheme

variable (t : TagScheme)

/-- Bits in a target word, at most 64. The size counts modulo `2 ^ 32`. -/
def wordBits : Nat := min 64 (t.pointerSize.toNat % 0x100000000 * 8)

/-- The bits that a target word has. -/
def wordMask : Word := UInt64.ofNat (1 <<< t.wordBits - 1)

/-- Bits below the payload of a small integer, padding included. -/
def shift : Nat := min (t.valueShift.toNat + t.paddingShift.toNat) 0xffffffff

/-- Bytes in which a word is stored: the pointer size, brought into the range 1 to 8. -/
def wordSize : Nat := max 1 (min 8 t.pointerSize.toNat)

theorem wordSize_pos : 0 < t.wordSize := by unfold wordSize; omega

theorem wordSize_le : t.wordSize ≤ 8 := by unfold wordSize; omega

/-- Whether the word shows the tag of a small integer. -/
def isSmallInt (w : Word) : Bool := w &&& t.smallIntMask == t.smallIntTag

/-- Whether the word shows the tag of a pointer. -/
def isPointer (w : Word) : Bool := w &&& t.pointerMask == t.pointerTag

/-- Whether the word shows the tag of a failure marker; never on a build without them. -/
def isFailure (w : Word) : Bool :=
  match t.failureTag, t.failureMask with
  | some tag, some mask => w &&& mask == tag
  | _, _ => false

/-- The word as a signed number: its low 32 bits on a 32-bit target, else all of it. -/
def signed (w : Word) : Int :=
  if t.wordBits = 32 then w.toUInt32.toInt32.toInt else w.toInt64.toInt

/-- The integer in the payload of a word, whose tag is not looked at. -/
def decode (w : Word) : Int := t.signed w >>> t.shift

/-- The word of a small integer. Bits of `n` that the payload has no room for are lost. -/
def encode (n : Int) : Word :=
  let payload := if t.shift < 64 then UInt64.ofInt (n * (1 <<< t.shift : Nat)) else 0
  (payload ||| t.smallIntTag) &&& t.wordMask

/-- The least and the greatest integer that the payload bits hold. -/
def smallIntRange : Int × Int :=
  match t.wordBits - t.shift with
  | 0 => (0, 0)
  | bits + 1 => (-(1 <<< bits : Nat), (1 <<< bits : Nat) - 1)

/-- The class of a word. A small integer's tag is looked for before that of a pointer. -/
def classify (w : Word) : WordClass :=
  if t.isSmallInt w then .smallInt (t.decode w)
  else if t.isPointer w then .pointer (w - t.pointerTag) t.pointerTag
  else .failure

theorem classify_eq_smallInt_iff {w : Word} {n : Int} :
    t.classify w = .smallInt n ↔ t.isSmallInt w = true ∧ t.decode w = n := by
  unfold classify
  split
  · rename_i small
    simp [small]
  · rename_i other
    split <;> simp [other]

/-- The address a pointer holds, without its tag. -/
def address? (w : Word) : Option Word :=
  match t.classify w with
  | .pointer address _ => some address
  | _ => none

end TagScheme

end Postmortem
