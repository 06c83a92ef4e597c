import Postmortem.Proofs.Checked.Basic

/-! # Words without traps

The checked versions of the operations on tags and of the reads of words and fields, each equal to
the operation itself whatever the scheme and the layout say. Shifts are capped by the width of a
word before anything is shifted (`Checked.decode_eq`, `Checked.smallIntRange_eq`), and the size of a
word is brought into the range 1 to 8 before it cuts a slice (`Checked.readWord_eq`). -/

namespace Postmortem

namespace TagScheme

variable (t : TagScheme) (w : Word)

theorem le_signed : -2 ^ 63 ≤ t.signed w := by
  unfold signed
  split
  · have := w.toUInt32.toInt32.le_toInt
    omega
  · exact w.toInt64.le_toInt

theorem signed_lt : t.signed w < 2 ^ 63 := by
  unfold signed
  split
  · have := w.toUInt32.toInt32.toInt_lt
    omega
  · exact w.toInt64.toInt_lt

end TagScheme

namespace Checked

/-! ## Tags -/

section tags

variable (t : TagScheme)

def wordMask : Checked Word :=
  if t.wordBits = 64 then .ok (UInt64.ofNat Word.top)
  else do
    let bit ← shiftLeft 1 t.wordBits
    return UInt64.ofNat (← sub bit 1)

theorem wordMask_eq : wordMask t = .ok t.wordMask := by
  unfold wordMask TagScheme.wordMask
  split
  · rename_i full
    rw [full]
    rfl
  · rename_i short
    have narrow : t.wordBits < 64 := by
      have : t.wordBits ≤ 64 := Nat.min_le_left _ _
      omega
    have bound : 2 ^ t.wordBits < 2 ^ 64 := Nat.pow_lt_pow_right (by decide) narrow
    have pos : 0 < 2 ^ t.wordBits := Nat.two_pow_pos _
    have bit : shiftLeft 1 t.wordBits = .ok (2 ^ t.wordBits) := by
      rw [shiftLeft, if_pos narrow, Nat.one_shiftLeft, Nat.mod_eq_of_lt bound]
    rw [bit, ok_bind, sub_eq (by omega), Nat.one_shiftLeft]
    rfl

/-- A shift past every bit leaves the sign only. -/
theorem shiftRight_of_wide {n : Int} (low : -2 ^ 63 ≤ n) (high : n < 2 ^ 63) {bits : Nat}
    (wide : 63 ≤ bits) : n >>> bits = if n < 0 then -1 else 0 := by
  have bound : (2 : Int) ^ 63 ≤ ((2 ^ bits : Nat) : Int) := by
    exact_mod_cast Nat.pow_le_pow_right (by decide : 0 < 2) wide
  rw [Int.shiftRight_eq_div_pow]
  split
  · exact ((Int.ediv_emod_unique (q := -1) (r := n + (2 ^ bits : Nat)) (by omega)).2
      ⟨by omega, by omega, by omega⟩).1
  · exact Int.ediv_eq_zero_of_lt (by omega) (by omega)

/-- The shift that is used instead of one past every bit is computed in any case. -/
def decode (w : Word) : Checked Int := do
  let sign ← signedShiftRight (t.signed w) 63
  return if t.shift < 64 then t.signed w >>> t.shift else sign

theorem decode_eq (w : Word) : decode t w = .ok (t.decode w) := by
  rw [decode, signedShiftRight, if_pos (by decide), ok_bind]
  split
  · rfl
  · rename_i wide
    have same : t.signed w >>> (63 : Nat) = t.signed w >>> t.shift := by
      rw [shiftRight_of_wide (t.le_signed w) (t.signed_lt w) (Nat.le_refl 63),
        shiftRight_of_wide (t.le_signed w) (t.signed_lt w) (by omega)]
    exact congrArg Except.ok same

def encode (n : Int) : Checked Word := do
  let payload := if t.shift < 64 then UInt64.ofInt (n * (1 <<< t.shift : Nat)) else 0
  return (payload ||| t.smallIntTag) &&& (← wordMask t)

theorem encode_eq (n : Int) : encode t n = .ok (t.encode n) := by
  rw [encode, wordMask_eq]
  rfl

def smallIntRange : Checked (Int × Int) :=
  match t.wordBits - t.shift with
  | 0 => .ok (0, 0)
  | bits =>
    if 64 ≤ bits then .ok (-2 ^ 63, 2 ^ 63 - 1)
    else do
      let low ← signed (-(← signedShiftLeft 1 (← sub bits 1)))
      let high ← signed ((← signedShiftLeft 1 (← sub bits 1)) - 1)
      return (low, high)

theorem signedShiftLeft_one {bits : Nat} (narrow : bits < 63) :
    signedShiftLeft 1 bits = .ok (2 ^ bits) := by
  have bound : (2 : Int) ^ bits < 2 ^ 63 := by
    exact_mod_cast Nat.pow_lt_pow_right (by decide : 1 < 2) narrow
  have pos : (0 : Int) < 2 ^ bits := Int.pow_pos (by decide)
  rw [signedShiftLeft, if_pos (by omega), Int.one_mul, Int.bmod_eq_of_le (by omega) (by omega)]

theorem smallIntRange_eq : smallIntRange t = .ok t.smallIntRange := by
  have cap : t.wordBits - t.shift ≤ 64 := Nat.le_trans (Nat.sub_le _ _) (Nat.min_le_left _ _)
  unfold smallIntRange TagScheme.smallIntRange
  split
  · rename_i noPayload
    rw [noPayload]
  · rename_i bits pos
    cases payload : t.wordBits - t.shift with
    | zero => exact absurd payload pos
    | succ bits =>
      rw [payload] at cap
      dsimp only
      split
      · rename_i full
        rw [show bits = 63 by omega]
        rfl
      · rename_i short
        have narrow : bits < 63 := by omega
        have bound : (2 : Int) ^ bits < 2 ^ 63 := by
          exact_mod_cast Nat.pow_lt_pow_right (by decide : 1 < 2) narrow
        have pos : (0 : Int) < 2 ^ bits := Int.pow_pos (by decide)
        have unit : ((1 <<< bits : Nat) : Int) = 2 ^ bits := by
          rw [Nat.one_shiftLeft]
          exact_mod_cast rfl
        rw [sub_eq (by omega), Nat.add_sub_cancel, ok_bind, signedShiftLeft_one narrow, ok_bind,
          signed_eq (by omega) (by omega), ok_bind, ok_bind, signedShiftLeft_one narrow, ok_bind,
          signed_eq (by omega) (by omega), unit]
        rfl

def classify (w : Word) : Checked WordClass := do
  if t.isSmallInt w then return .smallInt (← decode t w)
  else if t.isPointer w then return .pointer (w - t.pointerTag) t.pointerTag
  else return .failure

theorem classify_eq (w : Word) : classify t w = .ok (t.classify w) := by
  unfold classify TagScheme.classify
  rw [decode_eq]
  split
  · rfl
  · split <;> rfl

def address? (w : Word) : Checked (Option Word) := do
  match ← classify t w with
  | .pointer address _ => return some address
  | _ => return none

theorem address?_eq (w : Word) : address? t w = .ok (t.address? w) := by
  rw [address?, classify_eq, ok_bind, TagScheme.address?]
  cases t.classify w <;> rfl

end tags

/-! ## Reads -/

/-- The storage for the bytes of a word. -/
def zeros : List UInt8 := List.replicate 8 0

/-- The word whose first bytes are given, the others zero. -/
def wordOfPrefix (size : Nat) (bytes : List UInt8) : Checked Word := do
  return Word.ofBytes (← overwrite zeros 0 size bytes)

theorem ofBytes_append_zeros (bytes : List UInt8) (count : Nat) :
    Word.ofBytes (bytes ++ List.replicate count 0) = Word.ofBytes bytes := by
  have zeros : (List.replicate count (0 : UInt8)).foldr (fun b n => b.toNat + 256 * n) 0 = 0 := by
    induction count with
    | zero => rfl
    | succ count ih => simp [List.replicate_succ, ih]
  rw [Word.ofBytes, Word.ofBytes, List.foldr_append, zeros]

theorem wordOfPrefix_eq {size : Nat} (small : size ≤ 8) {bytes : List UInt8}
    (length : bytes.length = size) : wordOfPrefix size bytes = .ok (Word.ofBytes bytes) := by
  have rest : zeros.drop size = List.replicate (8 - size) 0 := List.drop_replicate
  rw [wordOfPrefix, overwrite_eq small ((Nat.zero_add _).trans length), ok_bind, List.take_zero,
    List.nil_append, rest, ofBytes_append_zeros]
  rfl

section reads

variable (s : Snapshot)

theorem classify_snapshot (w : Word) : classify s.layout.tags w = .ok (s.classify w) :=
  classify_eq s.layout.tags w

theorem length_of_readBytes {address : Word} {length : Nat} {bytes : List UInt8}
    (read : s.readBytes address length = .ok bytes) : bytes.length = length := by
  unfold Snapshot.readBytes at read
  split at read
  · rename_i bytes' found
    cases read
    exact s.memory.length_of_read found
  · cases read

def objectAddress (w : Word) : CheckedResult Word := do
  match ← address? s.layout.tags w with
  | some address => return address
  | none => throw (.notHeapPointer w)

theorem objectAddress_eq (w : Word) : objectAddress s w = .of (s.objectAddress w) := by
  rw [objectAddress, address?_eq, Snapshot.objectAddress]
  cases s.layout.tags.address? w <;> rfl

def readWord (address : Word) : CheckedResult Word := do
  let size := s.layout.tags.wordSize
  let bytes ← .of (s.readBytes address size)
  wordOfPrefix size bytes

theorem readWord_eq (address : Word) : readWord s address = .of (s.readWord address) := by
  rw [readWord, Snapshot.readWord]
  cases read : s.readBytes address s.layout.tags.wordSize with
  | error e => rfl
  | ok bytes =>
    rw [CheckedResult.of_ok_bind,
      wordOfPrefix_eq s.layout.tags.wordSize_le (length_of_readBytes s read)]
    rfl

def readField (object : Word) (field : FieldName) : CheckedResult Word := do
  readWord s (← .of (s.fieldAddress object field))

theorem readField_eq (object : Word) (field : FieldName) :
    readField s object field = .of (s.readField object field) :=
  CheckedResult.of_bind fun address _ => readWord_eq s address

def readSmallInt (object : Word) (field : FieldName) : CheckedResult Int := do
  match ← classify s.layout.tags (← readField s object field) with
  | .smallInt n => return n
  | _ => throw (.corruptField object field .notSmallInt)

theorem readSmallInt_eq (object : Word) (field : FieldName) :
    readSmallInt s object field = .of (s.readSmallInt object field) := by
  rw [readSmallInt, readField_eq]
  refine CheckedResult.of_bind fun w _ => ?_
  rw [classify_snapshot]
  cases s.classify w <;> rfl

def readNatural (object : Word) (field : FieldName) (flaw : FieldFlaw) : CheckedResult Nat := do
  let n ← readSmallInt s object field
  if n < 0 then throw (.corruptField object field flaw)
  return n.toNat

theorem readNatural_eq (object : Word) (field : FieldName) (flaw : FieldFlaw) :
    readNatural s object field flaw = .of (s.readNatural object field flaw) := by
  rw [readNatural, readSmallInt_eq]
  refine CheckedResult.of_bind fun n _ => ?_
  split <;> rfl

def readInteger (object : Word) (field : FieldName) : CheckedResult Int := do
  let w ← readField s object field
  match ← classify s.layout.tags w with
  | .smallInt n => return n
  | _ => return w.toInt64.toInt

theorem readInteger_eq (object : Word) (field : FieldName) :
    readInteger s object field = .of (s.readInteger object field) := by
  rw [readInteger, readField_eq]
  refine CheckedResult.of_bind fun w _ => ?_
  rw [classify_snapshot]
  cases s.classify w <;> rfl

def typeByte (object : Word) : CheckedResult UInt8 := do
  let map ← objectAddress s (← readField s object ⟨"HeapObject", "map"⟩)
  let bytes ← .of (s.readBytes (← .of (s.fieldAddress map ⟨"Map", "instance_attributes"⟩)) 1)
  let found ← (index bytes 0 : Checked UInt8)
  return found

theorem typeByte_eq (object : Word) : typeByte s object = .of (s.typeByte object) := by
  rw [typeByte, readField_eq]
  refine CheckedResult.of_bind fun w _ => ?_
  rw [objectAddress_eq]
  refine CheckedResult.of_bind fun map _ => CheckedResult.of_bind fun address _ =>
    CheckedResult.of_bind fun bytes read => ?_
  obtain ⟨byte, rfl⟩ := List.length_eq_one_iff.1 (length_of_readBytes s read)
  rfl

def expectType (w : Word) (expected : String) (accepted : List (Option UInt8)) :
    CheckedResult (Word × UInt8) := do
  let address ← objectAddress s w
  let found ← typeByte s address
  if accepted.contains (some found) then return (address, found)
  else throw (.wrongTypeTag address expected found)

theorem expectType_eq (w : Word) (expected : String) (accepted : List (Option UInt8)) :
    expectType s w expected accepted = .of (s.expectType w expected accepted) := by
  rw [expectType, objectAddress_eq]
  refine CheckedResult.of_bind fun address _ => ?_
  rw [typeByte_eq]
  refine CheckedResult.of_bind fun found _ => ?_
  split <;> rfl

end reads

end Checked

end Postmortem
