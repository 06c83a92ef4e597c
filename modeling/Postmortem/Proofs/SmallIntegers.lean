import Mathlib.Algebra.Group.Int.Defs
import Mathlib.Algebra.Group.Nat.Defs
import Postmortem.Tag

/-! # Faithful small integers

A word of a small integer has the integer above the shift and the tag in the bits that are left. All
parameters of a scheme are free numbers, so the tag may reach into the payload, and the mask may
look at bits of the payload or miss bits of the tag.

* `TagScheme.decode_encode`: as long as the tag keeps out of the payload, what is read back is the
  integer, brought into the range of a signed number of that many bits.
* `TagScheme.faithful_iff` says for which schemes every integer of the range is read back, and for
  which its word is also told from other words.

The words are compared bit by bit (`TagScheme.testBit_encode`). -/

namespace Postmortem

/-- The word has no bit at the positions from `low` up to `high`. -/
def Word.IsClear (w : Word) (low high : Nat) : Prop :=
  ∀ i, low ≤ i → i < high → w.toNat.testBit i = false

instance (w : Word) (low high : Nat) : Decidable (w.IsClear low high) :=
  decidable_of_iff (∀ i < high, low ≤ i → w.toNat.testBit i = false)
    ⟨fun clear i above below => clear i below above, fun clear i below above => clear i above below⟩

namespace TagScheme

variable (t : TagScheme)

/-- The payload bits hold the integer. -/
def InRange (n : Int) : Prop := t.smallIntRange.1 ≤ n ∧ n ≤ t.smallIntRange.2

theorem wordBits_le : t.wordBits ≤ 64 := Nat.min_le_left _ _

variable {t}

theorem wordBits_of_pointerSize (size : t.pointerSize = 4 ∨ t.pointerSize = 8) :
    t.wordBits = 32 ∨ t.wordBits = 64 := by
  rcases size with size | size
  · exact .inl (by rw [wordBits, size]; rfl)
  · exact .inr (by rw [wordBits, size]; rfl)

theorem signed_eq_toInt (bits : t.wordBits = 32 ∨ t.wordBits = 64) (w : Word) :
    t.signed w = (w.toBitVec.setWidth t.wordBits).toInt := by
  rcases bits with bits | bits
  · rw [signed, if_pos bits, bits]
    rfl
  · rw [signed, if_neg (by omega), bits, BitVec.setWidth_eq]
    rfl

/-! ## The range -/

section range

variable (payload : t.shift < t.wordBits)

include payload

/-- The range is that of a signed number with as many bits as the payload has. -/
theorem inRange_iff (n : Int) : t.InRange n ↔ n.bmod (2 ^ (t.wordBits - t.shift)) = n := by
  obtain ⟨bits, more⟩ := Nat.exists_eq_add_one.2 (Nat.sub_pos_of_lt payload)
  have half : 2 ^ (bits + 1) = 2 ^ bits + 2 ^ bits := by rw [Nat.pow_succ, Nat.mul_two]
  have pos : 0 < 2 ^ (bits + 1) := Nat.two_pow_pos _
  have least := Int.le_bmod (x := n) pos
  have greatest := Int.bmod_lt (x := n) pos
  rw [InRange, smallIntRange, more]
  simp only [Nat.one_shiftLeft]
  rw [half] at least greatest ⊢
  constructor
  · rintro ⟨low, high⟩
    exact Int.bmod_eq_of_le (by omega) (by omega)
  · intro same
    rw [same] at least greatest
    omega

theorem inRange_zero : t.InRange 0 := by
  rw [inRange_iff payload, Int.zero_bmod]

theorem inRange_neg_one : t.InRange (-1) := by
  obtain ⟨bits, more⟩ := Nat.exists_eq_add_one.2 (Nat.sub_pos_of_lt payload)
  have pos : 0 < 2 ^ bits := Nat.two_pow_pos _
  rw [InRange, smallIntRange, more]
  simp only [Nat.one_shiftLeft]
  omega

end range

/-! ## The word of a small integer -/

theorem toBitVec_ofInt (n : Int) : (UInt64.ofInt n).toBitVec = BitVec.ofInt 64 n := by
  apply BitVec.eq_of_toNat_eq
  have small : (n % 2 ^ 64).toNat < 2 ^ 64 := by omega
  rw [BitVec.toNat_ofInt]
  exact Nat.mod_eq_of_lt small

theorem ofInt_mul_two_pow (n : Int) (s : Nat) :
    BitVec.ofInt 64 (n * (2 ^ s : Nat)) = BitVec.ofInt 64 n <<< s := by
  have power : BitVec.ofNat 64 (2 ^ s) = BitVec.twoPow 64 s :=
    BitVec.eq_of_toNat_eq (by rw [BitVec.toNat_ofNat, BitVec.toNat_twoPow])
  rw [BitVec.ofInt_mul, BitVec.ofInt_natCast, power, BitVec.shiftLeft_eq_mul_twoPow]

section encode

variable (payload : t.shift < t.wordBits) (n : Int)

include payload

/-- The bits of the word of a small integer: those of the integer above the shift, those of the tag,
and none beyond the word. -/
theorem testBit_encode {i : Nat} (inWord : i < 64) :
    (t.encode n).toNat.testBit i =
      (decide (i < t.wordBits) &&
        (!decide (i < t.shift) && (BitVec.ofInt 64 n).getLsbD (i - t.shift) ||
          t.smallIntTag.toNat.testBit i)) := by
  have narrow : t.shift < 64 := Nat.lt_of_lt_of_le payload t.wordBits_le
  have word : (t.encode n).toBitVec =
      (BitVec.ofInt 64 n <<< t.shift ||| t.smallIntTag.toBitVec) &&&
        BitVec.ofNat 64 (2 ^ t.wordBits - 1) := by
    rw [encode, if_pos narrow, wordMask, Nat.one_shiftLeft, Nat.one_shiftLeft, UInt64.toBitVec_and,
      UInt64.toBitVec_or, toBitVec_ofInt, ofInt_mul_two_pow]
    rfl
  rw [← UInt64.toNat_toBitVec, BitVec.testBit_toNat, word, BitVec.getLsbD_and, BitVec.getLsbD_or,
    BitVec.getLsbD_shiftLeft, BitVec.getLsbD_ofNat, Nat.testBit_two_pow_sub_one,
    decide_eq_true inWord, Bool.true_and, Bool.true_and, Bool.and_comm]
  rfl

theorem testBit_encode_of_lt {i : Nat} (inWord : i < t.wordBits) :
    (t.encode n).toNat.testBit i =
      (!decide (i < t.shift) && (BitVec.ofInt 64 n).getLsbD (i - t.shift) ||
        t.smallIntTag.toNat.testBit i) := by
  rw [testBit_encode payload n (Nat.lt_of_lt_of_le inWord t.wordBits_le), decide_eq_true inWord,
    Bool.true_and]

section clear

variable (clear : t.smallIntTag.IsClear t.shift t.wordBits)

include clear

/-- The word shifted back has the integer's lowest bits, with the last one as the sign. -/
theorem sshiftRight_encode :
    ((t.encode n).toBitVec.setWidth t.wordBits).sshiftRight t.shift =
      ((BitVec.ofInt 64 n).setWidth (t.wordBits - t.shift)).signExtend t.wordBits := by
  have bit {i : Nat} (inside : t.shift + i < t.wordBits) :
      ((t.encode n).toBitVec.setWidth t.wordBits).getLsbD (t.shift + i) =
        ((BitVec.ofInt 64 n).setWidth (t.wordBits - t.shift)).getLsbD i := by
    have payloadBit := testBit_encode_of_lt payload n inside
    rw [clear _ (Nat.le_add_right _ _) inside, decide_eq_false (by omega), Nat.add_sub_cancel_left,
      Bool.not_false, Bool.true_and, Bool.or_false, ← UInt64.toNat_toBitVec,
      BitVec.testBit_toNat] at payloadBit
    rw [BitVec.getLsbD_setWidth, BitVec.getLsbD_setWidth, payloadBit, decide_eq_true inside,
      decide_eq_true (by omega)]
  apply BitVec.eq_of_getLsbD_eq
  intro i inWord
  rw [BitVec.getLsbD_sshiftRight, BitVec.getLsbD_signExtend, decide_eq_false (Nat.not_le.2 inWord),
    decide_eq_true inWord, Bool.not_false]
  congr 1
  by_cases inside : t.shift + i < t.wordBits
  · rw [if_pos inside, if_pos (by omega), bit inside]
  · -- Beyond the payload both have the sign, which is the last bit of the payload.
    have last : t.wordBits - 1 = t.shift + (t.wordBits - t.shift - 1) := by omega
    rw [if_neg inside, if_neg (by omega), BitVec.msb_eq_getLsbD_last, BitVec.msb_eq_getLsbD_last,
      last, bit (by omega)]

variable (bits : t.wordBits = 32 ∨ t.wordBits = 64)

include bits

/-- **What is read back is the integer, brought into the range of the payload.** -/
theorem decode_encode : t.decode (t.encode n) = n.bmod (2 ^ (t.wordBits - t.shift)) := by
  have narrow : 2 ^ (t.wordBits - t.shift) ∣ 2 ^ 64 :=
    Nat.pow_dvd_pow 2 (Nat.le_trans (Nat.sub_le _ _) t.wordBits_le)
  rw [decode, signed_eq_toInt bits, ← BitVec.toInt_sshiftRight, sshiftRight_encode payload n clear,
    BitVec.toInt_signExtend_of_le (Nat.sub_le _ _), BitVec.toInt_setWidth,
    ← Int.bmod_bmod_of_dvd narrow, ← BitVec.toInt_eq_toNat_bmod, BitVec.toInt_ofInt,
    Int.bmod_bmod_of_dvd narrow]

theorem decode_encode_eq_self_iff : t.decode (t.encode n) = n ↔ t.InRange n := by
  rw [decode_encode payload n clear bits, inRange_iff payload]

end clear

end encode

/-- If zero is read back, the tag keeps out of the payload: the word of zero has nothing else
there. -/
theorem isClear_of_decode_encode_zero (payload : t.shift < t.wordBits)
    (bits : t.wordBits = 32 ∨ t.wordBits = 64) (zero : t.decode (t.encode 0) = 0) :
    t.smallIntTag.IsClear t.shift t.wordBits := by
  rw [decode, signed_eq_toInt bits, ← BitVec.toInt_sshiftRight] at zero
  have shifted : ((t.encode 0).toBitVec.setWidth t.wordBits).sshiftRight t.shift = 0#t.wordBits :=
    BitVec.eq_of_toInt_eq (by rw [zero, BitVec.toInt_zero])
  intro i above inWord
  have bit := congrArg (BitVec.getLsbD · (i - t.shift)) shifted
  rw [BitVec.getLsbD_sshiftRight, Nat.add_sub_cancel' above, if_pos inWord, BitVec.getLsbD_setWidth,
    decide_eq_true inWord, decide_eq_false (by omega), Bool.not_false, Bool.true_and, Bool.true_and,
    BitVec.getLsbD_zero] at bit
  have tagBit := testBit_encode_of_lt payload 0 inWord
  rw [← UInt64.toNat_toBitVec, BitVec.testBit_toNat, bit] at tagBit
  exact (Bool.or_eq_false_iff.1 tagBit.symm).2

/-! ## Telling small integers -/

theorem isSmallInt_iff_testBit {w : Word} : t.isSmallInt w = true ↔ ∀ i < 64,
    (w.toNat.testBit i && t.smallIntMask.toNat.testBit i) = t.smallIntTag.toNat.testBit i := by
  have bit (i : Nat) : (w &&& t.smallIntMask).toNat.testBit i =
      (w.toNat.testBit i && t.smallIntMask.toNat.testBit i) := by
    rw [UInt64.toNat_and, Nat.testBit_and]
  rw [isSmallInt, beq_iff_eq]
  constructor
  · intro same i _
    rw [← bit, same]
  · intro same
    apply UInt64.toBitVec_inj.1
    apply BitVec.eq_of_getLsbD_eq
    intro i inWord
    exact (bit i).trans (same i inWord)

section tells

variable (payload : t.shift < t.wordBits)

include payload

/-- The tag is told if it lies below the payload, in a mask that looks at no bit of the payload. -/
theorem isSmallInt_encode (below : t.smallIntTag.IsClear t.shift 64)
    (inMask : t.smallIntTag &&& t.smallIntMask = t.smallIntTag)
    (apart : t.smallIntMask.IsClear t.shift t.wordBits) (n : Int) :
    t.isSmallInt (t.encode n) = true := by
  have tagBits := isSmallInt_iff_testBit.1 (beq_iff_eq.2 inMask)
  rw [isSmallInt_iff_testBit]
  intro i inSpace
  by_cases low : i < t.shift
  · rw [testBit_encode_of_lt payload n (Nat.lt_trans low payload), decide_eq_true low,
      Bool.not_true, Bool.false_and, Bool.false_or, tagBits i inSpace]
  · rw [testBit_encode payload n inSpace, below i (Nat.le_of_not_lt low) inSpace]
    by_cases inWord : i < t.wordBits
    · rw [apart i (Nat.le_of_not_lt low) inWord, Bool.and_false]
    · rw [decide_eq_false inWord, Bool.false_and, Bool.false_and]

/-- The word of zero shows the tag and nothing else, so all of the tag lies in the word and in the
mask. -/
theorem inMask_of_isSmallInt_encode_zero (zero : t.isSmallInt (t.encode 0) = true) :
    t.smallIntTag.IsClear t.wordBits 64 ∧ t.smallIntTag &&& t.smallIntMask = t.smallIntTag := by
  have shown {i : Nat} (inSpace : i < 64) :
      (decide (i < t.wordBits) && t.smallIntTag.toNat.testBit i &&
        t.smallIntMask.toNat.testBit i) = t.smallIntTag.toNat.testBit i := by
    have bit := isSmallInt_iff_testBit.1 zero i inSpace
    rw [testBit_encode payload 0 inSpace] at bit
    simpa using bit
  refine ⟨fun i beyond inSpace => ?_, beq_iff_eq.1 (isSmallInt_iff_testBit.2 fun i inSpace => ?_)⟩
  · rw [← shown inSpace, decide_eq_false (Nat.not_lt.2 beyond), Bool.false_and, Bool.false_and]
  · rw [← shown inSpace]
    cases decide (i < t.wordBits) <;> simp

/-- The word of minus one shows every bit of the payload. -/
theorem isClear_of_isSmallInt_encode_neg_one (minusOne : t.isSmallInt (t.encode (-1)) = true)
    (clear : t.smallIntTag.IsClear t.shift t.wordBits) :
    t.smallIntMask.IsClear t.shift t.wordBits := by
  intro i above inWord
  have inSpace : i < 64 := Nat.lt_of_lt_of_le inWord t.wordBits_le
  have ones : (BitVec.ofInt 64 (-1)).getLsbD (i - t.shift) = true := by
    have allOnes : BitVec.ofInt 64 (-1) = BitVec.allOnes 64 := rfl
    rw [allOnes, BitVec.getLsbD_allOnes, decide_eq_true (by omega)]
  have shown := isSmallInt_iff_testBit.1 minusOne i inSpace
  rw [testBit_encode_of_lt payload (-1) inWord, clear i above inWord, ones,
    decide_eq_false (Nat.not_lt.2 above)] at shown
  exact shown

end tells

/-- **Which schemes have faithful small integers.** Words have four or eight bytes, and the shift
leaves payload bits. Every integer of the range is read back from its word just if the tag keeps out
of the payload, and then no other integer is. Every integer of the range is told and read back from
its word just if the tag lies below the payload and within the mask, and the mask keeps out of the
payload. -/
theorem faithful_iff (size : t.pointerSize = 4 ∨ t.pointerSize = 8)
    (payload : t.shift < t.wordBits) :
    ((∀ n, t.InRange n → t.decode (t.encode n) = n) ↔ t.smallIntTag.IsClear t.shift t.wordBits) ∧
    (t.smallIntTag.IsClear t.shift t.wordBits →
      ∀ n, ¬ t.InRange n → t.decode (t.encode n) ≠ n) ∧
    ((∀ n, t.InRange n → t.classify (t.encode n) = .smallInt n) ↔
      t.smallIntTag.IsClear t.shift 64 ∧ t.smallIntTag &&& t.smallIntMask = t.smallIntTag ∧
      t.smallIntMask.IsClear t.shift t.wordBits) := by
  have bits := wordBits_of_pointerSize size
  have readsBack := isClear_of_decode_encode_zero payload bits
  refine ⟨⟨fun exact => ?_, fun clear n => ?_⟩, fun clear n => ?_, fun exact => ?_, ?_⟩
  · exact readsBack (exact 0 (inRange_zero payload))
  · exact (decode_encode_eq_self_iff payload n clear bits).2
  · exact mt (decode_encode_eq_self_iff payload n clear bits).1
  · obtain ⟨zero, decoded⟩ := t.classify_eq_smallInt_iff.1 (exact 0 (inRange_zero payload))
    obtain ⟨minusOne, -⟩ := t.classify_eq_smallInt_iff.1 (exact (-1) (inRange_neg_one payload))
    have clear := readsBack decoded
    obtain ⟨beyond, inMask⟩ := inMask_of_isSmallInt_encode_zero payload zero
    refine ⟨fun i above inSpace => ?_, inMask,
      isClear_of_isSmallInt_encode_neg_one payload minusOne clear⟩
    rcases Nat.lt_or_ge i t.wordBits with inWord | outside
    · exact clear i above inWord
    · exact beyond i outside inSpace
  · rintro ⟨below, inMask, apart⟩ n inRange
    have clear : t.smallIntTag.IsClear t.shift t.wordBits := fun i above inWord =>
      below i above (Nat.lt_of_lt_of_le inWord t.wordBits_le)
    exact t.classify_eq_smallInt_iff.2 ⟨isSmallInt_encode payload below inMask apart n,
      (decode_encode_eq_self_iff payload n clear bits).2 inRange⟩

/-- A scheme of a 32-bit build with three tag bits, whose mask has the bits beyond the word too. -/
def threeTagBits : TagScheme where
  pointerSize := 4
  pointerTag := 1
  pointerMask := 7
  smallIntTag := 5
  smallIntMask := 0xffffffff00000007
  valueShift := 2
  paddingShift := 1
  failureTag := none
  failureMask := none

/-- Its small integers are those of 29 bits, and they are faithful. -/
theorem faithful_threeTagBits :
    threeTagBits.smallIntRange = (-0x10000000, 0xfffffff) ∧
    (∀ n, threeTagBits.InRange n → threeTagBits.decode (threeTagBits.encode n) = n) ∧
    (∀ n, ¬ threeTagBits.InRange n → threeTagBits.decode (threeTagBits.encode n) ≠ n) ∧
    ∀ n, threeTagBits.InRange n → threeTagBits.classify (threeTagBits.encode n) = .smallInt n := by
  have clear : threeTagBits.smallIntTag.IsClear threeTagBits.shift threeTagBits.wordBits := by
    decide
  obtain ⟨readBack, noOther, told⟩ := faithful_iff (t := threeTagBits) (.inl rfl) (by decide)
  exact ⟨by decide, readBack.2 clear, noOther clear, told.2 (by decide)⟩

end TagScheme

end Postmortem
