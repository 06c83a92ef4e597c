import Mathlib.Algebra.Group.Int.Defs
import Mathlib.Algebra.Group.Nat.Defs
import Postmortem.JSFunction
import Postmortem.Proofs.HeapString.Loaded
import Postmortem.Proofs.HeapString.Tree
import Postmortem.Proofs.Memory.Words
import Postmortem.Proofs.SmallIntegers

/-! # Integers stored in one of two forms

Some builds store the integer of a field as a small integer and others as it is. Which form it has
is guessed from the word: one with the tag of a small integer is taken for one
(`TagScheme.integerOf`).

* A small integer is always taken for what it is (`TagScheme.integerOf_encode`).
* An integer as it is shows the tag if it is even. It is then taken for the small integer that its
  upper bits make up (`TagScheme.integerOf_plain`), which is another one unless it is zero.

So does the position of a function come out (`JSFunction.describe_of_described`). -/

namespace Postmortem

namespace TagScheme

variable (t : TagScheme)

/-- The integer that a field with the word is taken to hold. -/
def integerOf (w : Word) : Int :=
  match t.classify w with
  | .smallInt n => n
  | _ => w.toInt64.toInt

/-- Small integers are told by a lowest bit of zero. Their payload is the upper half of a word of
eight bytes, and all other bits of a word of four. -/
structure TellsByLowestBit : Prop where
  tag : t.smallIntTag = 0
  mask : t.smallIntMask = 1
  size : t.pointerSize = 8 ∧ t.shift = 32 ∨ t.pointerSize = 4 ∧ t.shift = 1

variable {t}

theorem integerOf_of_isSmallInt {w : Word} (tagged : t.isSmallInt w = true) :
    t.integerOf w = t.decode w := by
  rw [integerOf, t.classify_eq_smallInt_iff.2 ⟨tagged, rfl⟩]

theorem integerOf_of_not_isSmallInt {w : Word} (other : ¬ t.isSmallInt w = true) :
    t.integerOf w = w.toInt64.toInt := by
  unfold integerOf
  split
  · rename_i n classified
    exact absurd (t.classify_eq_smallInt_iff.1 classified).1 other
  · rfl

/-- The word of an integer stands for the integer, brought into the range of a signed word. -/
theorem signed_ofInt (bits : t.wordBits = 32 ∨ t.wordBits = 64) (n : Int) :
    t.signed (UInt64.ofInt n) = n.bmod (2 ^ t.wordBits) := by
  have narrow : 2 ^ t.wordBits ∣ 2 ^ 64 := Nat.pow_dvd_pow 2 t.wordBits_le
  rw [signed_eq_toInt bits, toBitVec_ofInt, BitVec.toInt_setWidth, ← Int.bmod_bmod_of_dvd narrow,
    ← BitVec.toInt_eq_toNat_bmod, BitVec.toInt_ofInt, Int.bmod_bmod_of_dvd narrow]

namespace TellsByLowestBit

variable (told : t.TellsByLowestBit)

include told

theorem wordBits_eq :
    t.pointerSize = 8 ∧ t.shift = 32 ∧ t.wordBits = 64 ∨
      t.pointerSize = 4 ∧ t.shift = 1 ∧ t.wordBits = 32 := by
  rcases told.size with ⟨size, shift⟩ | ⟨size, shift⟩
  · exact .inl ⟨size, shift, by rw [wordBits, size]; rfl⟩
  · exact .inr ⟨size, shift, by rw [wordBits, size]; rfl⟩

theorem bits : t.wordBits = 32 ∨ t.wordBits = 64 :=
  told.wordBits_eq.symm.imp (·.2.2) (·.2.2)

theorem payload : t.shift < t.wordBits := by
  rcases told.wordBits_eq with ⟨-, shift, bits⟩ | ⟨-, shift, bits⟩ <;> omega

theorem shift_pos : 0 < t.shift := by
  rcases told.size with ⟨-, shift⟩ | ⟨-, shift⟩ <;> omega

/-- The greatest small integer has as many bits as the payload has beside the sign. -/
theorem smallIntRange_snd : t.smallIntRange.2 = (2 ^ (t.wordBits - t.shift - 1) : Nat) - 1 := by
  have more : t.wordBits - t.shift = t.wordBits - t.shift - 1 + 1 := by
    have := told.payload
    omega
  rw [smallIntRange, more]
  simp only [Nat.one_shiftLeft, Nat.add_sub_cancel]

theorem inRange {n : Int} (natural : 0 ≤ n) (small : n ≤ t.smallIntRange.2) : t.InRange n := by
  refine ⟨?_, small⟩
  rcases told.wordBits_eq with ⟨-, shift, bits⟩ | ⟨-, shift, bits⟩
  all_goals
    rw [smallIntRange, bits, shift]
    exact Int.le_trans (by decide) natural

theorem isClear {w : Word} (low : w.toNat ≤ 1) {high : Nat} : w.IsClear t.shift high := by
  intro i above _
  have pos := told.shift_pos
  exact Nat.testBit_lt_two_pow (Nat.lt_of_le_of_lt low (Nat.one_lt_two_pow (by omega)))

/-! ### Small integers -/

theorem classify_encode {n : Int} (inRange : t.InRange n) :
    t.classify (t.encode n) = .smallInt n := by
  have noTag : t.smallIntTag.toNat ≤ 1 := by rw [told.tag]; decide
  have lowMask : t.smallIntMask.toNat ≤ 1 := by rw [told.mask]; decide
  have inMask : t.smallIntTag &&& t.smallIntMask = t.smallIntTag := by
    rw [told.tag, UInt64.zero_and]
  exact t.classify_eq_smallInt_iff.2
    ⟨isSmallInt_encode told.payload (told.isClear noTag) inMask (told.isClear lowMask) n,
      (decode_encode_eq_self_iff told.payload n (told.isClear noTag) told.bits).2 inRange⟩

theorem integerOf_encode {n : Int} (inRange : t.InRange n) : t.integerOf (t.encode n) = n := by
  rw [integerOf, told.classify_encode inRange]

/-! ### Integers as they are -/

theorem isSmallInt_ofInt (n : Int) : t.isSmallInt (UInt64.ofInt n) = true ↔ n % 2 = 0 := by
  have word : (UInt64.ofInt n).toNat = (n % (2 ^ 64 : Nat)).toNat := by
    rw [← UInt64.toNat_toBitVec, toBitVec_ofInt, BitVec.toNat_ofInt]
  rw [isSmallInt, told.tag, told.mask, beq_iff_eq, ← UInt64.toNat_inj, UInt64.toNat_and, word,
    UInt64.toNat_one, Nat.and_one_is_mod, UInt64.toNat_zero]
  omega

theorem decode_ofInt {n : Int} (natural : 0 ≤ n) (small : n ≤ t.smallIntRange.2) :
    t.decode (UInt64.ofInt n) = if t.pointerSize = 8 then 0 else n / 2 := by
  rw [told.smallIntRange_snd] at small
  rw [decode, signed_ofInt told.bits, Int.shiftRight_eq_div_pow]
  rcases told.wordBits_eq with ⟨size, shift, bits⟩ | ⟨size, shift, bits⟩
  · rw [shift, bits] at small
    rw [shift, bits, if_pos size, Int.bmod_eq_of_le (by omega) (by omega)]
    omega
  · rw [shift, bits] at small
    have narrow : t.pointerSize ≠ 8 := by rw [size]; decide
    rw [shift, bits, if_neg narrow, Int.bmod_eq_of_le (by omega) (by omega)]
    omega

theorem toInt_ofInt {n : Int} (natural : 0 ≤ n) (small : n ≤ t.smallIntRange.2) :
    (UInt64.ofInt n).toInt64.toInt = n := by
  have whole : (UInt64.ofInt n).toInt64.toInt = n.bmod (2 ^ 64) := by
    rw [← BitVec.toInt_ofInt, ← toBitVec_ofInt]
    rfl
  rw [told.smallIntRange_snd] at small
  rw [whole]
  rcases told.wordBits_eq with ⟨-, shift, bits⟩ | ⟨-, shift, bits⟩
  all_goals
    rw [shift, bits] at small
    exact Int.bmod_eq_of_le (by omega) (by omega)

/-- An odd number is taken as it is, and an even one for the number that the payload bits show. -/
theorem integerOf_plain {n : Int} (natural : 0 ≤ n) (small : n ≤ t.smallIntRange.2) :
    t.integerOf (UInt64.ofInt n) =
      if n % 2 = 1 then n else if t.pointerSize = 8 then 0 else n / 2 := by
  by_cases odd : n % 2 = 1
  · have other : ¬ t.isSmallInt (UInt64.ofInt n) = true := by
      rw [told.isSmallInt_ofInt]
      omega
    rw [integerOf_of_not_isSmallInt other, if_pos odd, told.toInt_ofInt natural small]
  · have tagged := (told.isSmallInt_ofInt n).2 (by omega)
    rw [integerOf_of_isSmallInt tagged, if_neg odd, told.decode_ofInt natural small]

theorem integerOf_plain_eq_self_iff {n : Int} (natural : 0 ≤ n) (small : n ≤ t.smallIntRange.2) :
    t.integerOf (UInt64.ofInt n) = n ↔ n = 0 ∨ n % 2 = 1 := by
  rw [told.integerOf_plain natural small]
  split
  · omega
  · split <;> omega

/-- Two integers of the range have the same word only if they are the same. -/
theorem encode_inj {n m : Int} (inRange : t.InRange n) (inRange' : t.InRange m)
    (same : t.encode n = t.encode m) : n = m := by
  rw [← told.integerOf_encode inRange, ← told.integerOf_encode inRange', same]

theorem encode_integerOf_plain_iff {n : Int} (natural : 0 ≤ n) (small : n ≤ t.smallIntRange.2) :
    t.encode (t.integerOf (UInt64.ofInt n)) = t.encode n ↔ n = 0 ∨ n % 2 = 1 := by
  have taken := told.integerOf_plain natural small
  have bounds : 0 ≤ t.integerOf (UInt64.ofInt n) ∧ t.integerOf (UInt64.ofInt n) ≤ n := by
    rw [taken]
    split
    · omega
    · split <;> omega
  rw [← told.integerOf_plain_eq_self_iff natural small]
  refine ⟨fun same => ?_, fun same => by rw [same]⟩
  exact told.encode_inj (told.inRange bounds.1 (Int.le_trans bounds.2 small))
    (told.inRange natural small) same

end TellsByLowestBit

end TagScheme

/-! ## Fields -/

theorem Snapshot.readInteger_of_readField {s : Snapshot} {object : Word} {field : FieldName}
    {w : Word} (read : s.readField object field = .ok w) :
    s.readInteger object field = .ok (s.layout.tags.integerOf w) := by
  rw [readInteger, bind_of_eq_ok read, classify, TagScheme.integerOf]
  cases s.layout.tags.classify w <;> rfl

namespace JSFunction

/-- What a description of the function is made of can be read, and the field of the position holds
the word. -/
def Described (s : Snapshot) (f : JSFunction) (position : Word) : Prop :=
  ∃ shared name script target scriptName lineEnds,
    s.objectAddress f.shared = .ok shared ∧
    s.readField shared ⟨"SharedFunctionInfo", "function_token_position"⟩ = .ok position ∧
    s.readField shared ⟨"SharedFunctionInfo", "name"⟩ = .ok name ∧
    s.readField shared ⟨"SharedFunctionInfo", "script"⟩ = .ok script ∧
    s.objectAddress script = .ok target ∧
    s.readField target ⟨"Script", "name"⟩ = .ok scriptName ∧
    s.readField target ⟨"Script", "line_ends"⟩ = .ok lineEnds

/-- The position in a description is the small integer of what the field is taken to hold. -/
theorem describe_of_described {s : Snapshot} {f : JSFunction} {position : Word}
    (described : f.Described s position) (policy : AllocationPolicy) :
    ∃ info, f.describe s policy = .ok info ∧
      info.tokenPosition = s.layout.tags.encode (s.layout.tags.integerOf position) := by
  obtain ⟨shared, name, script, target, scriptName, lineEnds, isShared, isPosition, isName,
    isScript, isTarget, isScriptName, isLineEnds⟩ := described
  have token := Snapshot.readInteger_of_readField isPosition
  let inferredName := (s.readField shared inferredNameField).toOption
  let tokenPosition := s.layout.tags.encode (s.layout.tags.integerOf position)
  refine ⟨{ script, name, inferredName, scriptName, lineEnds, tokenPosition, policy }, ?_, rfl⟩
  rw [describe, bind_of_eq_ok isShared, bind_of_eq_ok token, bind_of_eq_ok isName,
    bind_of_eq_ok isScript, bind_of_eq_ok isTarget, bind_of_eq_ok isScriptName,
    bind_of_eq_ok isLineEnds]
  rfl

end JSFunction

/-- **Which integers a field gives back in either form.** Small integers are told by the lowest bit,
and the natural number `n` is one of them. A field with the small integer gives `n`. A field with
`n` as it is gives `n` if that is odd, and if it is even what its upper bits make up as a small
integer: nothing on eight bytes, and half of it on four. So it gives `n` just if that is odd or
zero, and just then the description of a function has the small integer of `n` as the position. -/
theorem Snapshot.readInteger_in_either_form {s : Snapshot}
    (told : s.layout.tags.TellsByLowestBit) {n : Int} (natural : 0 ≤ n)
    (small : n ≤ s.layout.tags.smallIntRange.2) :
    let encoded := s.layout.tags.encode n
    let plain := UInt64.ofInt n
    (∀ (object : Word) (field : FieldName),
      (s.readField object field = .ok encoded → s.readInteger object field = .ok n) ∧
      (s.readField object field = .ok plain →
        s.readInteger object field =
          .ok (if n % 2 = 1 then n else if s.layout.tags.pointerSize = 8 then 0 else n / 2) ∧
        (s.readInteger object field = .ok n ↔ n = 0 ∨ n % 2 = 1))) ∧
    ∀ (f : JSFunction) (policy : AllocationPolicy),
      (f.Described s encoded →
        ∃ info, f.describe s policy = .ok info ∧ info.tokenPosition = encoded) ∧
      (f.Described s plain → ∃ info, f.describe s policy = .ok info ∧
        (info.tokenPosition = encoded ↔ n = 0 ∨ n % 2 = 1)) := by
  intro encoded plain
  have inRange := told.inRange natural small
  refine ⟨fun object field => ⟨fun read => ?tagged, fun read => ⟨?value, ?same⟩⟩,
    fun f policy => ⟨fun described => ?position, fun described => ?positions⟩⟩
  case tagged =>
    rw [readInteger_of_readField read, told.integerOf_encode inRange]
  case value =>
    rw [readInteger_of_readField read, told.integerOf_plain natural small]
  case same =>
    rw [readInteger_of_readField read, Except.ok.injEq,
      told.integerOf_plain_eq_self_iff natural small]
  case position =>
    obtain ⟨info, done, position⟩ := JSFunction.describe_of_described described policy
    exact ⟨info, done, by rw [position, told.integerOf_encode inRange]⟩
  case positions =>
    obtain ⟨info, done, position⟩ := JSFunction.describe_of_described described policy
    refine ⟨info, done, ?_⟩
    rw [position, told.encode_integerOf_plain_iff natural small]

/-! ## A sample

A function whose closures share a name, a script and a position. -/

namespace Sample

/-- The tags of a build with pointers of four bytes. -/
def narrowTags : TagScheme := { layout.tags with pointerSize := 4, paddingShift := 0 }

/-- Where the fields are in words of the given tags. -/
def positionLayout (tags : TagScheme) : Layout :=
  [(⟨"SharedFunctionInfo", "name"⟩, 0), (⟨"SharedFunctionInfo", "script"⟩, 1),
    (⟨"SharedFunctionInfo", "function_token_position"⟩, 2), (⟨"Script", "name"⟩, 0),
    (⟨"Script", "line_ends"⟩, 1)].foldl
    (fun l (field, index) => l.setOffset field (index * tags.pointerSize))
    { layout with tags, offsets := ∅ }

/-- The words from `0x1000` on: what the closures share, and the script. -/
def positionWords (tags : TagScheme) (position : Word) : List Word :=
  [0x2001, 0x1001 + 3 * tags.pointerSize, position, 0x2011, 0x2021]

/-- The heap. -/
def positionHeap (tags : TagScheme) (position : Word) : Snapshot where
  memory := (Image.empty.map 0x1000 ((positionWords tags position).flatMap fun w =>
    Word.bytes tags.wordSize w.toNat).toArray).memory
  layout := positionLayout tags

/-- A closure of the function. -/
def positioned : JSFunction := ⟨0x3000, 0x1001, .blocking⟩

/-- The two objects are where the layout says, whatever the position is. -/
theorem described_positioned {tags : TagScheme} {position : Word}
    (reads : let s := positionHeap tags position
      let script := 0x1000 + 3 * tags.pointerSize
      [s.objectAddress 0x1001,
        s.readField 0x1000 ⟨"SharedFunctionInfo", "function_token_position"⟩,
        s.readField 0x1000 ⟨"SharedFunctionInfo", "name"⟩,
        s.readField 0x1000 ⟨"SharedFunctionInfo", "script"⟩, s.objectAddress (script + 1),
        s.readField script ⟨"Script", "name"⟩,
        s.readField script ⟨"Script", "line_ends"⟩].map Except.toOption =
      [some 0x1000, some position, some 0x2001, some (script + 1), some script, some 0x2011,
        some 0x2021]) :
    positioned.Described (positionHeap tags position) position := by
  simp only [List.map_cons, List.map_nil, List.cons.injEq, and_true] at reads
  obtain ⟨shared, token, name, script, target, scriptName, lineEnds⟩ := reads
  exact ⟨_, _, _, _, _, _, ok_of_toOption shared, ok_of_toOption token, ok_of_toOption name,
    ok_of_toOption script, ok_of_toOption target, ok_of_toOption scriptName,
    ok_of_toOption lineEnds⟩

end Sample

/-- The position 42 as a small integer, and the positions 41 and 42 as they are, of which the second
one is taken for zero on eight bytes and for 21 on four. -/
theorem Snapshot.readInteger_samples :
    let field : FieldName := ⟨"SharedFunctionInfo", "function_token_position"⟩
    let tags := Sample.layout.tags
    let tagged := Sample.positionHeap tags (tags.encode 42)
    let odd := Sample.positionHeap tags 41
    let even := Sample.positionHeap tags 42
    (tagged.readInteger 0x1000 field = .ok 42 ∧
      ∃ info, Sample.positioned.describe tagged .blocking = .ok info ∧
        info.tokenPosition = tags.encode 42) ∧
    (odd.readInteger 0x1000 field = .ok 41 ∧
      ∃ info, Sample.positioned.describe odd .blocking = .ok info ∧
        info.tokenPosition = tags.encode 41) ∧
    (even.readInteger 0x1000 field = .ok 0 ∧
      ∃ info, Sample.positioned.describe even .blocking = .ok info ∧
        info.tokenPosition ≠ tags.encode 42) ∧
    (Sample.positionHeap Sample.narrowTags 42).readInteger 0x1000 field = .ok 21 := by
  intro field tags tagged odd even
  have told : tags.TellsByLowestBit := ⟨rfl, rfl, .inl ⟨rfl, rfl⟩⟩
  have narrow : Sample.narrowTags.TellsByLowestBit := ⟨rfl, rfl, .inr ⟨rfl, rfl⟩⟩
  have small : 42 ≤ tags.smallIntRange.2 := by decide
  have of42 (word : Word) := readInteger_in_either_form (s := Sample.positionHeap tags word) told
    (n := 42) (by decide) small
  have of41 := readInteger_in_either_form (s := odd) told (n := 41) (by decide) (by decide)
  have onFour := readInteger_in_either_form (s := Sample.positionHeap Sample.narrowTags 42) narrow
    (n := 42) (by decide) (by decide)
  refine ⟨⟨?_, ?_⟩, ⟨?_, ?_⟩, ⟨?_, ?_⟩, ?_⟩
  · exact ((of42 _).1 0x1000 field).1 (Sample.ok_of_toOption (by decide +kernel))
  · exact ((of42 _).2 _ .blocking).1 (Sample.described_positioned (by decide +kernel))
  · exact ((of41.1 0x1000 field).2 (Sample.ok_of_toOption (by decide +kernel))).1
  · obtain ⟨info, done, same⟩ :=
      (of41.2 _ .blocking).2 (Sample.described_positioned (by decide +kernel))
    exact ⟨info, done, same.2 (by decide)⟩
  · exact (((of42 42).1 0x1000 field).2 (Sample.ok_of_toOption (by decide +kernel))).1
  · obtain ⟨info, done, same⟩ :=
      ((of42 42).2 _ .blocking).2 (Sample.described_positioned (by decide +kernel))
    exact ⟨info, done, fun position => absurd (same.1 position) (by decide)⟩
  · exact ((onFour.1 0x1000 field).2 (Sample.ok_of_toOption (by decide +kernel))).1

/-- An integer that is stored as it is need not be read back. -/
theorem Snapshot.not_readInteger_plain :
    ¬ ∀ (s : Snapshot) (object : Word) (field : FieldName) (n : Int),
      s.layout.tags.TellsByLowestBit → 0 ≤ n → n ≤ s.layout.tags.smallIntRange.2 →
      s.readField object field = .ok (UInt64.ofInt n) → s.readInteger object field = .ok n := by
  intro readsBack
  let s := Sample.positionHeap Sample.layout.tags 42
  let field : FieldName := ⟨"SharedFunctionInfo", "function_token_position"⟩
  have there : s.readField 0x1000 field = .ok 42 := Sample.ok_of_toOption (by decide +kernel)
  have read : s.readInteger 0x1000 field = .ok 0 := Sample.ok_of_toOption (by decide +kernel)
  have same := readsBack s 0x1000 field 42 ⟨rfl, rfl, .inl ⟨rfl, rfl⟩⟩ (by decide) (by decide) there
  rw [read] at same
  cases same

end Postmortem
