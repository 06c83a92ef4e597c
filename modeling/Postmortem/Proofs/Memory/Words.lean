import Mathlib.Algebra.Group.Nat.Defs
import Postmortem.Proofs.HeapString.Loaded
import Postmortem.Proofs.Memory.Held
import Postmortem.Snapshot.Slots

/-! # Words and fields in memory

`Word.bytes` stores a word with the least significant byte first. A word that has room there is read
back (`Word.ofBytes_bytes`), and so are words stored one after the other (`wordsOfBytes_bytes`).

`Snapshot.HoldsWords` says that words lie in the target's memory, `Snapshot.HoldsField` that a field
of an object holds a word, and `Snapshot.HoldsType` that an object's map has one of the accepted
type bytes. What lies there is what is read (`Snapshot.readField_of_holds`,
`Snapshot.expectType_of_holds`). -/

namespace Postmortem

namespace Word

/-- The `size` lowest bytes of a number, least significant first. -/
def bytes : Nat → Nat → List UInt8
  | 0, _ => []
  | size + 1, n => UInt8.ofNat n :: bytes size (n / 256)

@[simp] theorem length_bytes (size n : Nat) : (bytes size n).length = size := by
  induction size generalizing n with
  | zero => rfl
  | succ size ih => rw [bytes, List.length_cons, ih]

theorem foldr_bytes {size n : Nat} (fits : n < 256 ^ size) :
    (bytes size n).foldr (fun b n => b.toNat + 256 * n) 0 = n := by
  induction size generalizing n with
  | zero =>
    rw [Nat.pow_zero] at fits
    exact (Nat.lt_one_iff.1 fits).symm
  | succ size ih =>
    have rest : n / 256 < 256 ^ size :=
      Nat.div_lt_of_lt_mul (by rwa [Nat.pow_succ, Nat.mul_comm] at fits)
    rw [bytes, List.foldr_cons, ih rest, UInt8.toNat_ofNat']
    omega

theorem ofBytes_bytes {size : Nat} {w : Word} (fits : w.toNat < 256 ^ size) :
    ofBytes (bytes size w.toNat) = w := by
  rw [ofBytes, foldr_bytes fits, UInt64.ofNat_toNat]

end Word

theorem wordsOfBytes_bytes {size : Nat} {words : List Word}
    (fits : ∀ w ∈ words, w.toNat < 256 ^ size) :
    wordsOfBytes size words.length (words.flatMap fun w => Word.bytes size w.toNat) = words := by
  induction words with
  | nil => rfl
  | cons w words ih =>
    rw [List.flatMap_cons, List.length_cons, wordsOfBytes, List.take_left' (Word.length_bytes ..),
      List.drop_left' (Word.length_bytes ..), Word.ofBytes_bytes (fits w List.mem_cons_self),
      ih fun w mem => fits w (List.mem_cons_of_mem _ mem)]

namespace Snapshot

variable (s : Snapshot)

/-- The words, which the target's words have room for, lie in memory from `base` on. -/
structure HoldsWords (base : Word) (words : List Word) : Prop where
  fits : ∀ w ∈ words, w.toNat < 256 ^ s.layout.tags.wordSize
  bytes : s.HoldsBytes base (words.flatMap fun w => Word.bytes s.layout.tags.wordSize w.toNat)

/-- A field of an object holds the word. -/
def HoldsField (object : Word) (field : FieldName) (w : Word) : Prop :=
  ∃ address, s.fieldAddress object field = .ok address ∧ s.HoldsWords address [w]

/-- The map of an object holds one of the accepted type bytes. -/
def HoldsType (object : Word) (accepted : List (Option UInt8)) : Prop :=
  ∃ w map address typeByte, s.HoldsField object ⟨"HeapObject", "map"⟩ w ∧
    s.objectAddress w = .ok map ∧
    s.fieldAddress map ⟨"Map", "instance_attributes"⟩ = .ok address ∧
    s.HoldsBytes address [typeByte] ∧ some typeByte ∈ accepted

variable {s}

theorem HoldsBytes.read_all {base : Word} {bytes : List UInt8} (held : s.HoldsBytes base bytes)
    (nonempty : bytes ≠ []) : s.readBytes base bytes.length = .ok bytes := by
  have pos : 0 < bytes.length := List.length_pos_iff.2 nonempty
  obtain ⟨address, here, read⟩ := held 0 bytes.length pos (by omega)
  have same : address = base := by
    apply UInt64.toNat_inj.1
    rw [toNat_of_advance? here, Nat.add_zero]
  rw [same, List.drop_zero, List.take_length] at read
  exact read

theorem HoldsWords.length_bytes (words : List Word) (size : Nat) :
    (words.flatMap fun w => Word.bytes size w.toNat).length = words.length * size := by
  simp [List.length_flatMap, List.map_const']

/-- The bytes of words are read with one read of the memory. -/
theorem HoldsWords.read_all {base : Word} {words : List Word} (held : s.HoldsWords base words)
    (nonempty : words ≠ []) :
    s.readBytes base (words.length * s.layout.tags.wordSize) =
      .ok (words.flatMap fun w => Word.bytes s.layout.tags.wordSize w.toNat) := by
  have length := HoldsWords.length_bytes words s.layout.tags.wordSize
  have pos : 0 < words.length * s.layout.tags.wordSize :=
    Nat.mul_pos (List.length_pos_iff.2 nonempty) s.layout.tags.wordSize_pos
  rw [← length]
  exact held.bytes.read_all (List.ne_nil_of_length_pos (by omega))

theorem readWord_of_holds {address w : Word} (held : s.HoldsWords address [w]) :
    s.readWord address = .ok w := by
  have read := held.read_all (List.cons_ne_nil w [])
  rw [List.length_singleton, Nat.one_mul, List.flatMap_singleton] at read
  rw [readWord, read]
  exact congrArg _ (Word.ofBytes_bytes (held.fits w List.mem_cons_self))

theorem readField_of_holds {object : Word} {field : FieldName} {w : Word}
    (held : s.HoldsField object field w) : s.readField object field = .ok w := by
  obtain ⟨address, found, there⟩ := held
  rw [readField, found]
  exact readWord_of_holds there

theorem typeByte_of_holds {object : Word} {accepted : List (Option UInt8)}
    (held : s.HoldsType object accepted) :
    ∃ typeByte, s.typeByte object = .ok typeByte ∧ some typeByte ∈ accepted := by
  obtain ⟨w, map, address, typeByte, field, pointer, found, bytes, mem⟩ := held
  refine ⟨typeByte, ?_, mem⟩
  have read : s.readBytes address 1 = .ok [typeByte] := bytes.read_all (List.cons_ne_nil _ _)
  rw [Snapshot.typeByte, bind_of_eq_ok (readField_of_holds field), bind_of_eq_ok pointer,
    bind_of_eq_ok found, bind_of_eq_ok read]
  rfl

theorem expectType_of_holds {w object : Word} {accepted : List (Option UInt8)}
    (pointer : s.objectAddress w = .ok object) (held : s.HoldsType object accepted)
    (expected : String) :
    ∃ typeByte, s.expectType w expected accepted = .ok (object, typeByte) := by
  obtain ⟨typeByte, read, mem⟩ := typeByte_of_holds held
  exact ⟨typeByte, expectType_eq_ok_iff.2 ⟨pointer, read, mem⟩⟩

end Snapshot

end Postmortem
