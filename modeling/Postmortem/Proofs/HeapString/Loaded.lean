import Postmortem.HeapString.Basic

/-! # Loaded strings

What a loaded header says was read from the target: `HeapString.load_eq_ok` takes a successful load
apart. Its length is the value of a small integer, so a word holds it
(`HeapString.length_le_of_load`).

The reads of a snapshot that a load is made of succeed exactly where `readSmallInt_eq_ok_iff`,
`expectType_eq_ok_iff` and the like say. -/

namespace Postmortem

theorem bind_of_eq_ok {ε α β : Type} {value : Except ε α} {a : α} (h : value = .ok a)
    (next : α → Except ε β) : value >>= next = next a := by
  rw [h]
  rfl

theorem exists_of_bind_eq_ok {α β : Type} {value : Except DecodeError α}
    {next : α → Except DecodeError β} {b : β} (h : value >>= next = .ok b) :
    ∃ a, value = .ok a ∧ next a = .ok b := by
  cases value with
  | ok a => exact ⟨a, rfl, h⟩
  | error e => cases h

theorem exists_of_bind_eq_error {α β : Type} {value : Except DecodeError α}
    {next : α → Except DecodeError β} {e : DecodeError} (h : value >>= next = .error e) :
    value = .error e ∨ ∃ a, value = .ok a ∧ next a = .error e := by
  cases value with
  | ok a => exact .inr ⟨a, rfl, h⟩
  | error e' =>
    cases h
    exact .inl rfl

/-! ## Small integers -/

namespace TagScheme

variable (t : TagScheme)

theorem signed_le (w : Word) : t.signed w ≤ Word.signedTop := by
  unfold signed
  split
  · have := w.toUInt32.toInt32.toInt_le
    exact Int.le_trans this (by decide)
  · exact w.toInt64.toInt_le

theorem decode_le (w : Word) : t.decode w ≤ Word.signedTop := by
  have signed := t.signed_le w
  rw [decode, Int.shiftRight_eq_div_pow]
  have pos : (0 : Int) < (2 ^ t.shift : Nat) := Int.natCast_pos.2 (Nat.two_pow_pos _)
  refine Int.ediv_le_of_le_mul pos (Int.le_trans signed ?_)
  have := Int.mul_le_mul_of_nonneg_left (c := (Word.signedTop : Int)) pos (Int.natCast_nonneg _)
  simpa using this

theorem decode_of_classify {w : Word} {n : Int} (h : t.classify w = .smallInt n) :
    t.decode w = n :=
  (t.classify_eq_smallInt_iff.1 h).2

end TagScheme

/-! ## Reads -/

namespace Snapshot

variable {s : Snapshot}

theorem readBytes_eq_ok_iff {address : Word} {length : Nat} {bytes : List UInt8} :
    s.readBytes address length = .ok bytes ↔ s.memory.read address length = .ok bytes := by
  unfold readBytes
  cases s.memory.read address length <;> simp

theorem objectAddress_eq_ok_iff {w address : Word} :
    s.objectAddress w = .ok address ↔ ∃ tag, s.classify w = .pointer address tag := by
  unfold objectAddress TagScheme.address? classify
  cases s.layout.tags.classify w <;> simp

theorem readSmallInt_eq_ok_iff {object : Word} {field : FieldName} {n : Int} :
    s.readSmallInt object field = .ok n ↔
      ∃ w, s.readField object field = .ok w ∧ s.classify w = .smallInt n := by
  unfold readSmallInt
  constructor
  · intro small
    obtain ⟨w, read, small⟩ := exists_of_bind_eq_ok small
    refine ⟨w, read, ?_⟩
    split at small
    · rename_i classified
      cases small
      exact classified
    · cases small
  · rintro ⟨w, read, classified⟩
    rw [bind_of_eq_ok read, classified]
    rfl

theorem expectType_eq_ok_iff {w address : Word} {typeByte : UInt8} {expected : String}
    {accepted : List (Option UInt8)} :
    s.expectType w expected accepted = .ok (address, typeByte) ↔
      s.objectAddress w = .ok address ∧ s.typeByte address = .ok typeByte ∧
        some typeByte ∈ accepted := by
  constructor
  · intro typed
    obtain ⟨object, pointer, typed⟩ := exists_of_bind_eq_ok typed
    obtain ⟨found, read, typed⟩ := exists_of_bind_eq_ok typed
    split at typed
    · rename_i accepts
      cases typed
      exact ⟨pointer, read, List.mem_of_elem_eq_true accepts⟩
    · cases typed
  · rintro ⟨pointer, read, mem⟩
    have accepts : accepted.contains (some typeByte) = true := List.elem_eq_true_of_mem mem
    rw [expectType, bind_of_eq_ok pointer, bind_of_eq_ok read, if_pos accepts]
    rfl

theorem readSmallInt_le {object : Word} {field : FieldName} {n : Int}
    (h : s.readSmallInt object field = .ok n) : n ≤ Word.signedTop := by
  obtain ⟨w, -, classified⟩ := readSmallInt_eq_ok_iff.1 h
  rw [← s.layout.tags.decode_of_classify classified]
  exact s.layout.tags.decode_le w

theorem readNatural_le {object : Word} {field : FieldName} {flaw : FieldFlaw}
    {n : Nat} (h : s.readNatural object field flaw = .ok n) : n ≤ Word.signedTop := by
  obtain ⟨m, small, h⟩ := exists_of_bind_eq_ok h
  have := readSmallInt_le small
  split at h
  · cases h
  · cases h
    omega

end Snapshot

/-! ## Headers -/

namespace HeapString

/-- What was read for the header of a loaded string. -/
theorem load_eq_ok {s : Snapshot} {w : Word} {policy : AllocationPolicy} {h : HeapString}
    (loaded : load s w policy = .ok h) :
    s.objectAddress w = .ok h.address ∧ s.typeByte h.address = .ok h.typeByte ∧
    s.readNatural h.address ⟨"String", "length"⟩ .negativeLength = .ok h.length ∧
    (∃ tags, s.layout.types.strings = some tags ∧ tags.isString h.typeByte = true ∧
      h.encoding = (if tags.isOneByte h.typeByte then .oneByte else .twoByte) ∧
      readRepresentation s tags h.address h.typeByte h.encoding = .ok h.representation) ∧
    h.policy = policy := by
  obtain ⟨address, objectAddress, loaded⟩ := exists_of_bind_eq_ok loaded
  obtain ⟨typeByte, typed, loaded⟩ := exists_of_bind_eq_ok loaded
  split at loaded
  · cases loaded
  · rename_i tags configured
    by_cases other : (!tags.isString typeByte) = true
    · simp only [if_pos other] at loaded
      cases loaded
    · simp only [if_neg other] at loaded
      obtain ⟨length, read, loaded⟩ := exists_of_bind_eq_ok loaded
      obtain ⟨representation, shown, loaded⟩ := exists_of_bind_eq_ok loaded
      cases loaded
      exact ⟨objectAddress, typed, read, ⟨tags, configured, by simpa using other, rfl, shown⟩,
        rfl⟩

theorem length_le_of_load {s : Snapshot} {w : Word} {policy : AllocationPolicy} {h : HeapString}
    (loaded : load s w policy = .ok h) : h.length ≤ Word.top :=
  Nat.le_trans (Snapshot.readNatural_le (load_eq_ok loaded).2.2.1) (by decide)

theorem policy_of_load {s : Snapshot} {w : Word} {policy : AllocationPolicy} {h : HeapString}
    (loaded : load s w policy = .ok h) : h.policy = policy :=
  (load_eq_ok loaded).2.2.2.2

end HeapString

end Postmortem
