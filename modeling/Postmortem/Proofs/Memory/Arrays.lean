import Postmortem.Proofs.HeapString.Tree
import Postmortem.Proofs.Loading
import Postmortem.Proofs.Memory.Words

/-! # Arrays in memory

`Snapshot.HoldsArray` says that an array lies in the target's memory: an object of an accepted type,
its length and its slots. `HoldsArray.loadAs` loads it under the policy `blocking`, from any budget
that grants the copy (`Budget.Grants`). The raw bytes are given back; the copy stays booked. -/

namespace Postmortem

namespace Budget

variable {b : Budget}

theorem book_blocking {size : UInt64} (small : size.toNat ≤ b.maxAllocation.toNat) :
    b.book size .blocking = .ok (b.booking size) := by
  have cap : ¬ b.maxAllocation < size := by
    rw [UInt64.lt_iff_toNat_lt]
    omega
  have limit : ¬ (AllocationPolicy.blocking = .nonBlocking ∧
      b.limit.toNat < Word.capped (b.booked.toNat + size.toNat)) := by
    rintro ⟨policy, -⟩
    cases policy
  rw [book, if_neg cap, if_neg limit]
  rfl

/-- The copy of `count` words is within the cap on an allocation and within the host's storage. -/
structure Grants (b : Budget) (count : Nat) : Prop where
  maxAllocation : count * slotWidth ≤ b.maxAllocation.toNat
  storable : count * slotWidth ≤ b.storable

theorem Grants.booking {count : Nat} (grants : b.Grants count) (size : UInt64) :
    (b.booking size).Grants count :=
  ⟨grants.maxAllocation, grants.storable⟩

/-- Storage up to the size of a granted copy is accepted. -/
theorem Grants.accepts {count width : Nat} (grants : b.Grants count) (narrow : width ≤ slotWidth) :
    b.Accepts (count * width) .blocking (b.booking (UInt64.ofNat (count * width))) := by
  have scaled : count * width ≤ count * slotWidth := Nat.mul_le_mul_left count narrow
  have capped := Nat.le_trans scaled grants.maxAllocation
  -- A size within the cap is a word, so the product does not wrap.
  have inWord : count * width ≤ Word.top := Nat.le_trans capped (Word.toNat_le_top _)
  have size : (UInt64.ofNat (count * width)).toNat = count * width :=
    UInt64.toNat_ofNat_of_lt (Nat.lt_of_le_of_lt inWord (by decide))
  exact ⟨inWord, book_blocking (by rwa [size]), Nat.le_trans scaled grants.storable⟩

end Budget

namespace Snapshot

variable {s : Snapshot}

theorem readSmallInt_of_holds {object : Word} {field : FieldName} {w : Word} {n : Int}
    (held : s.HoldsField object field w) (classified : s.classify w = .smallInt n) :
    s.readSmallInt object field = .ok n :=
  readSmallInt_eq_ok_iff.2 ⟨w, readField_of_holds held, classified⟩

/-- Words are copied, and only the copy stays booked. -/
theorem readSlots_of_holds {address : Word} {words : List Word} {b : Budget}
    (held : s.HoldsWords address words) (nonempty : words ≠ []) (grants : b.Grants words.length) :
    (s.readSlots address words.length .blocking).runFrom b =
      (.ok ⟨words.toArray, UInt64.ofNat (words.length * slotWidth)⟩,
        b.booking (UInt64.ofNat (words.length * slotWidth))) := by
  have raw := grants.accepts s.layout.tags.wordSize_le
  have copy := (grants.booking (UInt64.ofNat (words.length * s.layout.tags.wordSize))).accepts
    (Nat.le_refl slotWidth)
  refine readSlots_eq_ok_iff.2 ⟨_, _, _, held.read_all nonempty, raw, copy, ?_, ?_⟩
  · rw [wordsOfBytes_bytes held.fits]
  · rw [Budget.release_booking_booking]

end Snapshot

namespace FixedArray

/-- The copy of an array with the given slots. -/
def copy (address : Word) (words : List Word) : FixedArray where
  words := words.toArray
  booked := UInt64.ofNat (words.length * slotWidth)
  address

@[simp] theorem size_copy (address : Word) (words : List Word) :
    (copy address words).size = words.length := rfl

@[simp] theorem get?_copy (address : Word) (words : List Word) (index : Nat) :
    (copy address words).get? index = words[index]? :=
  List.getElem?_toArray

end FixedArray

namespace Snapshot

/-- An array lies in memory: an object of an accepted type, its length and its slots. -/
structure HoldsArray (s : Snapshot) (address : Word) (alternative : Option UInt8)
    (words : List Word) : Prop where
  type : s.HoldsType address [s.layout.types.fixedArray, alternative]
  length : ∃ w, s.HoldsField address ⟨"FixedArray", "length"⟩ w ∧
    s.classify w = .smallInt words.length
  data : ∃ base, s.fieldAddress address ⟨"FixedArray", "data"⟩ = .ok base ∧
    s.HoldsWords base words

namespace HoldsArray

variable {s : Snapshot} {w address : Word} {alternative : Option UInt8} {words : List Word}

theorem header (held : s.HoldsArray address alternative words)
    (pointer : s.objectAddress w = .ok address) (expected : String) :
    FixedArray.header s w expected alternative = .ok (address, words.length) := by
  obtain ⟨length, field, classified⟩ := held.length
  exact FixedArray.header_eq_ok_iff.2
    ⟨expectType_of_holds pointer held.type expected, readSmallInt_of_holds field classified⟩

/-- **An array in memory is loaded as it lies there,** from any budget that grants the copy. -/
theorem loadAs {b : Budget} (held : s.HoldsArray address alternative words)
    (pointer : s.objectAddress w = .ok address) (nonempty : words ≠ [])
    (grants : b.Grants words.length) (expected : String) :
    (FixedArray.loadAs s w expected alternative .blocking).runFrom b =
      (.ok (.copy address words), b.booking (FixedArray.copy address words).booked) := by
  obtain ⟨base, found, slots⟩ := held.data
  exact FixedArray.loadAs_eq_ok_iff.2
    ⟨held.header pointer expected, base, found, readSlots_of_holds slots nonempty grants⟩

end HoldsArray

end Snapshot

/-! ## A sample

A heap with a closure, whose context and scope info are arrays. -/

namespace Sample

/-- The layout with what closures need. `stackLocalHeader` slots come before the names of the stack
locals. -/
def closureLayout (stackLocalHeader : UInt64) : Layout :=
  [(⟨"FixedArray", "length"⟩, 8), (⟨"FixedArray", "data"⟩, 16), (⟨"JSFunction", "shared"⟩, 8),
    (⟨"JSFunction", "context"⟩, 16), (⟨"SharedFunctionInfo", "scope_info"⟩, 8)].foldl
    (fun l (field, offset) => l.setOffset field offset)
    { layout with
      types := { layout.types with function := some 0xb5, fixedArray := some 0x84 }
      context := ⟨some 0, some 1, some 2, some 3, some 4⟩
      scopeInfo := ⟨some 1, some 2, some 3, some 4, some stackLocalHeader⟩ }

/-- The word of a small integer. -/
def small (n : Nat) : Word := UInt64.ofNat (n <<< 32)

/-- The slots of the scope info, at `0x1048`: one parameter, one stack local after a slot of its
own, and two context locals. -/
def scopeSlots : List Word :=
  [0, small 1, small 1, small 2, 0x2001, 0, 0x2011, 0x2021, 0x2031]

/-- The slots of the context, at `0x10a0`. -/
def contextSlots : List Word := [0x1021, 0, 0, 0, small 7, 0x3001]

/-- The words of the heap, from `0x1000` on: two maps, the function, what its closures share, the
scope info and the context. -/
def closureWords : List Word :=
  [0, small 0xb5, 0, small 0x84, 0x1001, 0x1039, 0x10a1, 0, 0x1049] ++
    (0x1011 :: small 9 :: scopeSlots) ++ (0x1011 :: small 6 :: contextSlots)

/-- The only segment of the heap. -/
def closureSegment : Segment :=
  ⟨0x1000, (closureWords.flatMap fun w => Word.bytes 8 w.toNat).toArray⟩

/-- The heap. -/
def closureHeap (stackLocalHeader : UInt64) : Snapshot where
  memory := (Image.empty.map closureSegment.base closureSegment.bytes).memory
  layout := closureLayout stackLocalHeader

theorem closureHeap_holdsBytes {stackLocalHeader : UInt64} {base : Word} {bytes : List UInt8}
    (above : 0x1000 ≤ base.toNat)
    (same : (closureSegment.bytes.toList.drop (base.toNat - 0x1000)).take bytes.length = bytes)
    (inSpace : base.toNat + bytes.length ≤ Word.top) :
    (closureHeap stackLocalHeader).HoldsBytes base bytes := by
  have first : closureSegment.base.toNat = 0x1000 := rfl
  have here : base.toNat = closureSegment.base.toNat + (base.toNat - 0x1000) := by omega
  refine holdsBytes_of_segment here (fun start _ => ?_) same inSpace
  exact List.find?_cons_of_pos (decide_eq_true (by rw [first]; omega))

end Sample

end Postmortem
