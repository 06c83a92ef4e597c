import Postmortem.Proofs.Memory.Arrays
import Postmortem.Proofs.Memory.ByteMap

/-! # When an array is loaded

`Snapshot.PointsToArray` says what a word has to point to if a fixed array is to be loaded. A load
ends with an array exactly where the slots can be read as well and the storage for them is accepted
(`FixedArray.load_eq_ok_iff`, `FixedArray.exists_load_iff`).

All slots are read at once. In an image without overlaps every piece of what is read can be read by
itself (`Image.Tidy.holdsBytes`), so each slot has the word that is read at its address.

`Image.Tidy.load_arrays` puts this together, and says what the elements of an array of the language
are. -/

namespace Postmortem

theorem getElem?_wordsOfBytes {size count i : Nat} {bytes : List UInt8} (inside : i < count) :
    (wordsOfBytes size count bytes)[i]? =
      some (Word.ofBytes ((bytes.drop (i * size)).take size)) := by
  induction count generalizing bytes i with
  | zero => cases inside
  | succ count ih =>
    cases i with
    | zero => simp [wordsOfBytes]
    | succ i =>
      have skipped : size + i * size = (i + 1) * size := by rw [Nat.succ_mul, Nat.add_comm]
      rw [wordsOfBytes, List.getElem?_cons_succ, ih (Nat.lt_of_succ_lt_succ inside),
        List.drop_drop, skipped]

/-! ## Arrays -/

namespace Snapshot

variable {s : Snapshot}

/-- The word points to a fixed array: its address, the number of its slots and where they begin. -/
structure PointsToArray (s : Snapshot) (w address : Word) (count : Nat) (data : Word) : Prop where
  pointer : ∃ tag, s.classify w = .pointer address tag
  type : ∃ typeByte, s.typeByte address = .ok typeByte ∧
    s.layout.types.fixedArray = some typeByte
  length : ∃ field, s.readField address ⟨"FixedArray", "length"⟩ = .ok field ∧
    s.classify field = .smallInt count
  data : s.fieldAddress address ⟨"FixedArray", "data"⟩ = .ok data

end Snapshot

namespace FixedArray

variable {s : Snapshot} {w : Word} {policy : AllocationPolicy} {b b' : Budget}

/-- **What is loaded:** copied slots of the array that the word points to. -/
theorem load_eq_ok_iff {a : FixedArray} :
    (load s w policy).runFrom b = (.ok a, b') ↔
      ∃ data, s.PointsToArray w a.address a.size data ∧
        (s.readSlots data a.size policy).runFrom b = (.ok a.toSlots, b') := by
  rw [load, loadAs_eq_ok_iff, header_eq_ok_iff]
  simp only [Snapshot.expectType_eq_ok_iff, Snapshot.objectAddress_eq_ok_iff,
    Snapshot.readSmallInt_eq_ok_iff]
  constructor
  · rintro ⟨⟨⟨typeByte, pointer, type, accepted⟩, length⟩, data, found, copied⟩
    have accepted : s.layout.types.fixedArray = some typeByte := by simpa [eq_comm] using accepted
    exact ⟨data, ⟨pointer, ⟨typeByte, type, accepted⟩, length, found⟩, copied⟩
  · rintro ⟨data, points, copied⟩
    obtain ⟨typeByte, type, accepted⟩ := points.type
    have mem : some typeByte ∈ [s.layout.types.fixedArray, none] := by simp [accepted]
    exact ⟨⟨⟨typeByte, points.pointer, type, mem⟩, points.length⟩, data, points.data, copied⟩

/-- **An array is loaded exactly when** the word points to it, its slots are read, and their bytes
and the copy are accepted. -/
theorem exists_load_iff {count : Nat} :
    (∃ a b', (load s w policy).runFrom b = (.ok a, b') ∧ a.size = count) ↔
      ∃ address data, s.PointsToArray w address count data ∧
        (∃ bytes, s.readBytes data (count * s.layout.tags.wordSize) = .ok bytes) ∧
        ∃ b₁ b₂, b.Accepts (count * s.layout.tags.wordSize) policy b₁ ∧
          b₁.Accepts (count * slotWidth) policy b₂ := by
  constructor
  · rintro ⟨a, b', loaded, rfl⟩
    obtain ⟨data, points, copied⟩ := load_eq_ok_iff.1 loaded
    obtain ⟨bytes, b₁, b₂, read, raw, copy, -, -⟩ := Snapshot.readSlots_eq_ok_iff.1 copied
    exact ⟨a.address, data, points, ⟨bytes, read⟩, b₁, b₂, raw, copy⟩
  · rintro ⟨address, data, points, ⟨bytes, read⟩, b₁, b₂, raw, copy⟩
    obtain ⟨slots, b', copied⟩ :
        ∃ slots b', (s.readSlots data count policy).runFrom b = (.ok slots, b') :=
      ⟨_, _, Snapshot.readSlots_eq_ok_iff.2 ⟨bytes, b₁, b₂, read, raw, copy, rfl, rfl⟩⟩
    obtain rfl := Snapshot.size_of_readSlots copied
    exact ⟨⟨slots, address⟩, b', load_eq_ok_iff.2 ⟨data, points, copied⟩, rfl⟩

end FixedArray

namespace JSArray

variable {s : Snapshot} {w : Word} {policy : AllocationPolicy} {b b' : Budget}

/-- The store of an array with elements is the fixed array that its field points to. -/
theorem exists_store_of_load {a : JSArray}
    (loaded : (load s w policy).runFrom b = (.ok a, b')) (nonempty : a.length ≠ 0) :
    ∃ elements store, s.readField a.address ⟨"JSObject", "elements"⟩ = .ok elements ∧
      (FixedArray.load s elements policy).runFrom b = (.ok store, b') ∧ a.store = some store := by
  obtain ⟨⟨address, length⟩, -, rest⟩ := Loading.exists_of_runFrom_ofExcept_bind loaded
  dsimp only at rest
  split at rest
  · rename_i empty
    cases rest
    exact absurd empty nonempty
  · obtain ⟨elements, read, rest⟩ := Loading.exists_of_runFrom_ofExcept_bind rest
    obtain ⟨store, mid, there, finished⟩ := Loading.exists_of_runFrom_bind rest
    cases finished
    exact ⟨elements, store, read, there, rfl⟩

theorem load_of_length_zero {address : Word} {typeByte : UInt8}
    (pointer : ∃ tag, s.classify w = .pointer address tag)
    (type : s.typeByte address = .ok typeByte) (accepted : s.layout.types.array = some typeByte)
    (length : s.readSmallInt address ⟨"JSArray", "length"⟩ = .ok 0) :
    (load s w policy).runFrom b = (.ok ⟨address, 0, none⟩, b) := by
  have mem : some typeByte ∈ [s.layout.types.array] := by simp [accepted]
  have typed : s.expectType w "JSArray" [s.layout.types.array] = .ok (address, typeByte) :=
    Snapshot.expectType_eq_ok_iff.2 ⟨Snapshot.objectAddress_eq_ok_iff.2 pointer, type, mem⟩
  unfold load
  rw [bind_of_eq_ok typed]
  dsimp only
  rw [bind_of_eq_ok length]
  rfl

end JSArray

/-! ## Images -/

namespace Image.Tidy

variable {image : Image} {layout : Layout}

/-- **What is read from an image lies there:** each piece of it can be read by itself. -/
theorem holdsBytes (tidy : image.Tidy) {base : Word} {length : Nat} {bytes : List UInt8}
    (read : image.read base length = .ok bytes) :
    Snapshot.HoldsBytes ⟨image.memory, layout⟩ base bytes := by
  obtain ⟨inSpace, rfl, mapped⟩ := tidy.read_eq_ok_iff.1 read
  intro start count pos range
  have reached : base.toNat + start ≤ Word.top := by omega
  have address : (UInt64.ofNat (base.toNat + start)).toNat = base.toNat + start :=
    UInt64.toNat_ofNat_of_lt (Nat.lt_of_le_of_lt reached (by decide))
  refine ⟨UInt64.ofNat (base.toNat + start), if_pos reached, ?_⟩
  refine Snapshot.readBytes_eq_ok_iff.2 (tidy.read_eq_ok_iff.2 ⟨?_, ?_, fun i byte here => ?_⟩)
  · rw [address]
    omega
  · rw [List.length_take, List.length_drop]
    omega
  · rw [List.getElem?_take] at here
    split at here
    · rw [List.getElem?_drop] at here
      rw [address, Nat.add_assoc]
      exact mapped (start + i) byte here
    · cases here

/-- A slot of a copy has the word that is read at the slot's address. -/
theorem readWord_of_readSlots (tidy : image.Tidy) {data : Word} {count : Nat}
    {policy : AllocationPolicy} {slots : Slots} {b b' : Budget}
    (copied : (Snapshot.readSlots ⟨image.memory, layout⟩ data count policy).runFrom b =
      (.ok slots, b')) {i : Nat} (inside : i < count) :
    ∃ address word, data.advance? (i * layout.tags.wordSize) = some address ∧
      Snapshot.readWord ⟨image.memory, layout⟩ address = .ok word ∧
      slots.words[i]? = some word := by
  obtain ⟨bytes, b₁, b₂, read, -, -, rfl, -⟩ := Snapshot.readSlots_eq_ok_iff.1 copied
  have read := Snapshot.readBytes_eq_ok_iff.1 read
  obtain ⟨-, whole, -⟩ := tidy.read_eq_ok_iff.1 read
  have here : i * layout.tags.wordSize + layout.tags.wordSize ≤ bytes.length := by
    rw [whole, ← Nat.succ_mul]
    exact Nat.mul_le_mul_right _ inside
  obtain ⟨address, reached, piece⟩ := tidy.holdsBytes read (i * layout.tags.wordSize)
    layout.tags.wordSize layout.tags.wordSize_pos here
  refine ⟨address, _, reached, congrArg (Except.map Word.ofBytes) piece, ?_⟩
  rw [List.getElem?_toArray, getElem?_wordsOfBytes inside]

/-- **Array loads are exact.** No segment of the image is empty and no two overlap. A fixed array of
`n` slots is loaded if and only if the word points to one, its bytes are mapped below the end of the
address space, and the budget and the host accept them and, while they are held, the copy. Then each
slot has the word that is read at its address. The elements of an array of the language are the
slots of its store as far as its length goes. An array of length zero is loaded without a store,
whatever its field for the elements holds and whatever else lies in memory. -/
theorem load_arrays (tidy : image.Tidy) (layout : Layout) (w : Word) (policy : AllocationPolicy)
    (b : Budget) :
    let s : Snapshot := ⟨image.memory, layout⟩
    let wordSize := layout.tags.wordSize
    (∀ n, (∃ a b', (FixedArray.load s w policy).runFrom b = (.ok a, b') ∧ a.size = n) ↔
      ∃ address data, s.PointsToArray w address n data ∧
        (data.toNat + n * wordSize ≤ Word.top ∧
          ∀ i < n * wordSize, ∃ byte, image.Maps (data.toNat + i) byte) ∧
        ∃ b₁ b₂, b.Accepts (n * wordSize) policy b₁ ∧ b₁.Accepts (n * slotWidth) policy b₂) ∧
    (∀ a b', (FixedArray.load s w policy).runFrom b = (.ok a, b') →
      ∃ data, s.PointsToArray w a.address a.size data ∧
        ∀ i < a.size, ∃ address word, data.advance? (i * wordSize) = some address ∧
          s.readWord address = .ok word ∧ a.get? i = some word) ∧
    (∀ a b', (JSArray.load s w policy).runFrom b = (.ok a, b') → a.length ≠ 0 →
      ∃ elements store, s.readField a.address ⟨"JSObject", "elements"⟩ = .ok elements ∧
        (FixedArray.load s elements policy).runFrom b = (.ok store, b') ∧
        a.elements.length = min a.length store.size ∧
        ∀ i < min a.length store.size, a.elements[i]? = store.get? i) ∧
    (∀ address typeByte, (∃ tag, s.classify w = .pointer address tag) →
      s.typeByte address = .ok typeByte → layout.types.array = some typeByte →
      s.readSmallInt address ⟨"JSArray", "length"⟩ = .ok 0 →
      ∀ memory : Memory, let s' : Snapshot := ⟨memory, layout⟩
        s'.typeByte address = s.typeByte address →
        s'.readSmallInt address ⟨"JSArray", "length"⟩ =
          s.readSmallInt address ⟨"JSArray", "length"⟩ →
        (JSArray.load s' w policy).runFrom b = (.ok ⟨address, 0, none⟩, b)) := by
  intro s wordSize
  refine ⟨fun n => ?_, fun a b' loaded => ?_, fun a b' loaded nonempty => ?_, ?_⟩
  · simp only [FixedArray.exists_load_iff, ← tidy.exists_read_iff, Snapshot.readBytes_eq_ok_iff]
    rfl
  · obtain ⟨data, points, copied⟩ := FixedArray.load_eq_ok_iff.1 loaded
    exact ⟨data, points, fun i inside => tidy.readWord_of_readSlots copied inside⟩
  · obtain ⟨elements, store, read, there, stored⟩ := JSArray.exists_store_of_load loaded nonempty
    refine ⟨elements, store, read, there, ?_, fun i inside => ?_⟩
    · simp [JSArray.elements, stored, FixedArray.size]
    · have short : i < a.length := Nat.lt_of_lt_of_le inside (Nat.min_le_left _ _)
      simp [JSArray.elements, stored, FixedArray.get?, short]
  · intro address typeByte pointer type accepted length memory s' sameType sameLength
    exact JSArray.load_of_length_zero pointer (sameType.trans type) accepted
      (sameLength.trans length)

end Image.Tidy

/-! ## A sample

A heap of a build with words of four bytes: a fixed array, an array of the language with it as its
store, and one of length zero. A slot of the fixed array lies in two segments. -/

namespace Sample

/-- The layout of a build with words of four bytes, as far as arrays need it. -/
def arrayLayout : Layout :=
  [(⟨"HeapObject", "map"⟩, 0), (⟨"Map", "instance_attributes"⟩, 4), (⟨"FixedArray", "length"⟩, 4),
    (⟨"FixedArray", "data"⟩, 8), (⟨"JSObject", "elements"⟩, 8), (⟨"JSArray", "length"⟩, 12)].foldl
    (fun l (field, offset) => l.setOffset field offset)
    { layout with
      tags := { layout.tags with pointerSize := 4, paddingShift := 0 }
      types := { layout.types with fixedArray := some 0x84, array := some 0x85 } }

/-- The bytes of the heap, from `0x1000` on: two maps and three arrays, at `0x1010`, `0x1024` and
`0x1034`. -/
def arrayBytes : List UInt8 :=
  [0, 0x84, 0, 0x85, 0x1001, 6, 14, 0x2001, 16, 0x1009, 0, 0x1011, 4, 0x1009, 0, 0x3001, 0].flatMap
    (Word.bytes 4)

/-- The memory of the heap, in two segments. -/
def arrayImage : Image :=
  (Image.empty.map 0x1000 (arrayBytes.take 30).toArray).map 0x101e (arrayBytes.drop 30).toArray

/-- The heap. -/
def arrayHeap : Snapshot := ⟨arrayImage.memory, arrayLayout⟩

theorem tidy_arrayImage : arrayImage.Tidy := ⟨by decide +kernel, by decide +kernel⟩

theorem pointsToArray : arrayHeap.PointsToArray 0x1011 0x1010 3 0x1018 where
  pointer := ⟨1, by decide +kernel⟩
  type := ⟨0x84, ok_of_toOption (by decide +kernel), by decide +kernel⟩
  length := ⟨6, ok_of_toOption (by decide +kernel), by decide +kernel⟩
  data := ok_of_toOption (by decide +kernel)

theorem maps_slots (i : Nat) (inside : i < 12) : ∃ byte, arrayImage.Maps (0x1018 + i) byte := by
  have read : arrayImage.read 0x1018 12 = .ok [14, 0, 0, 0, 1, 32, 0, 0, 16, 0, 0, 0] :=
    ok_of_toOption (by decide +kernel)
  exact (tidy_arrayImage.exists_read_iff.1 ⟨_, read⟩).2 i inside

end Sample

/-- The bytes of three slots and their copy are accepted within a limit of 36 bytes but not within
one of 35, and the array of length zero is loaded in any case. -/
theorem Image.load_arrayHeap :
    let within (limit : UInt64) : Budget := { limit, maxAllocation := 24 }
    Sample.arrayImage.Tidy ∧
    (∃ a b', (FixedArray.load Sample.arrayHeap 0x1011 .nonBlocking).runFrom (within 36) =
      (.ok a, b') ∧ a.size = 3) ∧
    (¬ ∃ a b', (FixedArray.load Sample.arrayHeap 0x1011 .nonBlocking).runFrom (within 35) =
      (.ok a, b') ∧ a.size = 3) ∧
    (JSArray.load Sample.arrayHeap 0x1035 .nonBlocking).runFrom (within 35) =
      (.ok ⟨0x1034, 0, none⟩, within 35) := by
  intro within
  refine ⟨Sample.tidy_arrayImage, ?_, ?_, ?_⟩
  · obtain ⟨loads, -⟩ := Sample.tidy_arrayImage.load_arrays Sample.arrayLayout 0x1011 .nonBlocking
      (within 36)
    refine (loads 3).2 ⟨0x1010, 0x1018, Sample.pointsToArray, ⟨by decide, Sample.maps_slots⟩, ?_⟩
    exact ⟨_, _, ⟨by decide, rfl, by decide⟩, ⟨by decide, rfl, by decide⟩⟩
  · obtain ⟨loads, -⟩ := Sample.tidy_arrayImage.load_arrays Sample.arrayLayout 0x1011 .nonBlocking
      (within 35)
    intro loaded
    obtain ⟨address, data, -, -, b₁, b₂, raw, copy⟩ := (loads 3).1 loaded
    rw [Budget.eq_booking_of_book raw.booked] at copy
    cases copy.booked
  · obtain ⟨-, -, -, empty⟩ := Sample.tidy_arrayImage.load_arrays Sample.arrayLayout 0x1035
      .nonBlocking (within 35)
    refine empty 0x1034 0x85 ⟨1, by decide +kernel⟩ (Sample.ok_of_toOption (by decide +kernel)) rfl
      (Sample.ok_of_toOption (by decide +kernel)) _ rfl rfl

end Postmortem
