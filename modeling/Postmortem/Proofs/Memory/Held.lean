import Postmortem.HeapString.Basic
import Postmortem.Memory.Image

/-! # Bytes and characters in memory

`Snapshot.HoldsBytes` says that bytes lie in the target's memory from an address on, and
`Snapshot.HoldsUnits` that characters do. Either way any piece can be read.

* An image holds the bytes of a segment, as far as no other segment begins in them
  (`Image.read_of_segment`, `holdsBytes_of_segment`).
* Memory that holds the bytes of characters holds the characters (`Snapshot.HoldsBytes.units`). -/

namespace Postmortem

theorem toNat_of_advance? {w address : Word} {n : Nat} (h : w.advance? n = some address) :
    address.toNat = w.toNat + n := by
  unfold Word.advance? at h
  split at h
  · rename_i fits
    cases h
    exact UInt64.toNat_ofNat_of_lt (Nat.lt_of_le_of_lt fits (by decide))
  · cases h

namespace Snapshot

variable (s : Snapshot)

/-- The bytes lie in memory from `base` on. -/
def HoldsBytes (base : Word) (bytes : List UInt8) : Prop :=
  ∀ start count, 0 < count → start + count ≤ bytes.length →
    ∃ address, base.advance? start = some address ∧
      s.readBytes address count = .ok ((bytes.drop start).take count)

/-- Characters of the given width lie in memory from `base` on. -/
def HoldsUnits (e : Encoding) (base : Word) (units : List UInt16) : Prop :=
  ∀ start count, 0 < count → start + count ≤ units.length →
    ∃ address bytes, base.advance? (start * e.width) = some address ∧
      s.readBytes address (count * e.width) = .ok bytes ∧
      e.units bytes = (units.drop start).take count

end Snapshot

/-! ## Bytes of an image -/

namespace Image

variable {image : Image} {segment : Segment} {address length : Nat}

theorem fragment_of_segment (found : image.segments.find? (·.base.toNat ≤ address) = some segment) :
    image.fragment address length =
      (segment.bytes.toList.drop (address - segment.base.toNat)).take length := by
  have window :
      address - segment.base.toNat + length - (address - segment.base.toNat) = length := by
    omega
  simp only [fragment, found, Array.toList_extract, List.extract_eq_take_drop, window]

theorem collect?_of_segment (found : image.segments.find? (·.base.toNat ≤ address) = some segment)
    (inside : address + length ≤ segment.base.toNat + segment.bytes.size) :
    image.collect? address length =
      some ((segment.bytes.toList.drop (address - segment.base.toNat)).take length) := by
  have above : segment.base.toNat ≤ address := by simpa using List.find?_some found
  have whole : (image.fragment address length).length = length := by
    rw [fragment_of_segment found, List.length_take, List.length_drop, Array.length_toList]
    omega
  rw [collect?]
  split
  · rename_i noBytes
    rw [noBytes, List.take_zero]
  · rename_i more
    have mapped : image.fragment address length ≠ [] := fun empty => by
      rw [empty] at whole
      exact more whole.symm
    rw [if_neg mapped]
    -- The fragment is all that was asked for, so nothing is left to collect.
    simp only [whole, Nat.sub_self]
    rw [collect?, if_pos rfl, fragment_of_segment found]
    simp

theorem read_of_segment {address : Word}
    (found : image.segments.find? (·.base.toNat ≤ address.toNat) = some segment)
    (inside : address.toNat + length ≤ segment.base.toNat + segment.bytes.size)
    (inSpace : address.toNat + length ≤ Word.top) :
    image.read address length =
      .ok ((segment.bytes.toList.drop (address.toNat - segment.base.toNat)).take length) := by
  rw [read, if_neg (Nat.not_lt.2 inSpace), collect?_of_segment found inside]

end Image

/-- **An image holds the bytes of a segment,** those from an address on that no other segment
covers. -/
theorem holdsBytes_of_segment {image : Image} {layout : Layout} {segment : Segment} {base : Word}
    {bytes : List UInt8} {offset : Nat}
    (here : base.toNat = segment.base.toNat + offset)
    (found : ∀ start, start < bytes.length →
      image.segments.find? (·.base.toNat ≤ base.toNat + start) = some segment)
    (same : (segment.bytes.toList.drop offset).take bytes.length = bytes)
    (inSpace : base.toNat + bytes.length ≤ Word.top) :
    Snapshot.HoldsBytes ⟨image.memory, layout⟩ base bytes := by
  intro start count pos range
  have covers : offset + bytes.length ≤ segment.bytes.size := by
    have size : segment.bytes.toList.length = segment.bytes.size := Array.length_toList
    have := congrArg List.length same
    rw [List.length_take, List.length_drop, size] at this
    omega
  have reached : base.toNat + start ≤ Word.top := by omega
  have address : (UInt64.ofNat (base.toNat + start)).toNat = base.toNat + start :=
    UInt64.toNat_ofNat_of_lt (Nat.lt_of_le_of_lt reached (by decide))
  refine ⟨UInt64.ofNat (base.toNat + start), if_pos reached, ?_⟩
  have here' : image.segments.find?
      (·.base.toNat ≤ (UInt64.ofNat (base.toNat + start)).toNat) = some segment := by
    rw [address]
    exact found start (by omega)
  have read : image.read (UInt64.ofNat (base.toNat + start)) count = _ :=
    Image.read_of_segment here' (by rw [address]; omega) (by rw [address]; omega)
  have piece : (segment.bytes.toList.drop (base.toNat + start - segment.base.toNat)).take count =
      (bytes.drop start).take count := by
    have skipped : base.toNat + start - segment.base.toNat = offset + start := by omega
    have short : min count (bytes.length - start) = count := by omega
    conv => rhs; rw [← same]
    rw [List.drop_take, List.take_take, List.drop_drop, skipped, short]
  rw [address, piece] at read
  simp only [Snapshot.readBytes, Image.memory, read]

/-! ## Characters -/

namespace Encoding

theorem length_units (e : Encoding) {bytes : List UInt8} {count : Nat}
    (h : bytes.length = count * e.width) : (e.units bytes).length = count := by
  cases e with
  | oneByte => rw [units, List.length_map, h, width, Nat.mul_one]
  | twoByte =>
    induction count generalizing bytes with
    | zero =>
      have empty : bytes = [] := List.eq_nil_of_length_eq_zero (by simpa using h)
      rw [empty]
      rfl
    | succ count ih =>
      match bytes with
      | low :: high :: rest =>
        simp only [List.length_cons, width] at h
        rw [units, List.length_cons, ih (by rw [width]; omega)]
      | [] | [_] => simp only [List.length_cons, List.length_nil, width] at h; omega

theorem units_drop (e : Encoding) (bytes : List UInt8) (start : Nat) :
    e.units (bytes.drop (start * e.width)) = (e.units bytes).drop start := by
  cases e with
  | oneByte => rw [width, Nat.mul_one, units, units, List.map_drop]
  | twoByte =>
    induction start generalizing bytes with
    | zero => simp
    | succ start ih =>
      match bytes with
      | low :: high :: rest =>
        rw [units, List.drop_succ_cons, ← ih rest, Nat.succ_mul]
        rfl
      | [] | [_] => simp [units, width, Nat.succ_mul]

theorem units_take (e : Encoding) (bytes : List UInt8) (count : Nat) :
    e.units (bytes.take (count * e.width)) = (e.units bytes).take count := by
  cases e with
  | oneByte => rw [width, Nat.mul_one, units, units, List.map_take]
  | twoByte =>
    induction count generalizing bytes with
    | zero => simp [units]
    | succ count ih =>
      match bytes with
      | low :: high :: rest =>
        rw [units, List.take_succ_cons, ← ih rest, Nat.succ_mul]
        rfl
      | [] | [_] => simp [units, width, Nat.succ_mul]

end Encoding

/-- Memory that holds the bytes of characters holds the characters. -/
theorem Snapshot.HoldsBytes.units {s : Snapshot} {base : Word} {bytes : List UInt8}
    (held : s.HoldsBytes base bytes) (e : Encoding) {length : Nat}
    (whole : bytes.length = length * e.width) : s.HoldsUnits e base (e.units bytes) := by
  intro start count pos range
  rw [e.length_units whole] at range
  have scaled := Nat.mul_le_mul_right e.width range
  rw [Nat.add_mul] at scaled
  obtain ⟨address, found, read⟩ := held (start * e.width) (count * e.width)
    (Nat.mul_pos pos e.width_pos) (by omega)
  refine ⟨address, _, found, read, ?_⟩
  rw [e.units_take, e.units_drop]

end Postmortem
