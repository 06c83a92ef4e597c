import Postmortem.Proofs.Memory.Held
import Postmortem.Proofs.Session.Effects

/-! # The byte map of an image

`Image.Maps` says which byte an image has at an address, whatever segment that lies in. Where no
segment is empty and no two overlap (`Image.Tidy`), the byte map is all that shows.

* The segment with the greatest base that is not beyond an address is the only one that can have a
  byte there (`Image.Tidy.find?_eq`), at the borders of segments as well, so no byte is hidden from
  reads (`Image.Shows`, `Image.Tidy.shows`).
* Where none is hidden, a read gives the bytes of its range, or there is a gap in it
  (`Image.collect?_eq_some_iff`).
* Two images with one byte map are the same memory (`Image.Tidy.memory_eq`), and everything that is
  decoded from them is the same (`Image.Tidy.read_byteMap`). -/

namespace Postmortem

namespace Segment

/-- The byte of a segment at an address. -/
def byte? (s : Segment) (address : Nat) : Option UInt8 :=
  if s.base.toNat ≤ address then s.bytes[address - s.base.toNat]? else none

/-- One of the segments ends before the other one begins. -/
def Apart (s t : Segment) : Prop :=
  s.base.toNat + s.bytes.size ≤ t.base.toNat ∨ t.base.toNat + t.bytes.size ≤ s.base.toNat

instance (s t : Segment) : Decidable (s.Apart t) := inferInstanceAs (Decidable (_ ∨ _))

theorem byte?_of_le {s : Segment} {address : Nat} (above : s.base.toNat ≤ address) :
    s.byte? address = s.bytes[address - s.base.toNat]? :=
  if_pos above

theorem bounds_of_byte? {s : Segment} {address : Nat} {byte : UInt8}
    (has : s.byte? address = some byte) :
    s.base.toNat ≤ address ∧ address < s.base.toNat + s.bytes.size := by
  unfold byte? at has
  split at has
  · rename_i above
    obtain ⟨inside, -⟩ := Array.getElem?_eq_some_iff.1 has
    omega
  · cases has

/-- A segment that is cut in two has the bytes of both parts. -/
theorem byte?_append {base middle : Word} {bytes more : Array UInt8}
    (cut : middle.toNat = base.toNat + bytes.size) (address : Nat) (byte : UInt8) :
    byte? ⟨base, bytes ++ more⟩ address = some byte ↔
      byte? ⟨base, bytes⟩ address = some byte ∨ byte? ⟨middle, more⟩ address = some byte := by
  unfold byte?
  by_cases above : base.toNat ≤ address
  · by_cases first : address - base.toNat < bytes.size
    · have before : ¬ middle.toNat ≤ address := by omega
      simp [above, before, Array.getElem?_append_left first]
    · have after : middle.toNat ≤ address := by omega
      have offset : address - base.toNat - bytes.size = address - middle.toNat := by omega
      simp [above, after, Array.getElem?_append_right (Nat.le_of_not_lt first), offset,
        Array.getElem?_eq_none (Nat.le_of_not_lt first)]
  · have before : ¬ middle.toNat ≤ address := by omega
    simp [above, before]

end Segment

namespace Image

/-- Some segment of the image has the byte at the address. -/
def Maps (image : Image) (address : Nat) (byte : UInt8) : Prop :=
  ∃ s ∈ image.segments, s.byte? address = some byte

/-- No segment is empty, and no two overlap. -/
structure Tidy (image : Image) : Prop where
  nonempty : ∀ s ∈ image.segments, 0 < s.bytes.size
  apart : image.segments.Pairwise Segment.Apart

variable {image image' : Image}

/-! ## Segments -/

/-- **The only segment that can have a byte at an address** is the one that a read looks for. -/
theorem Tidy.find?_eq (tidy : image.Tidy) {s : Segment} (mem : s ∈ image.segments) {address : Nat}
    (above : s.base.toNat ≤ address) (below : address < s.base.toNat + s.bytes.size) :
    image.segments.find? (·.base.toNat ≤ address) = some s := by
  cases found : image.segments.find? (·.base.toNat ≤ address) with
  | none => exact absurd above (by simpa using List.find?_eq_none.1 found s mem)
  | some t =>
    obtain ⟨reached, before, after, parts, beyond⟩ := List.find?_eq_some_iff_append.1 found
    have pairs := List.pairwise_append.1 (parts ▸ image.ordered.and tidy.apart)
    rw [parts, List.mem_append, List.mem_cons] at mem
    rcases mem with mem | rfl | mem
    · exact absurd above (by simpa using beyond s mem)
    · rfl
    · -- The segment found begins in the other one and is not empty, so the two overlap.
      have ⟨lower, apart⟩ := (List.pairwise_cons.1 pairs.2.1).1 s mem
      have size := tidy.nonempty t (parts ▸ List.mem_append_right before List.mem_cons_self)
      have reached : t.base.toNat ≤ address := by simpa using reached
      rw [UInt64.lt_iff_toNat_lt] at lower
      unfold Segment.Apart at apart
      omega

/-! ## Fragments -/

theorem take_fragment (image : Image) (address n m : Nat) :
    (image.fragment address (n + m)).take n = image.fragment address n := by
  cases found : image.segments.find? (·.base.toNat ≤ address) with
  | none => simp [fragment, found]
  | some s =>
    rw [fragment_of_segment found, fragment_of_segment found, List.take_take,
      Nat.min_eq_left (Nat.le_add_right n m)]

theorem maps_of_fragment {address limit i : Nat} {byte : UInt8}
    (here : (image.fragment address limit)[i]? = some byte) : image.Maps (address + i) byte := by
  cases found : image.segments.find? (·.base.toNat ≤ address) with
  | none => simp [fragment, found] at here
  | some s =>
    have above : s.base.toNat ≤ address := by simpa using List.find?_some found
    rw [fragment_of_segment found, List.getElem?_take] at here
    split at here
    · refine ⟨s, List.mem_of_find?_eq_some found, ?_⟩
      have offset : address + i - s.base.toNat = address - s.base.toNat + i := by omega
      rw [s.byte?_of_le (by omega), offset]
      simpa [List.getElem?_drop] using here
    · cases here

/-! ## What is in sight -/

/-- A byte that some segment has at the address is the one that is read there. -/
def Shows (image : Image) (address : Nat) : Prop :=
  ∀ byte, image.Maps address byte → image.collect? address 1 = some [byte]

theorem Shows.byte_unique {address : Nat} {byte byte' : UInt8} (shown : image.Shows address)
    (has : image.Maps address byte) (has' : image.Maps address byte') : byte = byte' := by
  have same := (shown byte has).symm.trans (shown byte' has')
  simpa using same

theorem Shows.fragment_ne_nil {address limit : Nat} {byte : UInt8} (shown : image.Shows address)
    (has : image.Maps address byte) (pos : 0 < limit) : image.fragment address limit ≠ [] := by
  intro empty
  obtain ⟨more, rfl⟩ := Nat.exists_eq_add_of_le pos
  have unmapped : image.fragment address 1 = [] := by
    rw [← take_fragment image address 1 more, empty, List.take_nil]
  have read := shown byte has
  rw [collect?, if_neg Nat.one_ne_zero, if_pos unmapped] at read
  cases read

theorem Tidy.shows (tidy : image.Tidy) (address : Nat) : image.Shows address := by
  rintro byte ⟨s, mem, has⟩
  obtain ⟨above, below⟩ := s.bounds_of_byte? has
  rw [s.byte?_of_le above] at has
  obtain ⟨inside, rfl⟩ := Array.getElem?_eq_some_iff.1 has
  rw [collect?_of_segment (tidy.find?_eq mem above below) below,
    List.drop_eq_getElem_cons (by simpa using inside), List.take_succ_cons, List.take_zero]
  rfl

theorem Tidy.byte_unique (tidy : image.Tidy) {address : Nat} {byte byte' : UInt8}
    (has : image.Maps address byte) (has' : image.Maps address byte') : byte = byte' :=
  (tidy.shows address).byte_unique has has'

/-! ## Ranges -/

/-- What is collected is mapped. -/
theorem maps_of_collect? {address length : Nat} {bytes : List UInt8}
    (collected : image.collect? address length = some bytes) {i : Nat} {byte : UInt8}
    (here : bytes[i]? = some byte) : image.Maps (address + i) byte := by
  fun_induction collect? image address length generalizing bytes i with
  | case1 =>
    cases collected
    cases here
  | case2 => cases collected
  | case3 address length _ _ part =>
    rename_i ih
    obtain ⟨rest, gathered, rfl⟩ := Option.map_eq_some_iff.1 collected
    by_cases first : i < part.length
    · exact maps_of_fragment (by rwa [List.getElem?_append_left first] at here)
    · rw [List.getElem?_append_right (Nat.le_of_not_lt first)] at here
      have later := ih gathered here
      rwa [Nat.add_assoc, Nat.add_sub_cancel' (Nat.le_of_not_lt first)] at later

/-- What is mapped and in sight can be collected, over as many segments as it takes. -/
theorem exists_collect? {address length : Nat} (shown : ∀ i < length, image.Shows (address + i))
    (mapped : ∀ i < length, ∃ byte, image.Maps (address + i) byte) :
    ∃ bytes, image.collect? address length = some bytes := by
  fun_induction collect? image address length with
  | case1 => exact ⟨[], rfl⟩
  | case2 address length more unmapped =>
    have pos := Nat.pos_of_ne_zero more
    obtain ⟨byte, has⟩ := mapped 0 pos
    exact absurd unmapped ((shown 0 pos).fragment_ne_nil has pos)
  | case3 address length _ _ part =>
    rename_i ih
    obtain ⟨rest, gathered⟩ := ih
      (fun i inside => by
        rw [Nat.add_assoc]
        exact shown (part.length + i) (by omega))
      (fun i inside => by
        rw [Nat.add_assoc]
        exact mapped (part.length + i) (by omega))
    exact ⟨part ++ rest, by rw [gathered]; rfl⟩

/-- **Of a range in sight the bytes are collected if the image maps each of them,** and no others
are. -/
theorem collect?_eq_some_iff {address length : Nat} {bytes : List UInt8}
    (shown : ∀ i < length, image.Shows (address + i)) :
    image.collect? address length = some bytes ↔
      bytes.length = length ∧ ∀ i byte, bytes[i]? = some byte → image.Maps (address + i) byte := by
  constructor
  · intro collected
    exact ⟨length_of_collect? collected, fun _ _ here => maps_of_collect? collected here⟩
  · rintro ⟨rfl, mapped⟩
    have all (i : Nat) (inside : i < bytes.length) : ∃ byte, image.Maps (address + i) byte :=
      ⟨bytes[i], mapped i _ (List.getElem?_eq_getElem inside)⟩
    obtain ⟨bytes', collected⟩ := exists_collect? shown all
    have same : bytes' = bytes := by
      refine List.ext_getElem (length_of_collect? collected) fun i inside' inside => ?_
      exact (shown i inside).byte_unique
        (maps_of_collect? collected (List.getElem?_eq_getElem inside'))
        (mapped i _ (List.getElem?_eq_getElem inside))
    rw [collected, same]

theorem Tidy.collect?_eq_some_iff (tidy : image.Tidy) {address length : Nat} {bytes : List UInt8} :
    image.collect? address length = some bytes ↔
      bytes.length = length ∧ ∀ i byte, bytes[i]? = some byte → image.Maps (address + i) byte :=
  Image.collect?_eq_some_iff fun i _ => tidy.shows (address + i)

/-! ## Reads -/

theorem read_eq_ok_iff {address : Word} {length : Nat} {bytes : List UInt8} :
    image.read address length = .ok bytes ↔
      address.toNat + length ≤ Word.top ∧ image.collect? address.toNat length = some bytes := by
  unfold read
  split
  · rename_i beyond
    exact iff_of_false (by simp) fun both => absurd both.1 (Nat.not_le.2 beyond)
  · rename_i inSpace
    rw [and_iff_right (Nat.le_of_not_lt inSpace)]
    cases image.collect? address.toNat length <;> simp

theorem Tidy.read_eq_ok_iff (tidy : image.Tidy) {address : Word} {length : Nat}
    {bytes : List UInt8} :
    image.read address length = .ok bytes ↔ address.toNat + length ≤ Word.top ∧
      bytes.length = length ∧
      ∀ i byte, bytes[i]? = some byte → image.Maps (address.toNat + i) byte := by
  rw [Image.read_eq_ok_iff, tidy.collect?_eq_some_iff]

theorem Tidy.exists_read_iff (tidy : image.Tidy) {address : Word} {length : Nat} :
    (∃ bytes, image.read address length = .ok bytes) ↔ address.toNat + length ≤ Word.top ∧
      ∀ i < length, ∃ byte, image.Maps (address.toNat + i) byte := by
  constructor
  · rintro ⟨bytes, read⟩
    obtain ⟨inSpace, rfl, mapped⟩ := tidy.read_eq_ok_iff.1 read
    exact ⟨inSpace, fun i inside => ⟨bytes[i], mapped i _ (List.getElem?_eq_getElem inside)⟩⟩
  · rintro ⟨inSpace, mapped⟩
    obtain ⟨bytes, collected⟩ := exists_collect? (fun i _ => tidy.shows _) mapped
    exact ⟨bytes, Image.read_eq_ok_iff.2 ⟨inSpace, collected⟩⟩

theorem read_eq_unmapped {address : Word} {length : Nat}
    (inSpace : address.toNat + length ≤ Word.top)
    (gap : image.collect? address.toNat length = none) :
    image.read address length = .error (.unmapped address length) := by
  rw [read, if_neg (Nat.not_lt.2 inSpace), gap]

/-- **Images with one byte map are the same memory.** -/
theorem Tidy.memory_eq (tidy : image.Tidy) (tidy' : image'.Tidy)
    (same : ∀ (address : Word) (byte : UInt8),
      image.Maps address.toNat byte ↔ image'.Maps address.toNat byte) :
    image.memory = image'.memory := by
  have reads : image.read = image'.read := by
    funext address length
    unfold read
    split
    · rfl
    · rename_i inSpace
      have collected :
          image.collect? address.toNat length = image'.collect? address.toNat length := by
        refine Option.ext fun bytes => ?_
        rw [tidy.collect?_eq_some_iff, tidy'.collect?_eq_some_iff]
        refine and_congr_right fun whole => forall₂_congr fun i byte => ?_
        refine imp_congr_right fun here => ?_
        obtain ⟨inside, -⟩ := List.getElem?_eq_some_iff.1 here
        have inWord : address.toNat + i < 2 ^ 64 :=
          Nat.lt_of_le_of_lt (m := Word.top) (by omega) (by decide)
        have word : (UInt64.ofNat (address.toNat + i)).toNat = address.toNat + i :=
          UInt64.toNat_ofNat_of_lt inWord
        rw [← word]
        exact same _ byte
      rw [collected]
  simp only [memory, reads]

/-- **The byte map of an image is all that shows.** No segment of it is empty and no two overlap. A
read of a range in the address space succeeds if and only if each byte of the range is mapped. It
gives just the bytes that are mapped there, over however many segments, and otherwise it fails and
names the range. An empty read always succeeds. Any other such image with the same byte map gives
the same answer to every read, and to every command of a session after any commands before. -/
theorem Tidy.read_byteMap (tidy : image.Tidy) :
    (∀ (address : Word) (length : Nat), address.toNat + length ≤ Word.top →
      ((∃ bytes, image.read address length = .ok bytes) ↔
        ∀ i < length, ∃ byte, image.Maps (address.toNat + i) byte) ∧
      (∀ bytes, image.read address length = .ok bytes → bytes.length = length ∧
        ∀ i < length, ∀ byte, bytes[i]? = some byte ↔ image.Maps (address.toNat + i) byte) ∧
      (¬ (∀ i < length, ∃ byte, image.Maps (address.toNat + i) byte) →
        image.read address length = .error (.unmapped address length))) ∧
    (∀ address, image.read address 0 = .ok []) ∧
    ∀ image' : Image, image'.Tidy →
      (∀ (address : Word) (byte : UInt8),
        image.Maps address.toNat byte ↔ image'.Maps address.toNat byte) →
      (∀ address length, image.read address length = image'.read address length) ∧
      ∀ (layout : Layout) (budget : Budget) (commands : List ((α : Type) × Command α)) {α : Type}
        (c : Command α),
        let begun (image : Image) : Session := { snapshot := ⟨image.memory, layout⟩, budget }
        ((begun image).runAll commands).run c = ((begun image').runAll commands).run c := by
  refine ⟨fun address length inSpace => ?_, fun address => ?_, fun image' tidy' same => ?_⟩
  · refine ⟨⟨fun read => ?_, fun all => ?_⟩, fun bytes read => ?_, fun gap => ?_⟩
    · exact (tidy.exists_read_iff.1 read).2
    · exact tidy.exists_read_iff.2 ⟨inSpace, all⟩
    · obtain ⟨-, rfl, mapped⟩ := tidy.read_eq_ok_iff.1 read
      refine ⟨rfl, fun i inside byte => ⟨mapped i byte, fun has => ?_⟩⟩
      have here : bytes[i]? = some bytes[i] := List.getElem?_eq_getElem inside
      rw [here, tidy.byte_unique (mapped i _ here) has]
    · refine read_eq_unmapped inSpace ?_
      refine Option.eq_none_iff_forall_ne_some.2 fun bytes collected => ?_
      exact gap (tidy.exists_read_iff.1 ⟨bytes, Image.read_eq_ok_iff.2 ⟨inSpace, collected⟩⟩).2
  · have collected : image.collect? address.toNat 0 = some [] := by rw [collect?, if_pos rfl]
    exact Image.read_eq_ok_iff.2 ⟨Word.toNat_le_top address, collected⟩
  · have memory := tidy.memory_eq tidy' same
    refine ⟨fun address length => ?_, fun layout budget commands α c => ?_⟩
    · exact congrFun (congrFun (congrArg Memory.read memory) address) length
    · simp only [memory]

end Image

/-! ## A sample

The same four bytes in two segments and in one. -/

namespace Sample

/-- The bytes in two segments. -/
def inTwo : Image := (Image.empty.map 0x1000 #[1, 2]).map 0x1002 #[3, 4]

/-- The bytes in one segment. -/
def inOne : Image := Image.empty.map 0x1000 #[1, 2, 3, 4]

theorem tidy_inTwo : inTwo.Tidy := ⟨by decide, by decide⟩

theorem tidy_inOne : inOne.Tidy := ⟨by decide, by decide⟩

theorem maps_inOne_iff (address : Nat) (byte : UInt8) :
    inOne.Maps address byte ↔ inTwo.Maps address byte := by
  have one : inOne.segments = [⟨0x1000, #[1, 2] ++ #[3, 4]⟩] := rfl
  have two : inTwo.segments = [⟨0x1002, #[3, 4]⟩, ⟨0x1000, #[1, 2]⟩] := rfl
  have cut : (0x1002 : Word).toNat = (0x1000 : Word).toNat + (#[1, 2] : Array UInt8).size := rfl
  simp only [Image.Maps, one, two, List.mem_cons, List.not_mem_nil, or_false, exists_eq_left,
    exists_eq_or_imp, Segment.byte?_append cut]
  exact or_comm

end Sample

/-- In two segments or in one, the bytes are read across the border, and not beyond the end. -/
theorem Image.read_inTwo :
    Sample.inTwo.Tidy ∧ Sample.inOne.Tidy ∧
    (∀ (address : Word) (byte : UInt8),
      Sample.inTwo.Maps address.toNat byte ↔ Sample.inOne.Maps address.toNat byte) ∧
    Sample.inOne.read 0x1001 2 = .ok [2, 3] ∧
    Sample.inTwo.read 0x1001 2 = .ok [2, 3] ∧
    Sample.inTwo.read 0x1003 2 = .error (.unmapped 0x1003 2) := by
  have same (address : Word) (byte : UInt8) :
      Sample.inTwo.Maps address.toNat byte ↔ Sample.inOne.Maps address.toNat byte :=
    (Sample.maps_inOne_iff address.toNat byte).symm
  obtain ⟨ranges, -, alike⟩ := Sample.tidy_inTwo.read_byteMap
  have found : Sample.inOne.segments.find? (·.base.toNat ≤ (0x1001 : Word).toNat) =
      some ⟨0x1000, #[1, 2, 3, 4]⟩ := rfl
  have whole : Sample.inOne.read 0x1001 2 = .ok [2, 3] :=
    Image.read_of_segment found (by decide) (by decide)
  refine ⟨Sample.tidy_inTwo, Sample.tidy_inOne, same, whole, ?_, ?_⟩
  · rw [(alike Sample.inOne Sample.tidy_inOne same).1, whole]
  · refine (ranges 0x1003 2 (by decide)).2.2 fun mapped => ?_
    obtain ⟨byte, s, mem, has⟩ := mapped 1 (by decide)
    have below : 0x1003 + 1 < s.base.toNat + s.bytes.size := (Segment.bounds_of_byte? has).2
    have ends : ∀ s ∈ Sample.inTwo.segments, s.base.toNat + s.bytes.size ≤ 0x1004 := by decide
    exact absurd below (Nat.not_lt.2 (ends s mem))

end Postmortem
