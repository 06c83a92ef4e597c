import Postmortem.Proofs.Memory.ByteMap

/-! # Reads in parts

A read of an image goes on in a segment up to its end, even where another segment begins inside of
it, and a read that starts there is served by the other segment. So it can matter where a range is
cut.

* The first part of what is read can be read by itself, in every image (`Image.take_of_collect?`).
* A range in sight can be cut anywhere (`Image.collect?_add_eq_some_iff`).
* A segment is read from its base on as a whole (`Image.read_of_mem`), which shows each of its bytes
  if the read can be cut before it.

`Image.reads_split_iff` puts the last two together: reads can be split anywhere if and only if no
byte is hidden. An empty segment is enough to hide the rest of the one that it begins in
(`Image.not_reads_split`). -/

namespace Postmortem

namespace Image

variable {image : Image}

/-! ## The first part -/

/-- **The first part of what is read can be read by itself,** wherever the range is cut. -/
theorem take_of_collect? {address n m : Nat} {bytes : List UInt8}
    (collected : image.collect? address (n + m) = some bytes) :
    image.collect? address n = some (bytes.take n) := by
  fun_induction collect? image address n generalizing bytes with
  | case1 => rw [List.take_zero]
  | case2 address n more unmapped =>
    rw [collect?, if_neg (by omega)] at collected
    split at collected
    · cases collected
    · rename_i mapped
      have first := take_fragment image address n m
      rw [unmapped, List.take_eq_nil_iff] at first
      exact absurd (first.resolve_left more) mapped
  | case3 address n more mapped part =>
    rename_i ih
    have first : (image.fragment address (n + m)).take n = part := take_fragment image address n m
    have mapped' : image.fragment address (n + m) ≠ [] := by
      intro unmapped
      rw [unmapped, List.take_nil] at first
      exact mapped first.symm
    rw [collect?, if_neg (by omega), if_neg mapped'] at collected
    obtain ⟨rest, gathered, rfl⟩ := Option.map_eq_some_iff.1 collected
    rcases Nat.le_total (image.fragment address (n + m)).length n with short | long
    · -- The cut comes after this segment's bytes, so both reads go on behind them.
      rw [List.take_of_length_le short] at first
      rw [first] at gathered short
      rw [Nat.sub_add_comm short] at gathered
      rw [ih gathered, first, List.take_append, List.take_of_length_le short]
      rfl
    · have whole : part.length = n := by rw [← first, List.length_take, Nat.min_eq_left long]
      rw [whole, Nat.sub_self, collect?, if_pos rfl, List.take_append_of_le_length long, first]
      simp

/-! ## Ranges in sight -/

/-- A range in sight can be cut anywhere. -/
theorem collect?_add_eq_some_iff {address n m : Nat} {bytes : List UInt8}
    (shown : ∀ i < n + m, image.Shows (address + i)) :
    image.collect? address (n + m) = some bytes ↔
      ∃ first second, image.collect? address n = some first ∧
        image.collect? (address + n) m = some second ∧ bytes = first ++ second := by
  have shown₁ : ∀ i < n, image.Shows (address + i) := fun i inside => shown i (by omega)
  have shown₂ : ∀ i < m, image.Shows (address + n + i) := fun i inside => by
    rw [Nat.add_assoc]
    exact shown (n + i) (by omega)
  simp only [collect?_eq_some_iff shown, collect?_eq_some_iff shown₁, collect?_eq_some_iff shown₂]
  constructor
  · rintro ⟨whole, mapped⟩
    refine ⟨bytes.take n, bytes.drop n, ⟨?_, fun i byte here => ?_⟩, ⟨?_, fun i byte here => ?_⟩,
      (List.take_append_drop n bytes).symm⟩
    · rw [List.length_take]
      omega
    · rw [List.getElem?_take] at here
      split at here
      · exact mapped i byte here
      · cases here
    · rw [List.length_drop]
      omega
    · rw [List.getElem?_drop] at here
      rw [Nat.add_assoc]
      exact mapped (n + i) byte here
  · rintro ⟨first, second, ⟨rfl, mapped₁⟩, ⟨rfl, mapped₂⟩, rfl⟩
    refine ⟨List.length_append, fun i byte here => ?_⟩
    rcases Nat.lt_or_ge i first.length with inFirst | inSecond
    · exact mapped₁ i byte (by rwa [List.getElem?_append_left inFirst] at here)
    · rw [List.getElem?_append_right inSecond] at here
      have later := mapped₂ _ byte here
      rwa [Nat.add_assoc, Nat.add_sub_cancel' inSecond] at later

/-! ## Whole segments -/

/-- At its base a segment is the one that a read looks for. -/
theorem find?_base {s : Segment} (mem : s ∈ image.segments) :
    image.segments.find? (·.base.toNat ≤ s.base.toNat) = some s := by
  obtain ⟨before, after, parts⟩ := List.append_of_mem mem
  refine List.find?_eq_some_iff_append.2 ⟨by simp, before, after, parts, fun t earlier => ?_⟩
  have ordered := image.ordered
  rw [parts, List.pairwise_append] at ordered
  have greater := UInt64.lt_iff_toNat_lt.1 (ordered.2.2 t earlier s List.mem_cons_self)
  simpa using greater

/-- **A segment is read from its base on,** whatever begins inside of it. -/
theorem read_of_mem {s : Segment} (mem : s ∈ image.segments) {length : Nat}
    (inside : length ≤ s.bytes.size) (inSpace : s.base.toNat + length ≤ Word.top) :
    image.read s.base length = .ok (s.bytes.toList.take length) := by
  rw [read_of_segment (find?_base mem) (by omega) inSpace, Nat.sub_self, List.drop_zero]

/-- **Reads can be split anywhere if and only if no byte is hidden.** In every image the first part
of what is read can be read by itself. The second part can, and two parts one after the other are
read if and only if the whole is, for all ranges in the address space, exactly where each byte that
some segment has is what is read at its address. -/
theorem reads_split_iff (image : Image) :
    (∀ (address : Word) (n m : Nat) (bytes : List UInt8), image.read address (n + m) = .ok bytes →
      image.read address n = .ok (bytes.take n)) ∧
    ((∀ (address middle : Word) (n m : Nat), middle.toNat = address.toNat + n →
        middle.toNat + m ≤ Word.top → ∀ bytes,
        (image.read address (n + m) = .ok bytes ↔
          ∃ first second, image.read address n = .ok first ∧ image.read middle m = .ok second ∧
            bytes = first ++ second)) ↔
      ∀ (address : Word) (byte : UInt8), address.toNat < Word.top →
        image.Maps address.toNat byte → image.read address 1 = .ok [byte]) := by
  refine ⟨fun address n m bytes read => ?first, fun splits address byte below has => ?shows,
    fun shows address middle n m here inSpace bytes => ?splits⟩
  case first =>
    obtain ⟨inSpace, collected⟩ := read_eq_ok_iff.1 read
    exact read_eq_ok_iff.2 ⟨by omega, take_of_collect? collected⟩
  case shows =>
    obtain ⟨s, mem, has⟩ := has
    obtain ⟨above, inside⟩ := s.bounds_of_byte? has
    obtain ⟨k, reached⟩ := Nat.exists_eq_add_of_le above
    rw [s.byte?_of_le above, reached, Nat.add_sub_cancel_left, ← Array.getElem?_toList] at has
    -- The segment up to the byte and the byte are two parts of one read.
    have whole : image.read s.base (k + 1) = .ok (s.bytes.toList.take (k + 1)) :=
      read_of_mem mem (by omega) (by omega)
    have before : image.read s.base k = .ok (s.bytes.toList.take k) :=
      read_of_mem mem (by omega) (by omega)
    obtain ⟨first, second, read₁, read₂, parts⟩ :=
      (splits s.base address k 1 reached (by omega) _).1 whole
    rw [before] at read₁
    cases read₁
    rw [List.take_add_one, has, List.append_cancel_left_eq] at parts
    rw [read₂, ← parts]
    rfl
  case splits =>
    rw [here] at inSpace
    have shown (i : Nat) (inside : i < n + m) : image.Shows (address.toNat + i) := by
      intro byte has
      have below : address.toNat + i < Word.top := by omega
      have word : (UInt64.ofNat (address.toNat + i)).toNat = address.toNat + i :=
        UInt64.toNat_ofNat_of_lt (Nat.lt_trans below (by decide))
      rw [← word] at below has ⊢
      exact (read_eq_ok_iff.1 (shows _ byte below has)).2
    have whole : address.toNat + (n + m) ≤ Word.top := by rwa [← Nat.add_assoc]
    have before : address.toNat + n ≤ Word.top := by omega
    simp only [read_eq_ok_iff, whole, before, inSpace, true_and, collect?_add_eq_some_iff shown,
      here]

end Image

/-! ## Samples -/

namespace Sample

/-- Two segments that overlap and agree. -/
def agreeing : Image := (Image.empty.map 0x1000 #[1, 2, 3, 4]).map 0x1002 #[3, 4, 5]

/-- A segment in which an empty one begins. -/
def shadowed : Image := (Image.empty.map 0x1000 #[0, 1, 2, 3]).map 0x1002 #[]

theorem read_agreeing {address : Word} {byte : UInt8}
    (has : agreeing.Maps address.toNat byte) : agreeing.read address 1 = .ok [byte] := by
  obtain ⟨s, mem, has⟩ := has
  obtain ⟨above, below⟩ := s.bounds_of_byte? has
  have within : ∀ s ∈ agreeing.segments,
      0x1000 ≤ s.base.toNat ∧ s.base.toNat + s.bytes.size ≤ 0x1005 := by decide
  have range := within s mem
  obtain ⟨k, reached⟩ := Nat.exists_eq_add_of_le (Nat.le_trans range.1 above)
  have shown : ∀ k < 5, ∀ s ∈ agreeing.segments, (s.byte? (0x1000 + k)).all fun byte =>
      agreeing.collect? (0x1000 + k) 1 = some [byte] := by decide +kernel
  have here := shown k (by omega) s mem
  rw [← reached, has] at here
  refine Image.read_eq_ok_iff.2 ⟨?_, of_decide_eq_true here⟩
  have top : Word.top = 0xffffffffffffffff := rfl
  omega

end Sample

/-- Where overlapping segments agree, reads can be split, and so put together. -/
theorem Image.reads_split_agreeing :
    (∃ s ∈ Sample.agreeing.segments, ∃ t ∈ Sample.agreeing.segments, s ≠ t ∧ ¬ s.Apart t) ∧
    (∀ (address : Word) (byte : UInt8), address.toNat < Word.top →
      Sample.agreeing.Maps address.toNat byte → Sample.agreeing.read address 1 = .ok [byte]) ∧
    Sample.agreeing.read 0x1001 2 = .ok [2, 3] ∧ Sample.agreeing.read 0x1003 2 = .ok [4, 5] ∧
    Sample.agreeing.read 0x1001 4 = .ok [2, 3, 4, 5] ∧
    Sample.agreeing.read 0x1001 3 = .ok [2, 3, 4] := by
  have shows (address : Word) (byte : UInt8) (_ : address.toNat < Word.top)
      (has : Sample.agreeing.Maps address.toNat byte) :
      Sample.agreeing.read address 1 = .ok [byte] := Sample.read_agreeing has
  have first : Sample.agreeing.read 0x1001 2 = .ok [2, 3] :=
    Image.read_eq_ok_iff.2 ⟨by decide, by decide +kernel⟩
  have second : Sample.agreeing.read 0x1003 2 = .ok [4, 5] :=
    Image.read_eq_ok_iff.2 ⟨by decide, by decide +kernel⟩
  obtain ⟨begins, splits⟩ := Image.reads_split_iff Sample.agreeing
  have whole : Sample.agreeing.read 0x1001 4 = .ok [2, 3, 4, 5] :=
    (splits.2 shows 0x1001 0x1003 2 2 rfl (by decide) _).2 ⟨_, _, first, second, rfl⟩
  exact ⟨by decide, shows, first, second, whole, begins 0x1001 3 1 _ whole⟩

/-- Four bytes are read at once, and the last two of them not by themselves. -/
theorem Image.not_reads_split :
    ¬ ∀ (image : Image) (address middle : Word) (n m : Nat), middle.toNat = address.toNat + n →
      middle.toNat + m ≤ Word.top → ∀ bytes,
      (image.read address (n + m) = .ok bytes ↔
        ∃ first second, image.read address n = .ok first ∧ image.read middle m = .ok second ∧
          bytes = first ++ second) := by
  intro splits
  have mem : ⟨0x1000, #[0, 1, 2, 3]⟩ ∈ Sample.shadowed.segments := by decide
  have whole : Sample.shadowed.read 0x1000 (2 + 2) = .ok [0, 1, 2, 3] :=
    Image.read_of_mem mem (by decide) (by decide)
  have gap : Sample.shadowed.collect? (0x1002 : Word).toNat 2 = none := by
    rw [Image.collect?, if_neg (by decide), if_pos (by decide)]
  have hidden : Sample.shadowed.read 0x1002 2 = .error (.unmapped 0x1002 2) :=
    Image.read_eq_unmapped (by decide) gap
  obtain ⟨first, second, -, read, -⟩ := (splits _ 0x1000 0x1002 2 2 rfl (by decide) _).1 whole
  rw [hidden] at read
  cases read

end Postmortem
