import Postmortem.HeapString.Transcript
import Postmortem.Proofs.HeapString.Loaded
import Postmortem.Proofs.Memory.Held

/-! # Trees of strings

A heap string with its components is a `StringTree`: the text is that of the leaves, with slices
taken. `HeapString.Holds` says that a header stands for a tree in a snapshot: headers and characters
can be read, the length of a concatenation is that of its halves, and a slice ends within its
parent. Strings may share components; a tree has a copy for each use.

* A header is as long as the tree it stands for (`HeapString.Holds.length_units`).
* `StringTree.pieces` divides a range of the text among the leaves (`StringTree.flatMap_pieces`).
* `Sample.holds_joined` has an example with all kinds of strings. -/

namespace Postmortem

/-- A string with its components. -/
inductive StringTree where
  | sequential (units : List UInt16)
  | external (units : List UInt16)
  | concatenated (first second : StringTree)
  | sliced (parent : StringTree) (offset length : Nat)
  deriving DecidableEq, Repr

/-- What a leaf has of a range of characters. -/
structure Piece where
  /-- Whether the leaf is an external string. -/
  external : Bool
  units : List UInt16
  deriving DecidableEq, Repr

namespace StringTree

/-- The characters of the flattened string. -/
def units : StringTree → List UInt16
  | .sequential units | .external units => units
  | .concatenated first second => first.units ++ second.units
  | .sliced parent offset length => (parent.units.drop offset).take length

/-- How deep the leaves are nested. -/
def height : StringTree → Nat
  | .sequential _ | .external _ => 0
  | .concatenated first second => max first.height second.height + 1
  | .sliced parent _ _ => parent.height + 1

/-- Whether all leaves are sequential strings. -/
def SequentialLeaves : StringTree → Prop
  | .sequential _ => True
  | .external _ => False
  | .concatenated first second => first.SequentialLeaves ∧ second.SequentialLeaves
  | .sliced parent _ _ => parent.SequentialLeaves

/-! ## Pieces -/

/-- The leaves that a range of characters comes from, each with its part of the range. -/
def pieces : StringTree → (start length : Nat) → List Piece
  | .sequential units, start, length => [⟨false, (units.drop start).take length⟩]
  | .external units, start, length => [⟨true, (units.drop start).take length⟩]
  | .concatenated first second, start, length =>
    let split := first.units.length
    let stop := start + length
    (if start < split then first.pieces start (min length (split - start)) else []) ++
      (if split < stop then second.pieces (start - split) (stop - max split start) else [])
  | .sliced parent offset bound, start, length =>
    parent.pieces (offset + start) (min length (bound - start))

/-- The range of a concatenation is divided at the end of the first half. -/
theorem take_drop_append {α : Type} (first second : List α) (start length : Nat) :
    ((first ++ second).drop start).take length =
      (if start < first.length then
        (first.drop start).take (min length (first.length - start)) else []) ++
      (if first.length < start + length then
        (second.drop (start - first.length)).take (start + length - max first.length start)
      else []) := by
  rw [List.drop_append, List.take_append, List.length_drop]
  congr 1
  · split
    · rw [← List.length_drop, ← List.take_eq_take_min]
    · rename_i beyond
      rw [List.drop_of_length_le (Nat.le_of_not_lt beyond), List.take_nil]
  · split
    · congr 1
      omega
    · rename_i before
      rw [show length - (first.length - start) = 0 by omega, List.take_zero]

/-- The pieces of a range make it up. -/
theorem flatMap_pieces (tree : StringTree) (start length : Nat) :
    (tree.pieces start length).flatMap Piece.units = (tree.units.drop start).take length := by
  induction tree generalizing start length with
  | sequential units => simp [pieces, StringTree.units]
  | external units => simp [pieces, StringTree.units]
  | concatenated first second ih ih' =>
    rw [units, take_drop_append, pieces, List.flatMap_append]
    congr 1
    · split
      · exact ih _ _
      · rfl
    · split
      · exact ih' _ _
      · rfl
  | sliced parent offset bound ih =>
    rw [pieces, ih, units, List.drop_take, List.take_take, List.drop_drop]

theorem external_eq_false_of_mem_pieces {tree : StringTree} (leaves : tree.SequentialLeaves)
    {start length : Nat} {p : Piece} (mem : p ∈ tree.pieces start length) : p.external = false := by
  induction tree generalizing start length with
  | sequential units => rw [List.mem_singleton.1 mem]
  | external units => cases leaves
  | concatenated first second ih ih' =>
    rcases List.mem_append.1 mem with mem | mem
    · split at mem
      · exact ih leaves.1 mem
      · cases mem
    · split at mem
      · exact ih' leaves.2 mem
      · cases mem
  | sliced parent offset bound ih => exact ih leaves mem

end StringTree

/-! ## Trees in a snapshot -/

namespace HeapString

/-- A header stands for a tree: the components that it names have headers that stand for the
subtrees, and the characters of the leaves lie in memory. -/
inductive Holds (s : Snapshot) : HeapString → StringTree → Prop where
  | sequential {h : HeapString} {base : Word} {units : List UInt16}
      (shown : h.representation = .sequential)
      (found : s.fieldAddress h.address h.encoding.charsField = .ok base)
      (held : s.HoldsUnits h.encoding base units) (length : units.length = h.length) :
      Holds s h (.sequential units)
  | external {h : HeapString} {resource base : Word} {units : List UInt16}
      (shown : h.representation = .external resource (some base)) (oneByte : h.encoding = .oneByte)
      (held : s.HoldsUnits h.encoding base units) (length : units.length = h.length) :
      Holds s h (.external units)
  | concatenated {h first second : HeapString} {w w' : Word} {tree tree' : StringTree}
      (shown : h.representation = .concatenated w w')
      (loaded : load s w h.policy = .ok first) (loaded' : load s w' h.policy = .ok second)
      (held : Holds s first tree) (held' : Holds s second tree')
      (length : first.length + second.length = h.length) :
      Holds s h (.concatenated tree tree')
  | sliced {h parent : HeapString} {w : Word} {offset : Nat} {tree : StringTree}
      (shown : h.representation = .sliced w offset) (loaded : load s w h.policy = .ok parent)
      (held : Holds s parent tree) (length : offset + h.length ≤ parent.length) :
      Holds s h (.sliced tree offset h.length)

/-- **A header is as long as the tree it stands for.** -/
theorem Holds.length_units {s : Snapshot} {h : HeapString} {tree : StringTree}
    (held : Holds s h tree) : tree.units.length = h.length := by
  induction held with
  | sequential _ _ _ length => exact length
  | external _ _ _ length => exact length
  | concatenated _ _ _ _ _ length ih ih' =>
    rw [StringTree.units, List.length_append, ih, ih', length]
  | sliced _ _ _ length ih =>
    rw [StringTree.units, List.length_take, List.length_drop, ih]
    omega

end HeapString

/-! ## A sample

A heap with one string of each kind. -/

namespace Sample

/-- The layout of a build with pointers of eight bytes, as far as strings need it. -/
def layout : Layout :=
  [(⟨"HeapObject", "map"⟩, 0), (⟨"Map", "instance_attributes"⟩, 12), (⟨"String", "length"⟩, 16),
    (⟨"SeqOneByteString", "chars"⟩, 24), (⟨"SeqTwoByteString", "chars"⟩, 24),
    (⟨"ConsString", "first"⟩, 24), (⟨"ConsString", "second"⟩, 32), (⟨"SlicedString", "parent"⟩, 24),
    (⟨"SlicedString", "offset"⟩, 32), (⟨"ExternalString", "resource"⟩, 24),
    (⟨"ExternalStringResource", "data"⟩, 8)].foldl
    (fun l (field, offset) => l.setOffset field offset)
    { version := none
      tags :=
        { pointerSize := 8, pointerTag := 1, pointerMask := 3, smallIntTag := 0, smallIntMask := 1,
          valueShift := 1, paddingShift := 31, failureTag := none, failureMask := none }
      types :=
        { function := none, fixedArray := none, array := none, context := none, scopeInfo := none,
          strings := some
            { notStringMask := 0x80, stringTag := 0, encodingMask := 4, oneByteTag := some 4,
              asciiTag := none, representationMask := 3, sequentialTag := 0, concatenatedTag := 1,
              slicedTag := 3, externalTag := 2 } }
      context := ⟨none, none, none, none, none⟩
      scopeInfo := ⟨none, none, none, none, none⟩
      offsets := ∅
      limits := {} }

/-- The bytes of a word, least significant first. -/
def wordBytes (w : Nat) : List UInt8 := (List.range 8).map fun i => UInt8.ofNat (w >>> (8 * i))

/-- The words of the heap, from `0x1000` on: four maps and five objects. -/
def words : List Nat :=
  [0, 0x00 <<< 32, 0, 0x06 <<< 32, 0, 0x07 <<< 32, 0, 0x01 <<< 32, 0, 0,
    0x1001, 0, 2 <<< 32, 0x00684e2d,
    0x1011, 0, 4 <<< 32, 0x1090,
    0, 0x10a0, 0x64636261,
    0x1021, 0, 2 <<< 32, 0x1071, 1 <<< 32,
    0x1031, 0, 4 <<< 32, 0x1051, 0x10a9]

/-- The only segment of the heap. -/
def segment : Segment := ⟨0x1000, (words.flatMap wordBytes).toArray⟩

/-- The memory of the heap. -/
def image : Image := Image.empty.map segment.base segment.bytes

/-- The heap. -/
def heap : Snapshot := ⟨image.memory, layout⟩

/-- The header of two characters of two bytes. -/
def twoByte : HeapString := ⟨0x1050, 2, 0, .twoByte, .sequential, .blocking⟩

/-- The header of four characters outside the heap. -/
def external : HeapString := ⟨0x1070, 4, 6, .oneByte, .external 0x1090 (some 0x10a0), .blocking⟩

/-- The header of a slice of `external`. -/
def slice : HeapString := ⟨0x10a8, 2, 7, .oneByte, .sliced 0x1071 1, .blocking⟩

/-- The header of the concatenation of `twoByte` and `slice`. -/
def joined : HeapString := ⟨0x10d0, 4, 1, .twoByte, .concatenated 0x1051 0x10a9, .blocking⟩

/-- A transcript with an empty buffer. -/
def transcript (capacity : Nat) : Transcript where
  buffer := .ofCapacity capacity
  budget := .unlimited

theorem ok_of_toOption {ε α : Type} {value : Except ε α} {a : α} (h : value.toOption = some a) :
    value = .ok a := by
  cases value with
  | ok b => exact congrArg _ (Option.some.inj h)
  | error e => cases h

theorem load_twoByte : HeapString.load heap 0x1051 .blocking = .ok twoByte :=
  ok_of_toOption (by decide +kernel)

theorem load_external : HeapString.load heap 0x1071 .blocking = .ok external :=
  ok_of_toOption (by decide +kernel)

theorem load_slice : HeapString.load heap 0x10a9 .blocking = .ok slice :=
  ok_of_toOption (by decide +kernel)

theorem load_joined : HeapString.load heap 0x10d1 .blocking = .ok joined :=
  ok_of_toOption (by decide +kernel)

theorem holdsBytes {base : Word} {bytes : List UInt8} (above : 0x1000 ≤ base.toNat)
    (same : (segment.bytes.toList.drop (base.toNat - 0x1000)).take bytes.length = bytes)
    (inSpace : base.toNat + bytes.length ≤ Word.top) : heap.HoldsBytes base bytes := by
  have first : segment.base.toNat = 0x1000 := rfl
  refine holdsBytes_of_segment (show base.toNat = segment.base.toNat + _ by omega)
    (fun start _ => ?_) same inSpace
  exact List.find?_cons_of_pos (decide_eq_true (by rw [first]; omega))

theorem holds_twoByte : twoByte.Holds heap (.sequential [0x4e2d, 0x68]) := by
  have found : heap.fieldAddress twoByte.address ⟨"SeqTwoByteString", "chars"⟩ = .ok 0x1068 :=
    ok_of_toOption (by decide +kernel)
  have held : heap.HoldsBytes 0x1068 [0x2d, 0x4e, 0x68, 0x00] :=
    holdsBytes (by decide) (by decide +kernel) (by decide)
  exact .sequential rfl found (held.units .twoByte (show 4 = 2 * 2 from rfl)) rfl

theorem holds_external : external.Holds heap (.external [0x61, 0x62, 0x63, 0x64]) := by
  have held : heap.HoldsBytes 0x10a0 [0x61, 0x62, 0x63, 0x64] :=
    holdsBytes (by decide) (by decide +kernel) (by decide)
  exact .external rfl rfl (held.units .oneByte (show 4 = 4 * 1 from rfl)) rfl

theorem holds_joined : joined.Holds heap
    (.concatenated (.sequential [0x4e2d, 0x68])
      (.sliced (.external [0x61, 0x62, 0x63, 0x64]) 1 2)) :=
  .concatenated rfl load_twoByte load_slice holds_twoByte
    (.sliced (w := 0x1071) rfl load_external holds_external (by decide)) rfl

end Sample

end Postmortem
