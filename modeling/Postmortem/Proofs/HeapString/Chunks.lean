import Postmortem.HeapString.Write
import Postmortem.Proofs.HeapString.Tree

/-! # Chunks

A string with characters of its own reads them in chunks, counted from where the range begins that
it is asked for (`LeafRange.chunks`). Which chunks there are depends on the headers only. So they
can be listed for a string of which nothing is known but that its headers can be read
(`HeapString.HasShape`): `StringShape.chunks` lists those of a range of the text, leaf by leaf in
the order of the text.

If the characters can be read as well, the chunks of a range make it up
(`HeapString.Holds.exists_hasShape`). -/

namespace Postmortem

/-! ## Chunks -/

/-- Characters of a string that are read at once. -/
structure Chunk where
  string : HeapString
  address : Word
  /-- The number of characters. -/
  count : Nat
  deriving DecidableEq, Repr

namespace Chunk

variable (s : Snapshot) (c : Chunk)

/-- Bytes in a chunk. -/
def size : Nat := c.count * c.string.encoding.width

/-- The memory gives the bytes of the chunk. -/
def Readable : Prop := (s.memory.read c.address c.size).isOk

instance : Decidable (c.Readable s) := inferInstanceAs (Decidable (_ = true))

/-- The characters of a chunk, or none if it cannot be read. -/
def units : List UInt16 :=
  match s.memory.read c.address c.size with
  | .ok bytes => c.string.encoding.units bytes
  | .error _ => []

variable {s c}

theorem readable_iff : c.Readable s ↔ ∃ bytes, s.memory.read c.address c.size = .ok bytes := by
  rw [Readable]
  cases s.memory.read c.address c.size <;> simp [Except.isOk, Except.toBool]

theorem not_readable_iff :
    ¬ c.Readable s ↔ ∃ cause, s.memory.read c.address c.size = .error cause := by
  rw [Readable]
  cases s.memory.read c.address c.size <;> simp [Except.isOk, Except.toBool]

theorem units_of_ok {bytes : List UInt8} (read : s.readBytes c.address c.size = .ok bytes) :
    c.units s = c.string.encoding.units bytes := by
  rw [units, Snapshot.readBytes_eq_ok_iff.1 read]

end Chunk

/-! ## Ranges of leaves -/

/-- A range of the characters of a string that has characters of its own. -/
structure LeafRange where
  string : HeapString
  /-- Where the string's characters lie. -/
  base : Word
  start : Nat
  length : Nat
  deriving DecidableEq, Repr

theorem ceil_div_of_pos {n most : Nat} (pos : 0 < n) (most_pos : 0 < most) :
    (n + most - 1) / most = (n - min n most + most - 1) / most + 1 := by
  rcases Nat.le_total n most with last | more
  · have under : most - 1 < most := by omega
    rw [Nat.min_eq_left last, Nat.sub_self, Nat.zero_add, Nat.div_eq_of_lt under]
    exact Nat.div_eq_of_lt_le (by omega) (by omega)
  · rw [Nat.min_eq_right more, ← Nat.add_div_right _ most_pos]
    congr 1
    omega

namespace LeafRange

variable (s : Snapshot) (r : LeafRange)

/-- The range is cut into chunks of as many characters as a chunk holds; the last one may hold
fewer. -/
def chunks : List Chunk :=
  let most := r.string.chunkLength
  (List.range ((r.length + most - 1) / most)).map fun i =>
    { string := r.string
      address := UInt64.ofNat (r.base.toNat + (r.start + i * most) * r.string.encoding.width)
      count := min (r.length - i * most) most }

variable {r}

theorem chunks_eq_nil (empty : r.length = 0) : r.chunks = [] := by
  have := r.string.chunkLength_pos
  have : (r.length + r.string.chunkLength - 1) / r.string.chunkLength = 0 :=
    Nat.div_eq_of_lt (by omega)
  rw [chunks, this]
  rfl

/-- The first chunk of a range, and those of what is left of it. -/
theorem chunks_of_pos (pos : 0 < r.length) :
    r.chunks =
      { string := r.string
        address := UInt64.ofNat (r.base.toNat + r.start * r.string.encoding.width)
        count := min r.length r.string.chunkLength } ::
      chunks { r with
        start := r.start + min r.length r.string.chunkLength
        length := r.length - min r.length r.string.chunkLength } := by
  have most_pos := r.string.chunkLength_pos
  simp only [chunks]
  rw [ceil_div_of_pos pos most_pos, List.range_succ_eq_map, List.map_cons, List.map_map]
  congr 1
  · simp
  · refine List.map_congr_left fun i mem => ?_
    rw [List.mem_range] at mem
    -- There is a second chunk only if the first one is full.
    have full : r.string.chunkLength < r.length := by
      refine Nat.lt_of_not_le fun last => ?_
      rw [Nat.min_eq_left last, Nat.sub_self, Nat.zero_add, Nat.div_eq_of_lt (by omega)] at mem
      omega
    have next :
        (i + 1) * r.string.chunkLength = r.string.chunkLength + i * r.string.chunkLength := by
      rw [Nat.succ_mul, Nat.add_comm]
    rw [Nat.min_eq_right (Nat.le_of_lt full)]
    simp only [Function.comp, Nat.succ_eq_add_one, next, Nat.add_assoc, Nat.sub_sub]

/-- The first character of the range is ASCII, if the string is external and the chunk of that
character can be read. -/
def StartsAscii (s : Snapshot) (r : LeafRange) : Prop :=
  r.string.isExternal = true → ∀ c ∈ r.chunks.head?, ∀ unit ∈ (c.units s).head?, unit < 0x80

instance (s : Snapshot) (r : LeafRange) : Decidable (r.StartsAscii s) :=
  decidable_of_iff
    (r.string.isExternal = true →
      (r.chunks.head?.all fun c => (c.units s).head?.all fun unit => unit < 0x80) = true)
    (by simp [StartsAscii, Option.all_eq_true])

end LeafRange

/-! ## Shapes -/

/-- The headers that a string is made of: those of its leaves, and where their characters lie. -/
inductive StringShape where
  | leaf (string : HeapString) (base : Word)
  | concatenated (first second : StringShape)
  | sliced (parent : StringShape) (offset length : Nat)
  deriving DecidableEq, Repr

namespace StringShape

/-- The length in characters. -/
def length : StringShape → Nat
  | .leaf string _ => string.length
  | .concatenated first second => first.length + second.length
  | .sliced _ _ length => length

/-- How deep the leaves are nested. -/
def height : StringShape → Nat
  | .leaf .. => 0
  | .concatenated first second => max first.height second.height + 1
  | .sliced parent _ _ => parent.height + 1

/-- The leaves that are visited for a range of characters, each with the part of the range that is
asked of it, in the order of the text. -/
def ranges : StringShape → (start length : Nat) → List LeafRange
  | .leaf string base, start, length => [{ string, base, start, length }]
  | .concatenated first second, start, length =>
    let split := first.length
    let stop := start + length
    (if start < split then first.ranges start (min length (split - start)) else []) ++
      (if split < stop then second.ranges (start - split) (stop - max split start) else [])
  | .sliced parent offset bound, start, length =>
    parent.ranges (offset + start) (min length (bound - start))

/-- The chunks that are read for a range of characters. -/
def chunks (shape : StringShape) (start length : Nat) : List Chunk :=
  (shape.ranges start length).flatMap LeafRange.chunks

theorem chunks_leaf (string : HeapString) (base : Word) (start length : Nat) :
    (leaf string base).chunks start length = LeafRange.chunks ⟨string, base, start, length⟩ :=
  List.flatMap_singleton ..

/-- The part that lies in the first half, then the part that lies in the second. -/
theorem chunks_concatenated (first second : StringShape) (start length : Nat) :
    (concatenated first second).chunks start length =
      (if start < first.length then first.chunks start (min length (first.length - start))
        else []) ++
      (if first.length < start + length then
        second.chunks (start - first.length) (start + length - max first.length start)
      else []) := by
  rw [chunks, ranges, List.flatMap_append]
  congr 1 <;> split <;> rfl

theorem chunks_sliced (parent : StringShape) (offset bound start length : Nat) :
    (sliced parent offset bound).chunks start length =
      parent.chunks (offset + start) (min length (bound - start)) := rfl

theorem chunks_zero (shape : StringShape) (start : Nat) : shape.chunks start 0 = [] := by
  induction shape generalizing start with
  | leaf string base =>
    rw [chunks_leaf]
    exact LeafRange.chunks_eq_nil rfl
  | concatenated first second ih ih' =>
    rw [chunks_concatenated, Nat.zero_min, ih, ite_self, List.nil_append]
    split
    · have nothing : start + 0 - max first.length start = 0 := by omega
      rw [nothing, ih']
    · rfl
  | sliced parent offset bound ih => rw [chunks_sliced, Nat.zero_min, ih]

end StringShape

namespace HeapString

/-- A header has a shape: the components that it names load, and their headers have the shapes of
the components. The lengths fit, and all characters of the leaves lie in the address space. Whether
they can be read is left open. -/
inductive HasShape (s : Snapshot) : HeapString → StringShape → Prop where
  | sequential {h : HeapString} {base : Word} (shown : h.representation = .sequential)
      (found : s.fieldAddress h.address h.encoding.charsField = .ok base)
      (inSpace : ∀ index < h.length, base.toNat + index * h.encoding.width ≤ Word.top) :
      HasShape s h (.leaf h base)
  | external {h : HeapString} {resource base : Word}
      (shown : h.representation = .external resource (some base)) (oneByte : h.encoding = .oneByte)
      (inSpace : ∀ index < h.length, base.toNat + index * h.encoding.width ≤ Word.top) :
      HasShape s h (.leaf h base)
  | concatenated {h first second : HeapString} {w w' : Word} {shape shape' : StringShape}
      (shown : h.representation = .concatenated w w')
      (loaded : load s w h.policy = .ok first) (loaded' : load s w' h.policy = .ok second)
      (has : HasShape s first shape) (has' : HasShape s second shape')
      (length : first.length + second.length = h.length) :
      HasShape s h (.concatenated shape shape')
  | sliced {h parent : HeapString} {w : Word} {offset : Nat} {shape : StringShape}
      (shown : h.representation = .sliced w offset) (loaded : load s w h.policy = .ok parent)
      (has : HasShape s parent shape) (length : offset + h.length ≤ parent.length) :
      HasShape s h (.sliced shape offset h.length)

theorem HasShape.length_eq {s : Snapshot} {h : HeapString} {shape : StringShape}
    (has : HasShape s h shape) : shape.length = h.length := by
  induction has with
  | sequential | external => rfl
  | concatenated _ _ _ _ _ length ih ih' => rw [StringShape.length, ih, ih', length]
  | sliced => rfl

end HeapString

/-! ## Strings that can be read -/

/-- All of the chunks can be read, and the units are their characters. -/
structure ChunksHold (s : Snapshot) (chunks : List Chunk) (units : List UInt16) : Prop where
  readable : ∀ c ∈ chunks, c.Readable s
  units_eq : chunks.flatMap (Chunk.units s) = units

namespace ChunksHold

variable {s : Snapshot} {chunks more : List Chunk} {units units' : List UInt16}

theorem nil : ChunksHold s [] [] := ⟨by simp, rfl⟩

theorem append (h : ChunksHold s chunks units) (h' : ChunksHold s more units') :
    ChunksHold s (chunks ++ more) (units ++ units') :=
  ⟨List.forall_mem_append.2 ⟨h.readable, h'.readable⟩, by
    rw [List.flatMap_append, h.units_eq, h'.units_eq]⟩

theorem single {c : Chunk} {bytes : List UInt8}
    (read : s.readBytes c.address c.size = .ok bytes) :
    ChunksHold s [c] (c.string.encoding.units bytes) := by
  have readable : c.Readable s :=
    Chunk.readable_iff.2 ⟨bytes, Snapshot.readBytes_eq_ok_iff.1 read⟩
  exact ⟨by simpa using readable, by rw [List.flatMap_singleton, Chunk.units_of_ok read]⟩

theorem when {p : Prop} [Decidable p] (h : p → ChunksHold s chunks units) :
    ChunksHold s (if p then chunks else []) (if p then units else []) := by
  split
  · rename_i holds
    exact h holds
  · exact nil

end ChunksHold

namespace HeapString

variable {s : Snapshot} {h : HeapString} {base : Word} {units : List UInt16}

/-- Characters that lie in memory are those of the chunks. -/
theorem chunksHold_of_holdsUnits (held : s.HoldsUnits h.encoding base units) {start length : Nat}
    (range : start + length ≤ units.length) :
    ChunksHold s (LeafRange.chunks ⟨h, base, start, length⟩) ((units.drop start).take length) := by
  induction length using Nat.strongRecOn generalizing start with
  | ind length ih =>
    rcases Nat.eq_zero_or_pos length with rfl | pos
    · rw [LeafRange.chunks_eq_nil rfl, List.take_zero]
      exact .nil
    · have countPos : 0 < min length h.chunkLength := by
        have := h.chunkLength_pos
        omega
      have countLe : min length h.chunkLength ≤ length := Nat.min_le_left _ _
      obtain ⟨address, bytes, found, read, chunk⟩ :=
        held start (min length h.chunkLength) countPos (by omega)
      have here : address = UInt64.ofNat (base.toNat + start * h.encoding.width) := by
        rw [Word.advance?] at found
        split at found <;> cases found
        rfl
      subst here
      have rest := ih (length - min length h.chunkLength) (by omega)
        (show start + min length h.chunkLength + _ ≤ units.length by omega)
      have parts : (units.drop start).take length = h.encoding.units bytes ++
          (units.drop (start + min length h.chunkLength)).take
            (length - min length h.chunkLength) := by
        rw [chunk, ← List.drop_drop, ← List.take_add, Nat.add_sub_cancel' countLe]
      rw [LeafRange.chunks_of_pos pos, parts]
      exact .append (.single read) rest

theorem inSpace_of_holdsUnits (held : s.HoldsUnits h.encoding base units)
    (whole : units.length = h.length) :
    ∀ index < h.length, base.toNat + index * h.encoding.width ≤ Word.top := by
  intro index lt
  obtain ⟨address, -, found, -⟩ := held index 1 Nat.one_pos (by omega)
  rw [← toNat_of_advance? found]
  exact address.toNat_le_top

/-- **A string that can be read has a shape, and the chunks of a range make it up.** -/
theorem Holds.exists_hasShape {tree : StringTree} (held : Holds s h tree) :
    ∃ shape, HasShape s h shape ∧ shape.height = tree.height ∧
      ∀ start length, start + length ≤ h.length →
        ChunksHold s (shape.chunks start length) ((tree.units.drop start).take length) := by
  induction held with
  | @sequential h base units shown found held whole =>
    refine ⟨.leaf h base, .sequential shown found (inSpace_of_holdsUnits held whole), rfl, ?_⟩
    intro start length range
    rw [StringShape.chunks_leaf]
    exact chunksHold_of_holdsUnits held (by omega)
  | @external h resource base units shown oneByte held whole =>
    refine ⟨.leaf h base, .external shown oneByte (inSpace_of_holdsUnits held whole), rfl, ?_⟩
    intro start length range
    rw [StringShape.chunks_leaf]
    exact chunksHold_of_holdsUnits held (by omega)
  | @concatenated h first second w w' tree tree' shown loaded loaded' held held' whole ih ih' =>
    obtain ⟨shape, has, height, chunks⟩ := ih
    obtain ⟨shape', has', height', chunks'⟩ := ih'
    refine ⟨_, .concatenated shown loaded loaded' has has' whole, ?_, ?_⟩
    · rw [StringShape.height, StringTree.height, height, height']
    · intro start length range
      rw [StringShape.chunks_concatenated, StringTree.units, StringTree.take_drop_append,
        held.length_units, has.length_eq]
      exact .append (.when fun before => chunks _ _ (by omega))
        (.when fun beyond => chunks' _ _ (by omega))
  | @sliced h parent w offset tree shown loaded held whole ih =>
    obtain ⟨shape, has, height, chunks⟩ := ih
    refine ⟨_, .sliced shown loaded has whole, ?_, ?_⟩
    · rw [StringShape.height, StringTree.height, height]
    · intro start length range
      have short : min length (h.length - start) = length := by omega
      rw [StringShape.chunks_sliced, StringTree.units, List.drop_take, List.take_take,
        List.drop_drop, short]
      exact chunks (offset + start) length (by omega)

end HeapString

end Postmortem
