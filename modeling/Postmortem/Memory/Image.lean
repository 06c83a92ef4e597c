import Postmortem.Memory.Basic

/-! # Memory images

An `Image` is a sparse snapshot of a target's memory: segments of bytes, at most one for a base
address. Where segments overlap, an address belongs to the segment with the greatest base that is
not beyond it. A read takes bytes from the segment its first address belongs to, goes on with the
one that the next address belongs to when that segment ends, and fails at an address without a
segment. -/

namespace Postmortem

/-- Bytes of the target from a base address on. -/
structure Segment where
  base : Word
  bytes : Array UInt8
  deriving DecidableEq, Repr

/-- A sparse snapshot of memory: segments, those with the greatest base first. -/
structure Image where
  segments : List Segment
  ordered : segments.Pairwise fun s t => t.base < s.base
  deriving DecidableEq

namespace Image

/-- The image without segments. -/
def empty : Image := ⟨[], .nil⟩

instance : EmptyCollection Image := ⟨empty⟩

/-! ## Mapping -/

/-- Segments, in order, with one more, which takes the place of one with its base. -/
def place (new : Segment) : List Segment → List Segment
  | [] => [new]
  | s :: rest =>
    if s.base < new.base then new :: s :: rest
    else if s.base = new.base then new :: rest
    else s :: place new rest

theorem mem_place {new s : Segment} {segments : List Segment} (h : s ∈ place new segments) :
    s = new ∨ s ∈ segments := by
  induction segments with
  | nil => exact .inl (by simpa [place] using h)
  | cons t rest ih =>
    rw [place] at h
    split at h
    · simpa using h
    · split at h
      · rcases List.mem_cons.1 h with h | h
        · exact .inl h
        · exact .inr (List.mem_cons_of_mem _ h)
      · rcases List.mem_cons.1 h with h | h
        · exact .inr (h ▸ List.mem_cons_self)
        · exact (ih h).imp_right (List.mem_cons_of_mem _)

theorem ordered_place (new : Segment) {segments : List Segment}
    (h : segments.Pairwise fun s t => t.base < s.base) :
    (place new segments).Pairwise fun s t => t.base < s.base := by
  induction segments with
  | nil => simp [place]
  | cons t rest ih =>
    have ⟨first, tail⟩ := List.pairwise_cons.1 h
    rw [place]
    split
    · rename_i lt
      refine List.pairwise_cons.2 ⟨fun s hs => ?_, h⟩
      rcases List.mem_cons.1 hs with rfl | hs
      · exact lt
      · exact UInt64.lt_trans (first s hs) lt
    · rename_i notLt
      split
      · rename_i same
        exact List.pairwise_cons.2 ⟨fun s hs => same ▸ first s hs, tail⟩
      · rename_i differ
        refine List.pairwise_cons.2 ⟨fun s hs => ?_, ih tail⟩
        rcases mem_place hs with rfl | hs
        · exact (UInt64.lt_or_eq_of_le (UInt64.not_lt.1 notLt)).resolve_right fun e => differ e.symm
        · exact first s hs

/-- The image with one more segment, which replaces one with the same base. -/
def map (image : Image) (base : Word) (bytes : Array UInt8) : Image :=
  ⟨place ⟨base, bytes⟩ image.segments, ordered_place _ image.ordered⟩

/-- The number of segments. -/
def segmentCount (image : Image) : Nat := image.segments.length

/-- The number of bytes in all segments. -/
def mappedBytes (image : Image) : Nat := image.segments.foldr (fun s n => s.bytes.size + n) 0

/-! ## Reading -/

/-- The bytes from an address on, at most `limit`, in the segment that the address belongs to; none
if it belongs to no segment. -/
def fragment (image : Image) (address limit : Nat) : List UInt8 :=
  match image.segments.find? fun s => s.base.toNat ≤ address with
  | some s =>
    let offset := address - s.base.toNat
    (s.bytes.extract offset (offset + limit)).toList
  | none => []

theorem length_fragment_le (image : Image) (address limit : Nat) :
    (image.fragment address limit).length ≤ limit := by
  unfold fragment
  split
  · simp only [Array.length_toList, Array.size_extract]
    omega
  · simp

/-- The bytes from an address on, as many as asked for, if each is mapped. -/
def collect? (image : Image) (address length : Nat) : Option (List UInt8) :=
  if length = 0 then some []
  else if image.fragment address length = [] then none
  else
    let part := image.fragment address length
    (image.collect? (address + part.length) (length - part.length)).map (part ++ ·)
termination_by length
decreasing_by
  rename_i _ mapped
  have := List.length_pos_iff.2 mapped
  omega

theorem length_of_collect? {image : Image} {address length : Nat} {bytes : List UInt8}
    (h : image.collect? address length = some bytes) : bytes.length = length := by
  fun_induction collect? image address length generalizing bytes with
  | case1 => simp_all
  | case2 => cases h
  | case3 address length _ _ part =>
    rename_i ih
    obtain ⟨rest, hrest, rfl⟩ := Option.map_eq_some_iff.1 h
    have : part.length ≤ length := image.length_fragment_le address length
    rw [List.length_append, ih hrest]
    omega

/-- The bytes from an address on. The end of the range must not leave the address space. -/
def read (image : Image) (address : Word) (length : Nat) : Except ReadError (List UInt8) :=
  if Word.top < address.toNat + length then .error (.overflow address)
  else
    match image.collect? address.toNat length with
    | some bytes => .ok bytes
    | none => .error (.unmapped address length)

/-- The memory that an image is a snapshot of. -/
def memory (image : Image) : Memory where
  read := image.read
  length_of_read h := by
    unfold read at h
    split at h
    · cases h
    · split at h
      · rename_i _ collected
        cases h
        exact length_of_collect? collected
      · cases h

end Image

end Postmortem
