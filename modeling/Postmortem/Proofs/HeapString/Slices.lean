import Postmortem.Proofs.HeapString.DepthGuard

/-! # Slices

A slice asks its parent for a range of characters. The text of the range is written, unless the
range takes from an external string a part that does not begin with an ASCII character
(`HeapString.Holds.write_slice`). What is looked at is the first character asked for, not the first
one that the external string has: a parent can be written as a whole and one of its slices cannot
(`HeapString.not_write_slice`). -/

namespace Postmortem

/-- The characters before the first piece of an external string that does not begin with an ASCII
character. -/
def asciiUnits (pieces : List Piece) : List UInt16 :=
  (pieces.takeWhile fun p => p.StartsAscii).flatMap (·.units)

/-! ## Barriers of pieces that do not lie too deep -/

section shallow

variable {pieces : List NestedPiece} {depth : Nat}

/-- Only its first character bars a piece that does not lie too deep. -/
theorem NestedPiece.barrier?_of_shallow {p : NestedPiece} (shallow : depth + p.depth ≤ maxDepth) :
    p.barrier? depth = if p.StartsAscii then none else some .nonAscii := by
  rw [barrier?, if_neg (Nat.not_lt.2 shallow)]

variable (shallow : ∀ p ∈ pieces, depth + p.depth ≤ maxDepth)

include shallow

theorem unitsBefore_eq_asciiUnits :
    unitsBefore depth pieces = asciiUnits (pieces.map NestedPiece.toPiece) := by
  unfold unitsBefore asciiUnits
  induction pieces with
  | nil => rfl
  | cons p pieces ih =>
    have here := NestedPiece.barrier?_of_shallow (shallow p List.mem_cons_self)
    have rest := ih fun q mem => shallow q (List.mem_cons_of_mem p mem)
    by_cases ascii : p.StartsAscii
    · simp [here, rest, ascii]
    · simp [here, ascii]

theorem firstBarrier?_eq_none_iff_of_shallow :
    firstBarrier? depth pieces = none ↔
      ∀ p ∈ pieces.map NestedPiece.toPiece, p.StartsAscii := by
  rw [firstBarrier?_eq_none, List.forall_mem_map]
  refine forall₂_congr fun p mem => ?_
  rw [NestedPiece.barrier?_of_shallow (shallow p mem)]
  simp

theorem eq_nonAscii_of_shallow {b : Barrier} (barred : firstBarrier? depth pieces = some b) :
    b = .nonAscii := by
  obtain ⟨p, mem, barrier⟩ := List.exists_of_findSome?_eq_some barred
  rw [NestedPiece.barrier?_of_shallow (shallow p mem)] at barrier
  split at barrier <;> cases barrier
  rfl

end shallow

/-- Room for all of the pieces is room for those before the first barrier. -/
theorem uncut_unitsBefore {mode : EscapeMode} {room depth : Nat} {pieces : List NestedPiece}
    (uncut : cutIndex? mode room (pieces.flatMap (·.units)) = none) :
    cutIndex? mode room (unitsBefore depth pieces) = none := by
  rw [← List.takeWhile_append_dropWhile (p := fun p => p.barrier? depth = none) (l := pieces),
    List.flatMap_append, cutIndex?_append, Option.or_eq_none_iff] at uncut
  exact uncut.1

namespace HeapString

variable {s : Snapshot} {mode : EscapeMode} {h : HeapString} {tree : StringTree}

variable (mode) in
/-- A string that is not nested too deep is written up to the first external part of it that does
not begin with an ASCII character. -/
theorem Holds.write_guarded (held : Holds s h tree) (policy : h.policy = .blocking)
    (nonempty : tree.units ≠ []) {o : WriteOptions} (unquoted : o.quoted = false)
    (shallow : o.depth + tree.height ≤ maxDepth) (t : Transcript)
    (grants : chunkBytes ≤ t.budget.maxAllocation.toNat) (room_pos : 0 < t.buffer.left)
    (uncut : cutIndex? mode t.buffer.left tree.units = none) :
    ((h.write s mode o t).1 = .ok () ↔ ∀ p ∈ tree.pieces 0 h.length, p.StartsAscii) ∧
    ((∀ p ∈ tree.pieces 0 h.length, p.StartsAscii) →
      (h.write s mode o t).2.buffer = t.buffer.add (mode.text tree.units)) ∧
    ((∃ p ∈ tree.pieces 0 h.length, ¬ p.StartsAscii) →
      (∃ address, (h.write s mode o t).1 = .error (.nonAsciiData address)) ∧
      (h.write s mode o t).2.buffer =
        t.buffer.add (mode.text (asciiUnits (tree.pieces 0 h.length)) ++
          "<found non-ASCII external string data>".toList.take
            (t.buffer.left - utf8Length (mode.text (asciiUnits (tree.pieces 0 h.length)))))) := by
  have granted : ∀ e, ¬ Refused t.budget h.policy e := by
    rw [policy]
    exact not_refused grants
  have near : ∀ p ∈ tree.contributions, o.depth + p.depth ≤ maxDepth := by
    intro p mem
    have := StringTree.depth_le_height mem
    omega
  have delivered := held.play_script_delivers mode granted (Nat.le_of_add_right_le shallow)
    nonempty room_pos
  rw [← StringTree.flatMap_contributions] at uncut
  have pieces : tree.contributions.map NestedPiece.toPiece = tree.pieces 0 h.length := by
    rw [StringTree.contributions, StringTree.map_toPiece_nestedPieces, held.length_units]
  have before := unitsBefore_eq_asciiUnits near
  have free := firstBarrier?_eq_none_iff_of_shallow near
  rw [pieces] at before free
  rw [h.write_eq_run s mode unquoted]
  simp only [run, Outcome.applyTo]
  cases first : firstBarrier? o.depth tree.contributions with
  | none =>
    obtain ⟨text, ending⟩ := delivered.finished first (uncut_unitsBefore uncut)
    have ascii := free.1 first
    rw [unitsBefore_of_none first, StringTree.flatMap_contributions] at text
    rw [text, ending]
    refine ⟨iff_of_true rfl ascii, fun _ => rfl, ?_⟩
    rintro ⟨p, mem, high⟩
    exact absurd (ascii p mem) high
  | some b =>
    cases eq_nonAscii_of_shallow near first
    obtain ⟨text, e, ending, address, rfl⟩ := delivered.failed first (uncut_unitsBefore uncut)
    have high : ¬ ∀ p ∈ tree.pieces 0 h.length, p.StartsAscii := by
      rw [← free, first]
      simp
    rw [before] at text
    rw [text, ending]
    exact ⟨iff_of_false (by simp [Ending.result]) high, fun ascii => absurd ascii high,
      fun _ => ⟨⟨address, rfl⟩, rfl⟩⟩

/-- **A slice is written just as the range of its parent's text, if every part of an external string
in the range begins with an ASCII character.** The slice ends within its parent and is not empty, it
is not nested too deep, storage is taken under the policy `blocking` from a budget that grants a
chunk, and the buffer does not cut the range short. If there is a part that does not begin so, the
writing fails after the characters before the first such part. -/
theorem Holds.write_slice {parent : HeapString} (held : Holds s parent tree) {w : Word}
    {offset : Nat} (shown : h.representation = .sliced w offset)
    (loaded : load s w h.policy = .ok parent) (inside : offset + h.length ≤ parent.length)
    (nonempty : 0 < h.length) (policy : h.policy = .blocking) {o : WriteOptions}
    (unquoted : o.quoted = false) (shallow : o.depth + tree.height < maxDepth) (t : Transcript)
    (grants : chunkBytes ≤ t.budget.maxAllocation.toNat) (room_pos : 0 < t.buffer.left)
    (uncut : cutIndex? mode t.buffer.left ((tree.units.drop offset).take h.length) = none) :
    ((h.write s mode o t).1 = .ok () ↔ ∀ p ∈ tree.pieces offset h.length, p.StartsAscii) ∧
    ((∀ p ∈ tree.pieces offset h.length, p.StartsAscii) →
      (h.write s mode o t).2.buffer =
        t.buffer.add (mode.text ((tree.units.drop offset).take h.length))) ∧
    ((∃ p ∈ tree.pieces offset h.length, ¬ p.StartsAscii) →
      (∃ address, (h.write s mode o t).1 = .error (.nonAsciiData address)) ∧
      (h.write s mode o t).2.buffer =
        t.buffer.add (mode.text (asciiUnits (tree.pieces offset h.length)) ++
          "<found non-ASCII external string data>".toList.take
            (t.buffer.left -
              utf8Length (mode.text (asciiUnits (tree.pieces offset h.length)))))) := by
  have sliced : Holds s h (.sliced tree offset h.length) := .sliced shown loaded held inside
  have text : (StringTree.sliced tree offset h.length).units ≠ [] := by
    rw [← List.length_pos_iff, sliced.length_units]
    exact nonempty
  have range : (StringTree.sliced tree offset h.length).pieces 0 h.length =
      tree.pieces offset h.length := by
    rw [StringTree.pieces, Nat.add_zero, Nat.sub_zero, Nat.min_self]
  rw [← range]
  exact sliced.write_guarded mode policy text unquoted (by rwa [StringTree.height]) t grants room_pos
    uncut

/-- The middle of four characters outside the heap. -/
theorem write_slice_ascii :
    (Sample.slice.write Sample.heap .raw {} (Sample.transcript 99)).1 = .ok () ∧
    (Sample.slice.write Sample.heap .raw {} (Sample.transcript 99)).2.buffer =
      { capacity := 99, text := "bc" } := by
  have ascii : ∀ p ∈ (StringTree.external [0x61, 0x62, 0x63, 0x64]).pieces 1 2, p.StartsAscii := by
    simp [StringTree.pieces, Piece.StartsAscii]
  have shown : Sample.slice.representation = .sliced 0x1071 1 := rfl
  have uncut : cutIndex? .raw (Sample.transcript 99).buffer.left
      ((([0x61, 0x62, 0x63, 0x64] : List UInt16).drop 1).take 2) = none := by decide +kernel
  have written := Sample.holds_external.write_slice (o := {}) shown Sample.load_external (by decide)
    (by decide) rfl rfl (by decide) (Sample.transcript 99) (by decide) (by decide) uncut
  exact ⟨written.1.2 ascii, (written.2.1 ascii).trans (by decide +kernel)⟩

/-- The second of four characters outside the heap is not ASCII. All four are written, but the
slice that begins with the second one is not. -/
theorem not_write_slice :
    ((Sample.external.write Sample.barredHeap .raw {} (Sample.transcript 99)).1 = .ok () ∧
      (Sample.external.write Sample.barredHeap .raw {} (Sample.transcript 99)).2.buffer =
        { capacity := 99, text := "aécd" }) ∧
    load Sample.barredHeap 0x10a9 .blocking = .ok Sample.slice ∧
    Sample.slice.representation = .sliced 0x1071 1 ∧ Sample.slice.length = 2 ∧
    load Sample.barredHeap 0x1071 .blocking = .ok Sample.external ∧
    ((∃ address, (Sample.slice.write Sample.barredHeap .raw {} (Sample.transcript 99)).1 =
        .error (.nonAsciiData address)) ∧
      (Sample.slice.write Sample.barredHeap .raw {} (Sample.transcript 99)).2.buffer =
        { capacity := 99, text := "<found non-ASCII external string data>" }) := by
  have parent := Sample.holds_external_barredHeap.write_guarded .raw (o := {}) rfl (by decide) rfl
    (by decide) (Sample.transcript 99) (by decide) (by decide) (by decide +kernel)
  have low : ∀ p ∈ (StringTree.external [0x61, 0xe9, 0x63, 0x64]).pieces 0 4, p.StartsAscii := by
    simp [StringTree.pieces, Piece.StartsAscii]
  have sliced : Sample.slice.Holds Sample.barredHeap
      (.sliced (.external [0x61, 0xe9, 0x63, 0x64]) 1 2) :=
    .sliced (w := 0x1071) rfl Sample.load_external_barredHeap Sample.holds_external_barredHeap
      (by decide)
  have slice := sliced.write_guarded .raw (o := {}) rfl (by decide) rfl (by decide)
    (Sample.transcript 99) (by decide) (by decide) (by decide +kernel)
  have high : ∃ p ∈ (StringTree.sliced (.external [0x61, 0xe9, 0x63, 0x64]) 1 2).pieces 0 2,
      ¬ p.StartsAscii := by
    simp [StringTree.pieces, Piece.StartsAscii]
  obtain ⟨failed, text⟩ := slice.2.2 high
  exact ⟨⟨parent.1.2 low, (parent.2.1 low).trans (by decide +kernel)⟩,
    Sample.ok_of_toOption (by decide +kernel), rfl, rfl, Sample.load_external_barredHeap,
    failed, text.trans (by decide +kernel)⟩

end HeapString

end Postmortem
