import Postmortem.Proofs.HeapString.Course

/-! # The depth guard

Strings are followed `maxDepth` deep. What counts is how deep the leaves lie that characters come
from (`StringTree.reach`): a component that a slice leaves out can be nested as deep as it likes.
The text before the first leaf that lies too deep is written, and a placeholder in its stead
(`HeapString.Holds.write_depthGuard`). -/

namespace Postmortem

/-- The pieces of a string nested `depth` deep before the first one that lies too deep. -/
def shallowPieces (depth : Nat) (pieces : List NestedPiece) : List NestedPiece :=
  pieces.takeWhile fun p => depth + p.depth ≤ maxDepth

/-! ## Barriers of ASCII pieces -/

section ascii

variable {pieces : List NestedPiece} {depth : Nat}

/-- Only its depth bars a piece that starts as ASCII. -/
theorem NestedPiece.barrier?_of_startsAscii {p : NestedPiece} (ascii : p.StartsAscii)
    (depth : Nat) :
    p.barrier? depth = if maxDepth < depth + p.depth then some .tooDeep else none := by
  rw [barrier?, if_pos ascii]

variable (ascii : ∀ p ∈ pieces, p.StartsAscii)

include ascii

theorem unitsBefore_eq_shallowPieces :
    unitsBefore depth pieces = (shallowPieces depth pieces).flatMap (·.units) := by
  unfold unitsBefore shallowPieces
  congr 1
  induction pieces with
  | nil => rfl
  | cons p pieces ih =>
    have here := NestedPiece.barrier?_of_startsAscii (ascii p List.mem_cons_self) depth
    have rest := ih fun q mem => ascii q (List.mem_cons_of_mem p mem)
    simp [List.takeWhile_cons, here, rest]

theorem firstBarrier?_eq_none_iff_of_startsAscii :
    firstBarrier? depth pieces = none ↔ ∀ p ∈ pieces, depth + p.depth ≤ maxDepth := by
  rw [firstBarrier?_eq_none]
  refine forall₂_congr fun p mem => ?_
  rw [NestedPiece.barrier?_of_startsAscii (ascii p mem)]
  simp

theorem eq_tooDeep_of_startsAscii {b : Barrier} (barred : firstBarrier? depth pieces = some b) :
    b = .tooDeep := by
  obtain ⟨p, mem, barrier⟩ := List.exists_of_findSome?_eq_some barred
  rw [NestedPiece.barrier?_of_startsAscii (ascii p mem)] at barrier
  split at barrier <;> cases barrier
  rfl

end ascii

/-! ## Leaves that text comes from -/

namespace StringTree

variable (tree : StringTree)

/-- The leaves that the text of the string comes from, in the order of the text. -/
def contributions : List NestedPiece := tree.nestedPieces 0 tree.units.length

/-- How deep the leaves lie that the text comes from. -/
def reach : Nat := (tree.contributions.map NestedPiece.depth).foldr max 0

/-- The characters of a string nested `depth` deep before those of the first leaf that lies too
deep. -/
def shallowUnits (depth : Nat) : List UInt16 :=
  (shallowPieces depth tree.contributions).flatMap (·.units)

variable {tree}

/-- The characters of the contributions make up the text. -/
theorem flatMap_contributions : tree.contributions.flatMap (·.units) = tree.units := by
  rw [contributions, flatMap_nestedPieces, List.drop_zero, List.take_length]

/-- A leaf contributes at least one character. -/
theorem units_ne_nil_of_mem_contributions (nonempty : tree.units ≠ []) {p : NestedPiece}
    (mem : p ∈ tree.contributions) : p.units ≠ [] :=
  units_ne_nil_of_mem_nestedPieces (List.length_pos_iff.2 nonempty) (by omega) mem

theorem reach_le {bound : Nat} :
    tree.reach ≤ bound ↔ ∀ p ∈ tree.contributions, p.depth ≤ bound := by
  unfold reach
  induction tree.contributions with
  | nil => simp
  | cons p pieces ih =>
    rw [List.map_cons, List.foldr_cons, Nat.max_le, ih, List.forall_mem_cons]

theorem reach_le_height : tree.reach ≤ tree.height :=
  reach_le.2 fun _ => depth_le_height

theorem startsAscii_of_mem_contributions (leaves : tree.SequentialLeaves) {p : NestedPiece}
    (mem : p ∈ tree.contributions) : p.StartsAscii := by
  intro external
  have piece : p.toPiece ∈ tree.pieces 0 tree.units.length := by
    rw [← map_toPiece_nestedPieces]
    exact List.mem_map_of_mem mem
  rw [external_eq_false_of_mem_pieces leaves piece] at external
  cases external

theorem firstBarrier?_contributions (leaves : tree.SequentialLeaves) {depth : Nat}
    (shallow : depth ≤ maxDepth) :
    firstBarrier? depth tree.contributions =
      if depth + tree.reach ≤ maxDepth then none else some .tooDeep := by
  have ascii : ∀ p ∈ tree.contributions, p.StartsAscii :=
    fun p => startsAscii_of_mem_contributions leaves
  have free : firstBarrier? depth tree.contributions = none ↔ depth + tree.reach ≤ maxDepth := by
    rw [firstBarrier?_eq_none_iff_of_startsAscii ascii, ← Nat.le_sub_iff_add_le' shallow, reach_le]
    exact forall₂_congr fun p _ => (Nat.le_sub_iff_add_le' shallow).symm
  split
  · rename_i within
    exact free.2 within
  · rename_i beyond
    cases first : firstBarrier? depth tree.contributions with
    | none => exact absurd (free.1 first) beyond
    | some b => rw [eq_tooDeep_of_startsAscii ascii first]

theorem shallowUnits_of_reach_le {depth : Nat} (within : depth + tree.reach ≤ maxDepth) :
    tree.shallowUnits depth = tree.units := by
  have all : ∀ p ∈ tree.contributions, depth + p.depth ≤ maxDepth := by
    intro p mem
    have := reach_le.1 (Nat.le_refl tree.reach) p mem
    omega
  rw [shallowUnits, shallowPieces, ← List.append_nil tree.contributions,
    List.takeWhile_append_of_pos (by simpa using all), List.takeWhile_nil, List.append_nil,
    flatMap_contributions]

end StringTree

/-! ## Writing -/

namespace HeapString

variable {s : Snapshot} {mode : EscapeMode} {h : HeapString} {tree : StringTree}

variable (mode) in
/-- A whole string is written up to the first leaf that bars it. -/
theorem Holds.play_script_delivers (held : Holds s h tree) {budget : Budget}
    (granted : ∀ e, ¬ Refused budget h.policy e) {depth : Nat} (shallow : depth ≤ maxDepth)
    (nonempty : tree.units ≠ []) {room : Nat} (room_pos : 0 < room) :
    (play mode room (h.script s budget depth)).Delivers mode room depth tree.contributions := by
  unfold script
  rw [← held.length_units]
  exact held.play_rangeScript_delivers granted (by omega) (List.length_pos_iff.2 nonempty)
    (by omega) room_pos

/-- **The depth guard is exact.** The text of a string that is not empty comes from sequential
strings only, storage is taken under the policy `blocking` from a budget that grants a chunk, and
the buffer cuts nothing short. Then writing without quotes succeeds just if no leaf that text comes
from lies deeper than `maxDepth`, and it adds the whole text. Otherwise it fails at the depth
`maxDepth + 1`, and adds the text before the first leaf that lies too deep, and after that the
placeholder, as far as there is room for it. -/
theorem Holds.write_depthGuard (held : Holds s h tree) (leaves : tree.SequentialLeaves)
    (nonempty : tree.units ≠ []) (policy : h.policy = .blocking) {o : WriteOptions}
    (unquoted : o.quoted = false) (shallow : o.depth ≤ maxDepth) (t : Transcript)
    (grants : chunkBytes ≤ t.budget.maxAllocation.toNat) (room_pos : 0 < t.buffer.left)
    (uncut : cutIndex? mode t.buffer.left (tree.shallowUnits o.depth) = none) :
    ((h.write s mode o t).1 = .ok () ↔ o.depth + tree.reach ≤ maxDepth) ∧
    (o.depth + tree.reach ≤ maxDepth →
      (h.write s mode o t).2.buffer = t.buffer.add (mode.text tree.units)) ∧
    (maxDepth < o.depth + tree.reach →
      (h.write s mode o t).1 = .error (.depthExceeded (maxDepth + 1)) ∧
      (h.write s mode o t).2.buffer = t.buffer.add (mode.text (tree.shallowUnits o.depth) ++
        "<maximum depth exceeded>".toList.take
          (t.buffer.left - utf8Length (mode.text (tree.shallowUnits o.depth))))) := by
  have granted : ∀ e, ¬ Refused t.budget h.policy e := by
    rw [policy]
    exact not_refused grants
  have delivered := held.play_script_delivers mode granted shallow nonempty room_pos
  have barrier := StringTree.firstBarrier?_contributions leaves shallow
  have before : unitsBefore o.depth tree.contributions = tree.shallowUnits o.depth :=
    unitsBefore_eq_shallowPieces fun p => StringTree.startsAscii_of_mem_contributions leaves
  rw [← before] at uncut
  rw [h.write_eq_run s mode unquoted]
  simp only [run, Outcome.applyTo]
  by_cases within : o.depth + tree.reach ≤ maxDepth
  · rw [if_pos within] at barrier
    obtain ⟨text, ending⟩ := delivered.finished barrier uncut
    rw [before, StringTree.shallowUnits_of_reach_le within] at text
    rw [text, ending]
    exact ⟨iff_of_true rfl within, fun _ => rfl, fun deep => absurd within (Nat.not_le.2 deep)⟩
  · rw [if_neg within] at barrier
    obtain ⟨text, e, ending, rfl⟩ := delivered.failed barrier uncut
    rw [before] at text
    rw [text, ending]
    exact ⟨iff_of_false (by simp [Ending.result]) within, fun near => absurd near within,
      fun _ => ⟨rfl, rfl⟩⟩

/-- A concatenation in a concatenation lies too deep if the outer one does nearly. -/
theorem write_outerCons :
    (Sample.outerCons.write Sample.barredHeap .raw { depth := 511 } (Sample.transcript 99)).1 =
      .error (.depthExceeded 513) ∧
    (Sample.outerCons.write Sample.barredHeap .raw { depth := 511 }
        (Sample.transcript 99)).2.buffer =
      { capacity := 99, text := "中h<maximum depth exceeded>" } := by
  have leaves : StringTree.SequentialLeaves (.concatenated (.sequential [0x4e2d, 0x68])
      (.concatenated (.sequential [0x4e2d, 0x68]) (.sequential [0x4e2d, 0x68]))) :=
    ⟨trivial, trivial, trivial⟩
  have unquoted : ({ depth := 511 } : WriteOptions).quoted = false := rfl
  have uncut : cutIndex? .raw (Sample.transcript 99).buffer.left (StringTree.shallowUnits
      (.concatenated (.sequential [0x4e2d, 0x68])
        (.concatenated (.sequential [0x4e2d, 0x68]) (.sequential [0x4e2d, 0x68]))) 511) = none := by
    decide +kernel
  have written := Sample.holds_outerCons.write_depthGuard leaves (by decide) rfl unquoted
    (by decide) (Sample.transcript 99) (by decide) (by decide) uncut
  obtain ⟨failed, text⟩ := written.2.2 (by decide +kernel)
  exact ⟨failed, text.trans (by decide +kernel)⟩

end HeapString

end Postmortem
