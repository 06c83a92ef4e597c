import Postmortem.Proofs.HeapString.Flatten

/-! # Lengths that are not to be trusted

A header announces a length, and a slice an offset. Neither was checked against the strings that the
header names. Every string takes of the range that it is asked for the part that it has
(`HeapString.rangeScript_clamp`), so a range is written as the part of it that lies in the tree
(`HeapString.Holds.play_rangeScript_clamped`).

* `HeapString.Announces` says which characters there are of those that a slice or a concatenation
  announces.
* `HeapString.Announces.write_clamped` says that just these are written. -/

namespace Postmortem

section lists

variable {α : Type} (l : List α) (start length : Nat)

/-- A range may be clamped before it is taken. -/
theorem take_drop_clamp :
    (l.drop (min start l.length)).take (min length (l.length - min start l.length)) =
      (l.drop start).take length := by
  rcases Nat.le_total start l.length with inside | beyond
  · rw [Nat.min_eq_left inside, ← List.length_drop, ← List.take_eq_take_min]
  · rw [Nat.min_eq_right beyond, List.drop_length, List.drop_of_length_le beyond, List.take_nil,
      List.take_nil]

theorem extract_clamp :
    l.extract (min start l.length) (min (start + length) l.length) =
      (l.drop start).take length := by
  have count : min (start + length) l.length - min start l.length =
      min length (l.length - min start l.length) := by omega
  rw [List.extract_eq_take_drop, count, take_drop_clamp]

end lists

namespace Sample

/-- The header of a slice of `twoByte` that announces forty characters from the second one on. -/
def longSlice : HeapString := ⟨0x10a8, 40, 7, .oneByte, .sliced 0x1051 1, .blocking⟩

/-- The header of a concatenation of `twoByte` with itself that announces three characters. -/
def shortCons : HeapString :=
  ⟨0x10d0, 3, 1, .twoByte, .concatenated 0x1051 0x1051, .blocking⟩

end Sample

namespace HeapString

variable {s : Snapshot} {mode : EscapeMode} {h : HeapString} {tree : StringTree}

/-! ## Ranges -/

/-- A string that is asked for a range takes the part of it that it has. -/
theorem rangeScript_clamp (s : Snapshot) (budget : Budget) (levels : Nat) (h : HeapString)
    (depth start length : Nat) :
    rangeScript s budget levels h depth start length =
      rangeScript s budget levels h depth (min start h.length)
        (min length (h.length - min start h.length)) := by
  cases levels with
  | zero => rfl
  | succ levels => simp only [rangeScript, Nat.min_assoc, Nat.min_self]

variable (mode) in
/-- **Any range is written as the part of it that the tree has,** wherever it begins and ends. -/
theorem Holds.play_rangeScript_clamped (held : Holds s h tree) (leaves : tree.SequentialLeaves)
    (budget : Budget) (levels depth start length : Nat) {room : Nat} (room_pos : 0 < room) :
    (play mode room (rangeScript s budget levels h depth start length)).WritesUnless
      (fun e => Refused budget h.policy e ∨ levels ≤ tree.height) mode room
      ((tree.units.drop start).take length) := by
  have inside : min start h.length + min length (h.length - min start h.length) ≤ h.length := by
    omega
  have clamped := take_drop_clamp tree.units start length
  rw [held.length_units] at clamped
  rw [rangeScript_clamp, ← clamped]
  exact held.play_rangeScript budget levels depth inside room_pos (.of_sequentialLeaves leaves)

/-! ## Headers that announce too much -/

/-- A slice or a concatenation announces characters of the strings that it names, and any of them: a
slice may begin and end beyond its parent, a concatenation may be shorter or longer than its halves.
`units` are the characters there are of those announced, and the strings named are as high as
`height`. -/
inductive Announces (s : Snapshot) (h : HeapString) :
    (height : Nat) → (units : List UInt16) → Prop where
  | sliced {w : Word} {offset : Nat} {parent : HeapString} {tree : StringTree}
      (shown : h.representation = .sliced w offset) (loaded : load s w h.policy = .ok parent)
      (held : Holds s parent tree) (leaves : tree.SequentialLeaves) :
      Announces s h tree.height
        (tree.units.extract (min offset tree.units.length)
          (min (offset + h.length) tree.units.length))
  | concatenated {w w' : Word} {first second : HeapString} {tree tree' : StringTree}
      (shown : h.representation = .concatenated w w') (loaded : load s w h.policy = .ok first)
      (loaded' : load s w' h.policy = .ok second) (held : Holds s first tree)
      (held' : Holds s second tree') (leaves : tree.SequentialLeaves)
      (leaves' : tree'.SequentialLeaves) :
      Announces s h (max tree.height tree'.height)
        ((tree.units ++ tree'.units).take (min h.length (tree.units.length + tree'.units.length)))

namespace Announces

variable {height : Nat} {units : List UInt16}

/-- Past the end of a string that was loaded it makes no difference that an offset is capped. -/
theorem drop_capped {w : Word} {policy : AllocationPolicy} (loaded : load s w policy = .ok h)
    (held : Holds s h tree) (offset : Nat) :
    tree.units.drop (Word.capped offset) = tree.units.drop offset := by
  have short : tree.units.length ≤ Word.top := by
    rw [held.length_units]
    exact length_le_of_load loaded
  rcases Nat.le_total offset Word.top with inWord | beyond
  · rw [Word.capped_eq_self inWord]
  · rw [Word.capped, Nat.min_eq_right beyond, List.drop_of_length_le short,
      List.drop_of_length_le (Nat.le_trans short beyond)]

theorem play_script (announced : Announces s h height units) (budget : Budget) (levels depth : Nat)
    {room : Nat} (room_pos : 0 < room) :
    (play mode room (rangeScript s budget (levels + 1) h depth 0 h.length)).WritesUnless
      (fun e => Refused budget h.policy e ∨ levels ≤ height) mode room units := by
  cases announced with
  | @sliced w offset parent tree shown loaded held leaves =>
    have script : rangeScript s budget (levels + 1) h depth 0 h.length =
        .gate :: .log (.visited { string := h, depth, start := 0, length := h.length }) ::
          rangeScript s budget levels parent (depth + 1) (Word.capped offset) h.length := by
      simp only [rangeScript, shown, loaded, orFail, Nat.zero_min, Nat.sub_zero, Nat.min_self,
        Nat.add_zero]
    rw [script, extract_clamp, ← drop_capped loaded held, ← policy_of_load loaded]
    exact .visit (held.play_rangeScript_clamped mode leaves budget levels (depth + 1) _ _ room_pos)
      room_pos _
  | @concatenated w w' first second tree tree' shown loaded loaded' held held' leaves leaves' =>
    have split := held.length_units
    rw [rangeScript_concatenated (Nat.le_of_eq (Nat.zero_add _)) budget levels depth shown loaded
      loaded', ← List.length_append, ← List.take_eq_take_min, List.take_append, split]
    refine .visit ?_ room_pos _
    -- What the first half has of the characters announced, then what the second has of the rest.
    rw [play_append]
    refine .append ?_ fun uncut text => ?_
    · by_cases pos : 0 < first.length
      · have part := held.play_rangeScript_clamped mode leaves budget levels (depth + 1) 0
          (min h.length first.length) room_pos
        rw [policy_of_load loaded, List.drop_zero, ← split, ← List.take_eq_take_min, split] at part
        rw [if_pos pos]
        exact part.mono fun e => Or.imp_right fun high => Nat.le_trans high (Nat.le_max_left _ _)
      · have noUnits : tree.units = [] := List.eq_nil_of_length_eq_zero (by omega)
        rw [if_neg pos, noUnits, List.take_nil]
        exact .inl (writes_nil mode room)
    · rw [text]
      have room_pos' := room_pos_of_uncut room_pos uncut
      by_cases beyond : first.length < 0 + h.length
      · have part := held'.play_rangeScript_clamped mode leaves' budget levels (depth + 1)
          (0 - first.length) (0 + h.length - max first.length 0) room_pos'
        rw [if_pos beyond]
        simp only [Nat.zero_sub, Nat.zero_add, Nat.max_zero, List.drop_zero,
          policy_of_load loaded'] at part ⊢
        exact part.mono fun e => Or.imp_right fun high => Nat.le_trans high (Nat.le_max_right _ _)
      · have noMore : h.length - first.length = 0 := by omega
        rw [if_neg beyond, noMore, List.take_zero]
        exact .inl (writes_nil mode _)

variable (mode) in
/-- **A slice or a concatenation is written as the characters there are of those it announces.** The
strings that it names can be read, they are not nested too deep and have no characters outside the
heap, and storage is taken under the policy `blocking` from a budget that grants a chunk. Then the
writing succeeds, whatever length and offset the header has, and adds the text of these characters,
cut for the buffer: all of it if the buffer is large enough (`cutText_eq_text`). -/
theorem write_clamped (announced : Announces s h height units) (policy : h.policy = .blocking)
    {o : WriteOptions} (unquoted : o.quoted = false) (deep : o.depth + height < maxDepth)
    (t : Transcript) (grants : chunkBytes ≤ t.budget.maxAllocation.toNat) :
    (h.write s mode o t).1 = .ok () ∧
      (h.write s mode o t).2.buffer = t.buffer.add (cutText mode t.buffer.left units) := by
  have levels : maxDepth + 1 - o.depth = maxDepth - o.depth + 1 := by omega
  have written (room_pos : 0 < t.buffer.left) :
      (play mode t.buffer.left (h.script s t.budget o.depth)).WritesUnless
        (fun e => Refused t.budget h.policy e ∨ maxDepth - o.depth ≤ height) mode t.buffer.left
        units := by
    rw [script, levels]
    exact announced.play_script t.budget (maxDepth - o.depth) o.depth room_pos
  have shallow : o.depth ≤ maxDepth := by omega
  rw [h.write_eq_run s mode unquoted]
  rcases play_script_of_room t.budget shallow written with ⟨done, text⟩ | ⟨e, -, refused | high⟩
  · exact ⟨done, congrArg t.buffer.add text⟩
  · rw [policy] at refused
    exact absurd refused (not_refused grants e)
  · omega

/-- The slice has one of its forty characters, the concatenation has one more than its three. -/
theorem write_clamped_samples :
    ((Sample.longSlice.write Sample.heap .raw {} (Sample.transcript 99)).1 = .ok () ∧
      (Sample.longSlice.write Sample.heap .raw {} (Sample.transcript 99)).2.buffer =
        { capacity := 99, text := "h" }) ∧
    ((Sample.shortCons.write Sample.heap .raw {} (Sample.transcript 99)).1 = .ok () ∧
      (Sample.shortCons.write Sample.heap .raw {} (Sample.transcript 99)).2.buffer =
        { capacity := 99, text := "中h中" }) := by
  constructor
  · have announced : Announces Sample.heap Sample.longSlice _ _ :=
      .sliced rfl Sample.load_twoByte Sample.holds_twoByte trivial
    have written := write_clamped .raw (o := {}) announced rfl rfl (by decide)
      (Sample.transcript 99) (by decide)
    exact ⟨written.1, written.2.trans (by decide +kernel)⟩
  · have announced : Announces Sample.heap Sample.shortCons _ _ :=
      .concatenated rfl Sample.load_twoByte Sample.load_twoByte Sample.holds_twoByte
        Sample.holds_twoByte trivial trivial
    have written := write_clamped .raw (o := {}) announced rfl rfl (by decide)
      (Sample.transcript 99) (by decide)
    exact ⟨written.1, written.2.trans (by decide +kernel)⟩

end Announces

end HeapString

end Postmortem
