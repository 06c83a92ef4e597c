import Postmortem.Proofs.HeapString.Flatten

/-! # The course of the writing

The writing of a tree comes to its leaves from left to right. It goes on until it is done, the
buffer is full, or a leaf bars it: one that lies deeper than strings are followed, or external
characters of which the first one asked for is not ASCII (`Barrier`).

* `StringTree.nestedPieces` lists the leaves that a range of the text comes from, with the number of
  concatenations and slices around each.
* `HeapString.Holds.play_rangeScript_delivers` says that a range is written up to the first leaf
  that bars it. Neither the height of the tree nor its characters are restricted.

`Sample.barredHeap` has an example of either barrier. -/

namespace Postmortem

/-- What a leaf has of a range of characters, and how many concatenations and slices are around
it. -/
structure NestedPiece extends Piece where
  depth : Nat
  deriving DecidableEq, Repr

/-- The same piece under one more string. -/
def NestedPiece.deeper (p : NestedPiece) : NestedPiece := { p with depth := p.depth + 1 }

@[simp] theorem NestedPiece.units_deeper (p : NestedPiece) : p.deeper.units = p.units := rfl

@[simp] theorem NestedPiece.toPiece_deeper (p : NestedPiece) : p.deeper.toPiece = p.toPiece := rfl

namespace StringTree

/-- The leaves that a range of characters comes from, in the order of the text. -/
def nestedPieces : StringTree → (start length : Nat) → List NestedPiece
  | .sequential units, start, length => [⟨⟨false, (units.drop start).take length⟩, 0⟩]
  | .external units, start, length => [⟨⟨true, (units.drop start).take length⟩, 0⟩]
  | .concatenated first second, start, length =>
    let split := first.units.length
    let stop := start + length
    ((if start < split then first.nestedPieces start (min length (split - start)) else []) ++
      (if split < stop then second.nestedPieces (start - split) (stop - max split start)
        else [])).map NestedPiece.deeper
  | .sliced parent offset bound, start, length =>
    (parent.nestedPieces (offset + start) (min length (bound - start))).map NestedPiece.deeper

theorem map_toPiece_nestedPieces (tree : StringTree) (start length : Nat) :
    (tree.nestedPieces start length).map NestedPiece.toPiece = tree.pieces start length := by
  induction tree generalizing start length with
  | sequential units | external units => rfl
  | concatenated first second ih ih' =>
    simp only [nestedPieces, pieces, List.map_map, List.map_append]
    congr 1
    · split
      · exact ih _ _
      · rfl
    · split
      · exact ih' _ _
      · rfl
  | sliced parent offset bound ih =>
    simp only [nestedPieces, pieces, List.map_map]
    exact ih _ _

theorem flatMap_nestedPieces (tree : StringTree) (start length : Nat) :
    (tree.nestedPieces start length).flatMap (·.units) = (tree.units.drop start).take length := by
  rw [← flatMap_pieces, ← map_toPiece_nestedPieces, List.flatMap_map]

theorem depth_le_height {tree : StringTree} {start length : Nat} {p : NestedPiece}
    (mem : p ∈ tree.nestedPieces start length) : p.depth ≤ tree.height := by
  induction tree generalizing start length p with
  | sequential units | external units => simp_all [nestedPieces, height]
  | concatenated first second ih ih' =>
    obtain ⟨q, inner, rfl⟩ := List.mem_map.1 mem
    rcases List.mem_append.1 inner with inner | inner <;> split at inner
    · exact Nat.succ_le_succ (Nat.le_trans (ih inner) (Nat.le_max_left _ _))
    · cases inner
    · exact Nat.succ_le_succ (Nat.le_trans (ih' inner) (Nat.le_max_right _ _))
    · cases inner
  | sliced parent offset bound ih =>
    obtain ⟨q, inner, rfl⟩ := List.mem_map.1 mem
    exact Nat.succ_le_succ (ih inner)

/-- Every leaf that is listed has characters of the range. -/
theorem units_ne_nil_of_mem_nestedPieces {tree : StringTree} {start length : Nat} {p : NestedPiece}
    (pos : 0 < length) (range : start + length ≤ tree.units.length)
    (mem : p ∈ tree.nestedPieces start length) : p.units ≠ [] := by
  induction tree generalizing start length p with
  | sequential units | external units =>
    rw [List.mem_singleton.1 mem]
    simp only [StringTree.units] at range
    simp only [ne_eq, List.take_eq_nil_iff, List.drop_eq_nil_iff]
    omega
  | concatenated first second ih ih' =>
    rw [units, List.length_append] at range
    obtain ⟨q, inner, rfl⟩ := List.mem_map.1 mem
    rcases List.mem_append.1 inner with inner | inner <;> split at inner
    · refine ih (p := q) ?_ ?_ inner <;> omega
    · cases inner
    · refine ih' (p := q) ?_ ?_ inner <;> omega
    · cases inner
  | sliced parent offset bound ih =>
    rw [units, List.length_take, List.length_drop] at range
    obtain ⟨q, inner, rfl⟩ := List.mem_map.1 mem
    refine ih (p := q) ?_ ?_ inner <;> omega

theorem nestedPieces_ne_nil {tree : StringTree} {start length : Nat} (pos : 0 < length)
    (range : start + length ≤ tree.units.length) : tree.nestedPieces start length ≠ [] := by
  intro noPieces
  have text := tree.flatMap_nestedPieces start length
  rw [noPieces, List.flatMap_nil, eq_comm, List.take_eq_nil_iff, List.drop_eq_nil_iff] at text
  omega

end StringTree

/-! ## Barriers -/

/-- Why the writing does not go past a leaf. -/
inductive Barrier where
  /-- The leaf lies deeper than strings are followed. -/
  | tooDeep
  /-- External characters do not look like ASCII text. -/
  | nonAscii
  deriving DecidableEq, Repr

namespace Barrier

/-- What is written in place of the leaf. -/
def placeholder : Barrier → Placeholder
  | .tooDeep => .tooDeep
  | .nonAscii => .nonAscii

/-- The error is the one that the writing fails with. -/
def Explains : Barrier → DecodeError → Prop
  | .tooDeep, e => e = .depthExceeded (maxDepth + 1)
  | .nonAscii, e => ∃ address, e = .nonAsciiData address

end Barrier

instance (p : Piece) : Decidable p.StartsAscii :=
  inferInstanceAs (Decidable (_ → ∀ unit ∈ p.units.head?, unit < 0x80))

/-- What bars the piece, if it is one of a string nested `depth` deep. -/
def NestedPiece.barrier? (depth : Nat) (p : NestedPiece) : Option Barrier :=
  if maxDepth < depth + p.depth then some .tooDeep
  else if p.StartsAscii then none
  else some .nonAscii

theorem NestedPiece.barrier?_deeper (depth : Nat) (p : NestedPiece) :
    p.deeper.barrier? depth = p.barrier? (depth + 1) := by
  have same : depth + p.deeper.depth = depth + 1 + p.depth := by
    simp only [NestedPiece.deeper]
    omega
  rw [barrier?, barrier?, same]
  rfl

/-- The first barrier among the pieces of a string nested `depth` deep. -/
def firstBarrier? (depth : Nat) (pieces : List NestedPiece) : Option Barrier :=
  pieces.findSome? (·.barrier? depth)

/-- The units before the first barrier. -/
def unitsBefore (depth : Nat) (pieces : List NestedPiece) : List UInt16 :=
  (pieces.takeWhile fun p => p.barrier? depth = none).flatMap (·.units)

section barriers

variable {depth : Nat} {pieces more : List NestedPiece}

theorem firstBarrier?_eq_none : firstBarrier? depth pieces = none ↔
    ∀ p ∈ pieces, p.barrier? depth = none :=
  List.findSome?_eq_none_iff

theorem firstBarrier?_append : firstBarrier? depth (pieces ++ more) =
    (firstBarrier? depth pieces).or (firstBarrier? depth more) :=
  List.findSome?_append

theorem firstBarrier?_deeper : firstBarrier? depth (pieces.map .deeper) =
    firstBarrier? (depth + 1) pieces := by
  simp only [firstBarrier?, List.findSome?_map, Function.comp_def, NestedPiece.barrier?_deeper]

theorem unitsBefore_deeper : unitsBefore depth (pieces.map .deeper) =
    unitsBefore (depth + 1) pieces := by
  simp only [unitsBefore, List.takeWhile_map, Function.comp_def, NestedPiece.barrier?_deeper,
    List.flatMap_map, NestedPiece.units_deeper]

theorem takeWhile_append_of_none (free : firstBarrier? depth pieces = none) :
    (pieces ++ more).takeWhile (fun p => p.barrier? depth = none) =
      pieces ++ more.takeWhile fun p => p.barrier? depth = none :=
  List.takeWhile_append_of_pos (by simpa using firstBarrier?_eq_none.1 free)

theorem unitsBefore_of_none (free : firstBarrier? depth pieces = none) :
    unitsBefore depth pieces = pieces.flatMap (·.units) := by
  rw [unitsBefore, ← List.append_nil pieces, takeWhile_append_of_none free, List.takeWhile_nil]

theorem unitsBefore_append_of_none (free : firstBarrier? depth pieces = none) :
    unitsBefore depth (pieces ++ more) = unitsBefore depth pieces ++ unitsBefore depth more := by
  rw [unitsBefore, takeWhile_append_of_none free, List.flatMap_append, unitsBefore_of_none free]
  rfl

theorem unitsBefore_append_of_some {b : Barrier} (barred : firstBarrier? depth pieces = some b) :
    unitsBefore depth (pieces ++ more) = unitsBefore depth pieces := by
  induction pieces with
  | nil => cases barred
  | cons p pieces ih =>
    simp only [unitsBefore, List.cons_append, List.takeWhile_cons] at ih ⊢
    cases here : p.barrier? depth with
    | some b' => simp
    | none =>
      rw [firstBarrier?, List.findSome?_cons, here] at barred
      simp [ih barred]

end barriers

/-! ## Outcomes -/

namespace Outcome

/-- The leaf was not written: its placeholder was added, as far as there was room, and the writing
failed. -/
def Barred (b : Barrier) (room : Nat) (o : Outcome) : Prop :=
  o.text = b.placeholder.text.toList.take room ∧ ∃ e, o.ending = .failed e ∧ b.Explains e

/-- The units were written, cut for the room, and after all of them came the barrier, if there is
one. -/
def Reaches (mode : EscapeMode) (room : Nat) (units : List UInt16) (barrier : Option Barrier)
    (o : Outcome) : Prop :=
  match barrier with
  | none => o.Writes mode room units
  | some b =>
    if cutIndex? mode room units = none then
      ∃ after : Outcome, o.text = mode.text units ++ after.text ∧ o.ending = after.ending ∧
        after.Barred b (room - utf8Length (mode.text units))
    else o.Writes mode room units

/-- The pieces of a string nested `depth` deep were written up to the first barrier. -/
def Delivers (mode : EscapeMode) (room depth : Nat) (pieces : List NestedPiece) (o : Outcome) :
    Prop :=
  o.Reaches mode room (unitsBefore depth pieces) (firstBarrier? depth pieces)

variable {mode : EscapeMode} {room depth : Nat} {units more : List UInt16} {o o' : Outcome}

theorem Writes.append_reaches {barrier : Option Barrier} (h : o.Writes mode room units)
    (h' : cutIndex? mode room units = none → o.text = mode.text units →
      o'.Reaches mode (room - utf8Length o.text) more barrier) :
    (o.append o').Reaches mode room (units ++ more) barrier := by
  by_cases done : o.ending = .finished
  · obtain ⟨uncut, text⟩ := h.uncut done
    have rest := h' uncut text
    cases barrier with
    | none => exact h.append fun _ => rest
    | some b =>
      rw [text] at rest
      simp only [Reaches, cutIndex?_append, uncut, Option.none_or, Option.map_eq_none_iff] at rest ⊢
      split
      · rename_i uncut'
        rw [if_pos uncut'] at rest
        obtain ⟨after, added, ended, barred⟩ := rest
        refine ⟨after, ?_, ?_, ?_⟩
        · rw [append_of_finished done, text, added, text_append, List.append_assoc]
        · rw [append_of_finished done, ended]
        · rw [text_append, utf8Length_append, ← Nat.sub_sub]
          exact barred
      · rename_i cut
        rw [if_neg cut] at rest
        exact h.append fun _ => by rwa [text]
  · have stopped := h.of_stopped done more
    rw [append_of_not_finished done]
    cases barrier with
    | none => exact stopped
    | some b =>
      have cut : cutIndex? mode room (units ++ more) ≠ none := fun uncut =>
        done (by
          rw [cutIndex?_append, Option.or_eq_none_iff] at uncut
          rw [h.ending, if_pos uncut.1])
      rw [Reaches, if_neg cut]
      exact stopped

theorem Reaches.append {b : Barrier} (h : o.Reaches mode room units (some b)) (o' : Outcome) :
    (o.append o').Reaches mode room units (some b) := by
  have stopped : o.ending ≠ .finished := by
    rw [Reaches] at h
    split at h
    · obtain ⟨after, -, ended, -, e, failed, -⟩ := h
      simp [ended, failed]
    · rename_i cut
      simp [h.ending, cut]
  rwa [append_of_not_finished stopped]

/-- Outcomes that differ in the events only deliver the same. -/
theorem Reaches.congr {barrier : Option Barrier} (h : o.Reaches mode room units barrier)
    (text : o'.text = o.text) (ending : o'.ending = o.ending) :
    o'.Reaches mode room units barrier := by
  cases barrier with
  | none => exact ⟨text.trans h.text, ending.trans h.ending⟩
  | some b =>
    rw [Reaches] at h ⊢
    split
    · rename_i uncut
      rw [if_pos uncut] at h
      obtain ⟨after, added, ended, barred⟩ := h
      exact ⟨after, text.trans added, ending.trans ended, barred⟩
    · rename_i cut
      rw [if_neg cut] at h
      exact ⟨text.trans h.text, ending.trans h.ending⟩

theorem Delivers.finished {pieces : List NestedPiece} (h : o.Delivers mode room depth pieces)
    (free : firstBarrier? depth pieces = none)
    (uncut : cutIndex? mode room (unitsBefore depth pieces) = none) :
    o.text = mode.text (unitsBefore depth pieces) ∧ o.ending = .finished := by
  rw [Delivers, free] at h
  exact ⟨h.text.trans (cutText_eq_text uncut), h.ending.trans (if_pos uncut)⟩

theorem Delivers.failed {pieces : List NestedPiece} (h : o.Delivers mode room depth pieces)
    {b : Barrier} (barred : firstBarrier? depth pieces = some b)
    (uncut : cutIndex? mode room (unitsBefore depth pieces) = none) :
    o.text = mode.text (unitsBefore depth pieces) ++
        b.placeholder.text.toList.take (room - utf8Length (mode.text (unitsBefore depth pieces))) ∧
      ∃ e, o.ending = .failed e ∧ b.Explains e := by
  rw [Delivers, barred, Reaches, if_pos uncut] at h
  obtain ⟨after, added, ended, text, e, failed, explained⟩ := h
  exact ⟨by rw [added, text], e, ended.trans failed, explained⟩

theorem Delivers.nil : (play mode room []).Delivers mode room depth [] := writes_nil mode room

theorem Delivers.of_writes {p : NestedPiece} (free : p.barrier? depth = none)
    (h : o.Writes mode room p.units) : o.Delivers mode room depth [p] := by
  have unbarred : firstBarrier? depth [p] = none := by simp [firstBarrier?, free]
  rw [Delivers, unbarred, unitsBefore_of_none unbarred, List.flatMap_singleton]
  exact h

theorem Delivers.of_barred {p : NestedPiece} {b : Barrier} (barrier : p.barrier? depth = some b)
    (h : o.Barred b room) (more : List NestedPiece) :
    o.Delivers mode room depth (p :: more) := by
  have first : firstBarrier? depth (p :: more) = some b := by simp [firstBarrier?, barrier]
  have before : unitsBefore depth (p :: more) = [] := by simp [unitsBefore, barrier]
  rw [Delivers, first, before]
  exact ⟨o, rfl, rfl, h⟩

theorem Delivers.append {pieces more : List NestedPiece} (h : o.Delivers mode room depth pieces)
    (h' : cutIndex? mode room (pieces.flatMap (·.units)) = none →
      o.text = mode.text (pieces.flatMap (·.units)) →
      o'.Delivers mode (room - utf8Length o.text) depth more) :
    (o.append o').Delivers mode room depth (pieces ++ more) := by
  rw [Delivers] at h ⊢
  rw [firstBarrier?_append]
  cases first : firstBarrier? depth pieces with
  | none =>
    rw [first] at h
    rw [unitsBefore_append_of_none first]
    rw [unitsBefore_of_none first] at h ⊢
    exact h.append_reaches h'
  | some b =>
    rw [first] at h
    rw [unitsBefore_append_of_some first]
    exact h.append o'

theorem Delivers.deeper {pieces : List NestedPiece}
    (h : o.Delivers mode room (depth + 1) pieces) :
    o.Delivers mode room depth (pieces.map .deeper) := by
  rwa [Delivers, unitsBefore_deeper, firstBarrier?_deeper]

theorem Delivers.visit {script : List Action} {pieces : List NestedPiece} (room_pos : 0 < room)
    (h : (play mode room script).Delivers mode room depth pieces) (event : TraceEvent) :
    (play mode room (.gate :: .log event :: script)).Delivers mode room depth pieces := by
  rw [play_visit mode room_pos]
  exact h.congr rfl rfl

end Outcome

/-! ## Leaves -/

namespace HeapString

variable {s : Snapshot} {mode : EscapeMode} {h : HeapString} {base : Word} {units : List UInt16}
  {budget : Budget}

variable (mode) in
theorem charsScript_writes_of_granted (held : s.HoldsUnits h.encoding base units)
    (granted : ∀ e, ¬ Refused budget h.policy e) {start length : Nat}
    (range : start + length ≤ units.length)
    (ascii : h.isExternal = true →
      h.encoding = .oneByte ∧ ∀ unit ∈ ((units.drop start).take length).head?, unit < 0x80)
    (room : Nat) :
    (play mode room (h.charsScript s budget base start length)).Writes mode room
      ((units.drop start).take length) :=
  (charsScript_writes held range ascii budget room).resolve_right fun ⟨e, _, refused⟩ =>
    granted e refused

variable (mode) in
/-- External characters are not written if the first one asked for is not ASCII. -/
theorem charsScript_barred (held : s.HoldsUnits h.encoding base units)
    (granted : ∀ e, ¬ Refused budget h.policy e) {start length : Nat} (pos : 0 < length)
    (range : start + length ≤ units.length) (external : h.isExternal = true)
    (oneByte : h.encoding = .oneByte)
    (high : ¬ ∀ unit ∈ ((units.drop start).take length).head?, unit < 0x80) (room : Nat) :
    (play mode room (h.charsScript s budget base start length)).Barred .nonAscii room := by
  have countPos : 0 < min length h.chunkLength := by
    have := h.chunkLength_pos
    omega
  obtain ⟨address, bytes, found, read, chunk⟩ := read_chunk held countPos
    (show start + min length h.chunkLength ≤ units.length by omega)
  have sameHead : (h.encoding.units bytes).head? = ((units.drop start).take length).head? := by
    rw [chunk, List.head?_take, List.head?_take, if_neg (by omega), if_neg (by omega)]
  have first : 0x80 ≤ bytes.headD 0 := by
    rw [← sameHead, oneByte, ← headD_lt_iff] at high
    exact UInt8.not_lt.1 high
  have looks : h.isExternal = true ∧ True ∧ 0x80 ≤ bytes.headD 0 := ⟨external, trivial, first⟩
  rw [charsScript_of_granted granted, chunkScript, if_neg (by omega)]
  simp only [Nat.add_zero, found, read, orFail, play_log]
  rw [if_pos looks]
  exact ⟨by simp [play, Action.perform, Outcome.append, Barrier.placeholder], _, rfl, _, rfl⟩

/-! ## Trees -/

/-- Every leaf of a string that is not followed is barred. -/
theorem delivers_of_no_levels (budget : Budget) (h : HeapString) {depth : Nat}
    (deep : depth = maxDepth + 1) {tree : StringTree} {start length : Nat} (pos : 0 < length)
    (range : start + length ≤ tree.units.length) (room : Nat) :
    (play mode room (rangeScript s budget 0 h depth start length)).Delivers mode room depth
      (tree.nestedPieces start length) := by
  have leaves := StringTree.nestedPieces_ne_nil pos range
  cases pieces : tree.nestedPieces start length with
  | nil => exact absurd pieces leaves
  | cons p more =>
    have barrier : p.barrier? depth = some .tooDeep := if_pos (by omega)
    refine .of_barred barrier ⟨?_, _, rfl, ?_⟩ more
    · simp [rangeScript, play, Action.perform, Outcome.append, Barrier.placeholder]
    · simp [Barrier.Explains, deep]

/-- **A range of a tree is written up to the first leaf that bars it.** The tree may be higher than
strings are followed, and the characters of external strings need not be ASCII. -/
theorem Holds.play_rangeScript_delivers {tree : StringTree} (held : Holds s h tree)
    (granted : ∀ e, ¬ Refused budget h.policy e) {levels depth : Nat}
    (level : levels + depth = maxDepth + 1) {start length : Nat} (pos : 0 < length)
    (range : start + length ≤ tree.units.length) {room : Nat} (room_pos : 0 < room) :
    (play mode room (rangeScript s budget levels h depth start length)).Delivers mode room depth
      (tree.nestedPieces start length) := by
  induction held generalizing levels depth start length room with
  | @sequential h base units shown found held whole =>
    cases levels with
    | zero => exact delivers_of_no_levels budget h (by omega) pos range room
    | succ levels =>
      have inside : start + length ≤ units.length := range
      rw [rangeScript_sequential (by omega) budget levels depth shown found]
      refine .visit room_pos (.of_writes ?_ ?_) _
      · have ascii : Piece.StartsAscii ⟨false, (units.drop start).take length⟩ := nofun
        rw [NestedPiece.barrier?, if_neg (by dsimp only; omega), if_pos ascii]
      · have internal : ¬ h.isExternal = true := by simp [isExternal, shown]
        exact charsScript_writes_of_granted mode held granted inside (absurd · internal) room
  | @external h resource base units shown oneByte held whole =>
    cases levels with
    | zero => exact delivers_of_no_levels budget h (by omega) pos range room
    | succ levels =>
      have inside : start + length ≤ units.length := range
      rw [rangeScript_external (by omega) budget levels depth shown]
      refine .visit room_pos ?_ _
      rw [play_excuse]
      by_cases low : ∀ unit ∈ ((units.drop start).take length).head?, unit < 0x80
      · have written := charsScript_writes_of_granted mode held granted inside
          (fun _ => ⟨oneByte, low⟩) room
        rw [Outcome.excused_of_not_failed written.not_failed]
        have ascii : Piece.StartsAscii ⟨true, (units.drop start).take length⟩ := fun _ => low
        refine .of_writes ?_ written
        rw [NestedPiece.barrier?, if_neg (by dsimp only; omega), if_pos ascii]
      · have external : h.isExternal = true := by simp [isExternal, shown]
        have barred := charsScript_barred mode held granted pos inside external oneByte low room
        have high : ¬ Piece.StartsAscii ⟨true, (units.drop start).take length⟩ :=
          fun ascii => low (ascii rfl)
        have barrier : NestedPiece.barrier? depth ⟨⟨true, (units.drop start).take length⟩, 0⟩ =
            some .nonAscii := by
          rw [NestedPiece.barrier?, if_neg (by dsimp only; omega), if_neg high]
        refine .of_barred barrier ?_ []
        obtain ⟨text, e, failed, address, rfl⟩ := barred
        rw [Outcome.excused, failed]
        exact ⟨text, _, failed, address, rfl⟩
  | @concatenated h first second w w' tree tree' shown loaded loaded' held held' whole ih ih' =>
    cases levels with
    | zero => exact delivers_of_no_levels budget h (by omega) pos range room
    | succ levels =>
      have split := held.length_units
      have split' := held'.length_units
      rw [StringTree.units, List.length_append] at range
      rw [policy_of_load loaded] at ih
      rw [policy_of_load loaded'] at ih'
      rw [rangeScript_concatenated (by omega) budget levels depth shown loaded loaded']
      simp only [StringTree.nestedPieces, split]
      refine .visit room_pos (.deeper ?_) _
      -- The part that lies in the first half, then the part that lies in the second.
      rw [play_append]
      refine .append ?_ fun uncut text => ?_
      · by_cases before : start < first.length
        · simp only [if_pos before]
          exact ih granted (by omega) (by omega) (by omega) room_pos
        · simp only [if_neg before]
          exact .nil
      · -- The first half was not cut, so there is room for the visit to the second one.
        have room_pos' := room_pos_of_uncut room_pos uncut
        rw [← text] at room_pos'
        by_cases beyond : first.length < start + length
        · simp only [if_pos beyond]
          exact ih' granted (by omega) (by omega) (by omega) room_pos'
        · simp only [if_neg beyond]
          exact .nil
  | @sliced h parent w offset tree shown loaded held whole ih =>
    cases levels with
    | zero => exact delivers_of_no_levels budget h (by omega) pos range room
    | succ levels =>
      have split := held.length_units
      rw [StringTree.units, List.length_take, List.length_drop] at range
      have short : min length (h.length - start) = length := by omega
      rw [policy_of_load loaded] at ih
      rw [rangeScript_sliced (by omega) budget levels depth shown loaded whole]
      simp only [StringTree.nestedPieces, short]
      exact .visit room_pos (.deeper (ih granted (by omega) pos (by omega) room_pos)) _

end HeapString

/-! ## A sample

The heap of `Sample.heap` with other characters outside it, of which the second is not ASCII, and
with a concatenation in a concatenation. -/

namespace Sample

/-- The words of the heap. -/
def barredWords : List Nat :=
  words.set 20 0x6463e961 ++
    [0x1031, 0, 4 <<< 32, 0x1051, 0x1051,
      0x1031, 0, 6 <<< 32, 0x1051, 0x10f9]

/-- The only segment of the heap. -/
def barredSegment : Segment := ⟨0x1000, (barredWords.flatMap wordBytes).toArray⟩

/-- The heap. -/
def barredHeap : Snapshot :=
  ⟨(Image.empty.map barredSegment.base barredSegment.bytes).memory, layout⟩

/-- The header of a concatenation of `twoByte` with itself. -/
def innerCons : HeapString := ⟨0x10f8, 4, 1, .twoByte, .concatenated 0x1051 0x1051, .blocking⟩

/-- The header of the concatenation of `twoByte` and `innerCons`. -/
def outerCons : HeapString := ⟨0x1120, 6, 1, .twoByte, .concatenated 0x1051 0x10f9, .blocking⟩

theorem holdsBytes_barredHeap {base : Word} {bytes : List UInt8} (above : 0x1000 ≤ base.toNat)
    (same : (barredSegment.bytes.toList.drop (base.toNat - 0x1000)).take bytes.length = bytes)
    (inSpace : base.toNat + bytes.length ≤ Word.top) : barredHeap.HoldsBytes base bytes := by
  have first : barredSegment.base.toNat = 0x1000 := rfl
  refine holdsBytes_of_segment (show base.toNat = barredSegment.base.toNat + _ by omega)
    (fun start _ => ?_) same inSpace
  exact List.find?_cons_of_pos (decide_eq_true (by rw [first]; omega))

theorem holds_twoByte_barredHeap : twoByte.Holds barredHeap (.sequential [0x4e2d, 0x68]) := by
  have found : barredHeap.fieldAddress twoByte.address ⟨"SeqTwoByteString", "chars"⟩ =
      .ok 0x1068 := ok_of_toOption (by decide +kernel)
  have held : barredHeap.HoldsBytes 0x1068 [0x2d, 0x4e, 0x68, 0x00] :=
    holdsBytes_barredHeap (by decide) (by decide +kernel) (by decide)
  exact .sequential rfl found (held.units .twoByte (show 4 = 2 * 2 from rfl)) rfl

theorem holds_external_barredHeap :
    external.Holds barredHeap (.external [0x61, 0xe9, 0x63, 0x64]) := by
  have held : barredHeap.HoldsBytes 0x10a0 [0x61, 0xe9, 0x63, 0x64] :=
    holdsBytes_barredHeap (by decide) (by decide +kernel) (by decide)
  exact .external rfl rfl (held.units .oneByte (show 4 = 4 * 1 from rfl)) rfl

theorem load_external_barredHeap :
    HeapString.load barredHeap 0x1071 .blocking = .ok external :=
  ok_of_toOption (by decide +kernel)

theorem holds_outerCons : outerCons.Holds barredHeap
    (.concatenated (.sequential [0x4e2d, 0x68])
      (.concatenated (.sequential [0x4e2d, 0x68]) (.sequential [0x4e2d, 0x68]))) := by
  have first : HeapString.load barredHeap 0x1051 .blocking = .ok twoByte :=
    ok_of_toOption (by decide +kernel)
  have second : HeapString.load barredHeap 0x10f9 .blocking = .ok innerCons :=
    ok_of_toOption (by decide +kernel)
  have inner : innerCons.Holds barredHeap
      (.concatenated (.sequential [0x4e2d, 0x68]) (.sequential [0x4e2d, 0x68])) :=
    .concatenated (show innerCons.representation = .concatenated 0x1051 0x1051 from rfl) first first
      holds_twoByte_barredHeap holds_twoByte_barredHeap rfl
  exact .concatenated (show outerCons.representation = .concatenated 0x1051 0x10f9 from rfl) first
    second holds_twoByte_barredHeap inner rfl

end Sample

end Postmortem
