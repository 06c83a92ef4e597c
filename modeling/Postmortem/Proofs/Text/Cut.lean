import Postmortem.HeapString.Write
import Postmortem.Proofs.Text.Room

/-! # Text cut for a buffer

`cutText` is the text of code units for a buffer with so many bytes left: all of it, or, from the
first unit on that comes when no more bytes are left than the truncation marker takes
(`cutIndex?`), as much of the marker as fits.

* Text can be cut part by part: a second part is cut for the room that the first one leaves
  (`cutIndex?_append`, `cutText_append`).
* The marker gets three to five bytes if there were at least five (`room_of_cutIndex?`), and five if
  every unit takes one byte (`room_of_single_bytes`). -/

namespace Postmortem

/-- The text of units in a buffer without end. -/
def EscapeMode.text (mode : EscapeMode) (units : List UInt16) : List Char :=
  units.flatMap mode.escape

/-- The least number of units, if not all of them, whose text leaves no more bytes than the
truncation marker takes. -/
def cutIndex? (mode : EscapeMode) (room : Nat) (units : List UInt16) : Option Nat :=
  (List.range units.length).find? fun k =>
    room - utf8Length (mode.text (units.take k)) ≤ truncationMarker.utf8ByteSize

/-- The text of units in a buffer with `room` bytes left. -/
def cutText (mode : EscapeMode) (room : Nat) (units : List UInt16) : List Char :=
  match cutIndex? mode room units with
  | none => mode.text units
  | some k =>
    let kept := mode.text (units.take k)
    kept ++ truncationMarker.toList.take (room - utf8Length kept)

section cut

variable (mode : EscapeMode) (room : Nat)

theorem text_cons (unit : UInt16) (units : List UInt16) :
    mode.text (unit :: units) = mode.escape unit ++ mode.text units := List.flatMap_cons

theorem text_append (units more : List UInt16) :
    mode.text (units ++ more) = mode.text units ++ mode.text more := List.flatMap_append

theorem text_replicate_of_plain {c : Char} (h : Plain c) (n : Nat) :
    mode.text (List.replicate n (UInt16.ofNat c.toNat)) = List.replicate n c := by
  induction n with
  | zero => rfl
  | succ n ih =>
    rw [List.replicate_succ, text_cons, ih, mode.escape_of_plain h, List.singleton_append,
      ← List.replicate_succ]

/-! ## Where a text is cut -/

@[simp] theorem cutIndex?_nil : cutIndex? mode room [] = none := rfl

theorem cutIndex?_cons (unit : UInt16) (units : List UInt16) :
    cutIndex? mode room (unit :: units) =
      if room ≤ truncationMarker.utf8ByteSize then some 0
      else (cutIndex? mode (room - utf8Length (mode.escape unit)) units).map (· + 1) := by
  rw [cutIndex?, List.length_cons, List.range_succ_eq_map, List.find?_cons, List.take_zero]
  have whole : room - utf8Length (mode.text []) = room := Nat.sub_zero room
  rw [whole]
  split
  · rename_i short
    rw [if_pos (of_decide_eq_true short)]
  · rename_i more
    rw [if_neg (of_decide_eq_false more), List.find?_map, cutIndex?]
    congr 2
    funext k
    simp [text_cons, Nat.sub_sub]

variable {mode room} in
theorem cutIndex?_cons_eq_none {unit : UInt16} {units : List UInt16} :
    cutIndex? mode room (unit :: units) = none ↔
      truncationMarker.utf8ByteSize < room ∧
        cutIndex? mode (room - utf8Length (mode.escape unit)) units = none := by
  rw [cutIndex?_cons]
  split
  · rename_i short
    simp [Nat.not_lt.2 short]
  · rename_i more
    simp [Nat.lt_of_not_le more]

variable {mode room} in
theorem cutIndex?_cons_eq_some {unit : UInt16} {units : List UInt16} {k : Nat}
    (cut : cutIndex? mode room (unit :: units) = some k) :
    room ≤ truncationMarker.utf8ByteSize ∧ k = 0 ∨
      truncationMarker.utf8ByteSize < room ∧ ∃ j, k = j + 1 ∧
        cutIndex? mode (room - utf8Length (mode.escape unit)) units = some j := by
  rw [cutIndex?_cons] at cut
  split at cut
  · rename_i short
    exact .inl ⟨short, (Option.some.inj cut).symm⟩
  · rename_i more
    obtain ⟨j, rest, rfl⟩ := Option.map_eq_some_iff.1 cut
    exact .inr ⟨Nat.lt_of_not_le more, j, rfl, rest⟩

theorem cutIndex?_append (units more : List UInt16) :
    cutIndex? mode room (units ++ more) =
      (cutIndex? mode room units).or
        ((cutIndex? mode (room - utf8Length (mode.text units)) more).map (· + units.length)) := by
  induction units generalizing room with
  | nil => simp [EscapeMode.text]
  | cons unit units ih =>
    rw [List.cons_append, cutIndex?_cons, cutIndex?_cons, ih, text_cons, utf8Length_append,
      ← Nat.sub_sub, List.length_cons]
    split
    · rfl
    · cases cutIndex? mode (room - utf8Length (mode.escape unit)) units with
      | some k => rfl
      | none =>
        simp only [Option.none_or, Option.map_map, Option.map_none]
        rfl

/-! ## What is left of it -/

theorem cutText_cons (unit : UInt16) (units : List UInt16) :
    cutText mode room (unit :: units) =
      if room ≤ truncationMarker.utf8ByteSize then truncationMarker.toList.take room
      else mode.escape unit ++ cutText mode (room - utf8Length (mode.escape unit)) units := by
  cases cut : cutIndex? mode room (unit :: units) with
  | none =>
    obtain ⟨more, uncut⟩ := cutIndex?_cons_eq_none.1 cut
    rw [if_neg (Nat.not_le.2 more), cutText, cut, cutText, uncut, text_cons]
  | some k =>
    rcases cutIndex?_cons_eq_some cut with ⟨short, rfl⟩ | ⟨more, j, rfl, rest⟩
    · rw [if_pos short, cutText, cut]
      rfl
    · rw [if_neg (Nat.not_le.2 more), cutText, cut, cutText, rest]
      simp only [List.take_succ_cons, text_cons, utf8Length_append, Nat.sub_sub, List.append_assoc]

@[simp] theorem cutText_zero (units : List UInt16) : cutText mode 0 units = [] := by
  cases units with
  | nil => rfl
  | cons unit units => rw [cutText_cons, if_pos (Nat.zero_le _), List.take_zero]

variable {mode room}

theorem cutText_eq_text {units : List UInt16} (uncut : cutIndex? mode room units = none) :
    cutText mode room units = mode.text units := by
  rw [cutText, uncut]

/-- A text with room for the marker after it is not cut. -/
theorem cutIndex?_eq_none_of_room {units : List UInt16}
    (enough : utf8Length (mode.text units) + truncationMarker.utf8ByteSize ≤ room) :
    cutIndex? mode room units = none := by
  induction units generalizing room with
  | nil => rfl
  | cons unit units ih =>
    have unitLength := mode.utf8Length_escape_pos unit
    rw [text_cons, utf8Length_append] at enough
    exact cutIndex?_cons_eq_none.2 ⟨by omega, ih (by omega)⟩

/-- **Text is cut part by part.** -/
theorem cutText_append {units : List UInt16} (more : List UInt16) :
    cutText mode room (units ++ more) =
      if cutIndex? mode room units = none then
        mode.text units ++ cutText mode (room - utf8Length (mode.text units)) more
      else cutText mode room units := by
  induction units generalizing room with
  | nil => simp [EscapeMode.text]
  | cons unit units ih =>
    rw [List.cons_append, cutText_cons, cutText_cons, cutIndex?_cons, ih, text_cons,
      utf8Length_append, ← Nat.sub_sub, List.append_assoc]
    by_cases short : room ≤ truncationMarker.utf8ByteSize
    · rw [if_pos short, if_pos short, if_pos short, if_neg (Option.some_ne_none 0)]
    · rw [if_neg short, if_neg short, if_neg short]
      by_cases uncut : cutIndex? mode (room - utf8Length (mode.escape unit)) units = none
      · rw [if_pos uncut, if_pos (Option.map_eq_none_iff.2 uncut)]
      · rw [if_neg uncut, if_neg fun h => uncut (Option.map_eq_none_iff.1 h)]

/-! ## The room for the marker -/

theorem room_pos_of_uncut {units : List UInt16} (room_pos : 0 < room)
    (uncut : cutIndex? mode room units = none) : 0 < room - utf8Length (mode.text units) := by
  induction units generalizing room with
  | nil => exact room_pos
  | cons unit units ih =>
    obtain ⟨more, uncut⟩ := cutIndex?_cons_eq_none.1 uncut
    have unitLength := mode.utf8Length_escape_le unit
    have marker : truncationMarker.utf8ByteSize = 5 := rfl
    rw [text_cons, utf8Length_append, ← Nat.sub_sub]
    exact ih (by omega) uncut

/-- The marker gets three to five bytes if there were that many. -/
theorem room_of_cutIndex? {units : List UInt16} {k : Nat}
    (cut : cutIndex? mode room units = some k) :
    room - utf8Length (mode.text (units.take k)) ≤ truncationMarker.utf8ByteSize ∧
      min 3 room ≤ room - utf8Length (mode.text (units.take k)) := by
  induction units generalizing room k with
  | nil => cases cut
  | cons unit units ih =>
    rcases cutIndex?_cons_eq_some cut with ⟨short, rfl⟩ | ⟨more, j, rfl, rest⟩
    · exact ⟨short, Nat.min_le_right 3 room⟩
    · have unitLength := mode.utf8Length_escape_le unit
      have marker : truncationMarker.utf8ByteSize = 5 := rfl
      have bounds := ih rest
      rw [List.take_succ_cons, text_cons, utf8Length_append, ← Nat.sub_sub]
      omega

/-- The marker gets its five bytes if there were that many and each unit takes one byte. -/
theorem room_of_single_bytes {units : List UInt16} {k : Nat}
    (single : ∀ unit ∈ units, utf8Length (mode.escape unit) = 1)
    (enough : truncationMarker.utf8ByteSize ≤ room) (cut : cutIndex? mode room units = some k) :
    room - utf8Length (mode.text (units.take k)) = truncationMarker.utf8ByteSize := by
  induction units generalizing room k with
  | nil => cases cut
  | cons unit units ih =>
    rcases cutIndex?_cons_eq_some cut with ⟨short, rfl⟩ | ⟨more, j, rfl, rest⟩
    · exact Nat.le_antisymm short enough
    · have one := single unit List.mem_cons_self
      rw [one] at rest
      rw [List.take_succ_cons, text_cons, utf8Length_append, ← Nat.sub_sub, one]
      exact ih (fun unit mem => single unit (List.mem_cons_of_mem _ mem)) (by omega) rest

end cut

/-- A text ends with the whole marker if and only if no byte of the marker was cut off. -/
theorem truncationMarker_isSuffix_iff {before : List Char} {room : Nat} (pos : 0 < room)
    (short : room ≤ truncationMarker.utf8ByteSize) :
    truncationMarker.toList <:+ before ++ truncationMarker.toList.take room ↔
      room = truncationMarker.utf8ByteSize := by
  have marker : truncationMarker.toList = ['[', '.', '.', '.', ']'] := rfl
  have size : truncationMarker.utf8ByteSize = 5 := rfl
  constructor
  · rintro ⟨init, same⟩
    have last := congrArg List.getLast? same
    rw [size] at short ⊢
    obtain rfl | rfl | rfl | rfl | rfl : room = 1 ∨ room = 2 ∨ room = 3 ∨ room = 4 ∨ room = 5 := by
      omega
    all_goals simp [marker] at last ⊢
  · rintro rfl
    exact List.suffix_append _ _

end Postmortem
