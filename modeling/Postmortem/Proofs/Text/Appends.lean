import Mathlib.Data.List.Forall2
import Postmortem.Proofs.Text.Room

/-! # Runs of edits

A buffer is changed by appends, reservations and rewinds in any order (`TextBuffer.editAll`). An
append adds texts one after the other (`TextBuffer.Edit.appended`), each as far as the room goes
that the ones before have left (`taken`), and changes nothing else.

* The texts of an append are pushed one by one (`TextBuffer.edit_of_isAppend`). Units of a text are
  not looked at once the buffer is full, but none of them would have been added.
* What is taken of each text is its beginning, in whole characters, and all of it together fits
  (`isPrefix_taken`, `utf8Length_taken_le`).
* The text stays within the capacity and the margin within a word, whatever comes next
  (`TextBuffer.Sound.edit`).

`TextBuffer.editAll_invariants` says what holds in each state of a run and of each step from
there. -/

namespace Postmortem

/-! ## Texts one after the other -/

/-- What is taken of each text, if they are added one after the other to a buffer with so many bytes
left. -/
def taken : Nat → List (List Char) → List (List Char)
  | _, [] => []
  | room, text :: texts =>
    fitting room text :: taken (room - utf8Length (fitting room text)) texts

theorem isPrefix_taken (room : Nat) (texts : List (List Char)) :
    List.Forall₂ (· <+: ·) (taken room texts) texts := by
  induction texts generalizing room with
  | nil => exact .nil
  | cons text texts ih => exact .cons (fitting_isPrefix room text) (ih _)

theorem utf8Length_taken_le (room : Nat) (texts : List (List Char)) :
    utf8Length (taken room texts).flatten ≤ room := by
  induction texts generalizing room with
  | nil => exact Nat.zero_le room
  | cons text texts ih =>
    have first := utf8Length_fitting_le room text
    have rest := ih (room - utf8Length (fitting room text))
    rw [taken, List.flatten_cons, utf8Length_append]
    omega

theorem taken_append (room : Nat) (texts more : List (List Char)) :
    taken room (texts ++ more) =
      taken room texts ++ taken (room - utf8Length (taken room texts).flatten) more := by
  induction texts generalizing room with
  | nil => rfl
  | cons text texts ih =>
    rw [List.cons_append, taken, ih, taken, List.cons_append, List.flatten_cons, utf8Length_append,
      Nat.sub_sub]

/-- Whatever is taken comes from the texts, in their order. -/
theorem taken_sublist (room : Nat) (texts : List (List Char)) :
    (taken room texts).flatten.Sublist texts.flatten := by
  induction texts generalizing room with
  | nil => exact .slnil
  | cons text texts ih => exact (fitting_isPrefix room text).sublist.append (ih _)

/-- Of characters of one byte as many are taken as there are bytes left. -/
theorem taken_eq_take {texts : List (List Char)}
    (narrow : ∀ text ∈ texts, ∀ c ∈ text, c.utf8Size = 1) (room : Nat) :
    (taken room texts).flatten = texts.flatten.take room := by
  induction texts generalizing room with
  | nil => exact List.take_nil.symm
  | cons text texts ih =>
    obtain ⟨first, rest⟩ := List.forall_mem_cons.1 narrow
    have size : utf8Length (text.take room) = min room text.length := by
      rw [utf8Length_eq_length fun c mem => first c (List.mem_of_mem_take mem), List.length_take]
    have left : room - min room text.length = room - text.length := by omega
    rw [taken, List.flatten_cons, fitting_eq_take first, ih rest, size, left, List.flatten_cons,
      List.take_append]

namespace TextBuffer

/-- The texts that a change appends one after the other. -/
def Edit.appended : Edit → List (List Char)
  | .units mode added => added.map mode.escape
  | .text .raw added | .format added => [added.toList]
  | .text mode added => (added.toList.flatMap utf16).map mode.escape
  | .reserve _ | .rewind => []

/-- Whether a change is an append. -/
def Edit.IsAppend : Edit → Prop
  | .units .. | .text .. | .format _ => True
  | .reserve _ | .rewind => False

instance : DecidablePred Edit.IsAppend
  | .units .. | .text .. | .format _ => isTrue trivial
  | .reserve _ | .rewind => isFalse id

theorem Edit.isAppend_or (e : Edit) : e.IsAppend ∨ (∃ n, e = .reserve n) ∨ e = .rewind := by
  cases e with
  | units | text | format => exact .inl trivial
  | reserve n => exact .inr (.inl ⟨n, rfl⟩)
  | rewind => exact .inr (.inr rfl)

/-- The buffer after changes, one after the other. -/
def editAll (b : TextBuffer) (edits : List Edit) : TextBuffer := edits.foldl edit b

variable {b : TextBuffer}

theorem length_add (text : List Char) : (b.add text).length = b.length + utf8Length text := by
  rw [length, add, String.utf8ByteSize_append, utf8ByteSize_ofList, length]

theorem foldl_push (b : TextBuffer) (texts : List (List Char)) :
    texts.foldl push b = b.add (taken b.left texts).flatten := by
  induction texts generalizing b with
  | nil => exact b.add_nil.symm
  | cons text texts ih =>
    rw [List.foldl_cons, ih, push_eq_add, left_add, add_add, taken, List.flatten_cons]

theorem pushUnit_of_full (full : b.left = 0) (mode : EscapeMode) (unit : UInt16) :
    b.pushUnit mode unit = b := by
  rw [pushUnit, push_eq_add, full, fitting_zero, add_nil]

/-- Nothing shows that units are not looked at any more once the buffer is full. -/
theorem pushUnits_eq_foldl (b : TextBuffer) (mode : EscapeMode) (units : List UInt16) :
    b.pushUnits mode units = units.foldl (·.pushUnit mode) b := by
  induction units generalizing b with
  | nil => rfl
  | cons unit rest ih =>
    rw [pushUnits, List.foldl_cons, ← ih]
    split
    · rename_i full
      rw [pushUnit_of_full full]
      cases rest with
      | nil => rfl
      | cons next rest => rw [pushUnits, if_pos full]
    · rfl

theorem foldl_pushUnit (b : TextBuffer) (mode : EscapeMode) (units : List UInt16) :
    units.foldl (·.pushUnit mode) b = (units.map mode.escape).foldl push b := by
  rw [List.foldl_map]
  rfl

/-- **An append pushes its texts one by one.** -/
theorem edit_of_isAppend {e : Edit} (append : e.IsAppend) (b : TextBuffer) :
    b.edit e = e.appended.foldl push b := by
  cases e with
  | units mode units => exact b.foldl_pushUnit mode units
  | format text => rfl
  | text mode text =>
    cases mode with
    | raw => rfl
    | asciiOnly | json => exact (b.pushUnits_eq_foldl _ _).trans (b.foldl_pushUnit _ _)
  | reserve | rewind => cases append

theorem edit_eq_add {e : Edit} (append : e.IsAppend) (b : TextBuffer) :
    b.edit e = b.add (taken b.left e.appended).flatten := by
  rw [edit_of_isAppend append, foldl_push]

/-! ## The margin -/

/-- The margin after a change: what is held back is a sum that stays between nothing and the largest
word, and only reservations and rewinds change it. -/
def Edit.margin (held : Int) : Edit → Int
  | .reserve n => max 0 (min Word.top (held + n))
  | .rewind => 0
  | .units .. | .text .. | .format _ => held

theorem Edit.margin_of_isAppend {e : Edit} (append : e.IsAppend) (held : Int) :
    e.margin held = held := by
  cases e with
  | units | text | format => rfl
  | reserve | rewind => cases append

/-- What holds of a buffer in every state. -/
structure Sound (b : TextBuffer) : Prop where
  length_le : b.length ≤ b.capacity
  reserved_le : b.reserved ≤ Word.top

theorem sound_ofCapacity (capacity : Nat) : (ofCapacity capacity).Sound where
  length_le := Nat.zero_le capacity
  reserved_le := Nat.zero_le _

@[simp] theorem capacity_edit (b : TextBuffer) (e : Edit) : (b.edit e).capacity = b.capacity := by
  obtain append | ⟨n, rfl⟩ | rfl := e.isAppend_or
  · rw [edit_eq_add append, capacity_add]
  · rfl
  · rfl

theorem reserved_edit (bound : b.reserved ≤ Word.top) (e : Edit) :
    ((b.edit e).reserved : Int) = e.margin b.reserved := by
  obtain append | ⟨n, rfl⟩ | rfl := e.isAppend_or
  · rw [edit_eq_add append, reserved_add, Edit.margin_of_isAppend append]
  · simp only [edit, reserve, Edit.margin, Word.capped]
    split <;> omega
  · rfl

/-- The bytes of the text, the margin and the bytes left make up the capacity, as long as any are
left. -/
theorem length_add_left (room : 0 < b.left) : b.length + b.reserved + b.left = b.capacity := by
  rw [left] at room ⊢
  omega

/-- **What an append adds keeps off the margin.** -/
theorem length_edit_le {e : Edit} (append : e.IsAppend)
    (added : (taken b.left e.appended).flatten ≠ []) :
    (b.edit e).length + b.reserved ≤ b.capacity := by
  have fits := utf8Length_taken_le b.left e.appended
  have pos : 0 < utf8Length (taken b.left e.appended).flatten := utf8Length_pos added
  have sum := length_add_left (b := b) (by omega)
  rw [edit_eq_add append, length_add]
  omega

theorem Sound.edit (sound : b.Sound) (e : Edit) : (b.edit e).Sound := by
  refine ⟨?length, ?reserved⟩
  case reserved =>
    have margin := reserved_edit sound.reserved_le e
    have bound := sound.reserved_le
    cases e with
    | units | text | format | reserve | rewind =>
      simp only [Edit.margin] at margin
      omega
  case length =>
    rw [capacity_edit]
    obtain append | ⟨n, rfl⟩ | rfl := e.isAppend_or
    · by_cases added : (taken b.left e.appended).flatten = []
      · rw [edit_eq_add append, added, add_nil]
        exact sound.length_le
      · exact Nat.le_trans (Nat.le_add_right _ _) (length_edit_le append added)
    · exact sound.length_le
    · exact Nat.zero_le _

/-! ## Runs -/

theorem editAll_cons (b : TextBuffer) (e : Edit) (edits : List Edit) :
    b.editAll (e :: edits) = (b.edit e).editAll edits := rfl

@[simp] theorem capacity_editAll (b : TextBuffer) (edits : List Edit) :
    (b.editAll edits).capacity = b.capacity := by
  induction edits generalizing b with
  | nil => rfl
  | cons e edits ih => rw [editAll_cons, ih, capacity_edit]

theorem Sound.editAll (sound : b.Sound) (edits : List Edit) : (b.editAll edits).Sound := by
  induction edits generalizing b with
  | nil => exact sound
  | cons e edits ih => exact ih (sound.edit e)

theorem reserved_editAll (sound : b.Sound) (edits : List Edit) :
    ((b.editAll edits).reserved : Int) = edits.foldl Edit.margin b.reserved := by
  induction edits generalizing b with
  | nil => rfl
  | cons e edits ih =>
    rw [editAll_cons, ih (sound.edit e), List.foldl_cons, reserved_edit sound.reserved_le]

/-- Whatever is no rewind keeps the text and may only add to it. -/
theorem text_edit_isPrefix {e : Edit} (keeps : e ≠ .rewind) :
    b.text.toList <+: (b.edit e).text.toList := by
  obtain append | ⟨n, rfl⟩ | rfl := e.isAppend_or
  · rw [edit_eq_add append, toList_text_add]
    exact List.prefix_append _ _
  · exact List.prefix_rfl
  · exact absurd rfl keeps

theorem text_editAll_isPrefix {edits : List Edit} (keeps : .rewind ∉ edits) :
    b.text.toList <+: (b.editAll edits).text.toList := by
  induction edits generalizing b with
  | nil => exact List.prefix_rfl
  | cons e edits ih =>
    obtain ⟨first, rest⟩ := List.ne_and_not_mem_of_not_mem_cons keeps
    exact (text_edit_isPrefix first.symm).trans (ih rest)

/-- **What holds in every state of a buffer,** after any run of changes. The text does not exceed
the capacity; the margin is what the reservations since the last rewind come to, as far as a word
counts it; and the bytes left are the rest of the capacity, or none. An append keeps the margin and
adds the beginnings of its texts, in whole characters, and if that is anything at all, the text ends
before the margin. A reservation keeps the text, a rewind removes the text and the margin, and no
run without a rewind removes any text. -/
theorem editAll_invariants (capacity : Nat) (edits : List Edit) :
    let b := (ofCapacity capacity).editAll edits
    b.capacity = capacity ∧ b.length ≤ capacity ∧
    (b.reserved : Int) = edits.foldl Edit.margin 0 ∧
    (b.left : Int) = max 0 (capacity - b.reserved - b.length : Int) ∧
    (∀ e : Edit, e.IsAppend → (b.edit e).reserved = b.reserved ∧
      ∃ added : List (List Char), List.Forall₂ (· <+: ·) added e.appended ∧
        (b.edit e).text = b.text ++ String.ofList added.flatten ∧
        (added.flatten ≠ [] → ((b.edit e).length : Int) ≤ capacity - b.reserved)) ∧
    (∀ n, (b.edit (.reserve n)).text = b.text) ∧
    (b.edit .rewind).text = "" ∧ (b.edit .rewind).reserved = 0 ∧
    ∀ more, .rewind ∉ more → b.text.toList <+: (b.editAll more).text.toList := by
  intro b
  have sound : b.Sound := (sound_ofCapacity capacity).editAll edits
  have whole : b.capacity = capacity := capacity_editAll _ edits
  refine ⟨whole, whole ▸ sound.length_le, reserved_editAll (sound_ofCapacity capacity) edits, ?left,
    fun e append => ?append, fun n => rfl, rfl, rfl, fun more keeps => text_editAll_isPrefix keeps⟩
  case left =>
    rw [left, whole]
    omega
  case append =>
    refine ⟨by rw [edit_eq_add append, reserved_add], taken b.left e.appended,
      isPrefix_taken _ _, by rw [edit_eq_add append]; rfl, fun added => ?_⟩
    have fits := length_edit_le append added
    rw [whole] at fits
    omega

/-- With two of six bytes held back, a character of two bytes does not fit behind three, and one of
one byte does. -/
theorem editAll_held_back :
    let b := (ofCapacity 6).editAll [.format "abc", .reserve 2]
    let b' := b.edit (.units .raw [0xe9, 0x64])
    b'.text = "abcd" ∧ b'.reserved = 2 ∧ (b'.length : Int) ≤ 6 - 2 ∧
    b.text.toList <+: (b'.editAll [.reserve (-2), .units .raw [0xe9]]).text.toList := by
  intro b b'
  have text : b.text = "abc" := by decide +kernel
  have text' : b'.text = "abcd" := by decide +kernel
  have held : b.reserved = 2 := by decide +kernel
  obtain ⟨-, -, -, -, append, -, -, -, keeps⟩ := editAll_invariants 6 [.format "abc", .reserve 2]
  obtain ⟨margin, added, -, grown, offMargin⟩ := append (.units .raw [0xe9, 0x64]) trivial
  have grown : b'.text = b.text ++ String.ofList added.flatten := grown
  have more : added.flatten ≠ [] := by
    intro nothing
    rw [text, text', nothing] at grown
    exact absurd grown (by decide)
  have short : (b'.length : Int) ≤ 6 - b.reserved := offMargin more
  rw [held] at short
  have kept : b.text.toList <+:
      (b.editAll [.units .raw [0xe9, 0x64], .reserve (-2), .units .raw [0xe9]]).text.toList :=
    keeps _ (by decide)
  rw [editAll_cons b] at kept
  exact ⟨text', margin.trans held, short, kept⟩

end TextBuffer

end Postmortem
