import Postmortem.Proofs.Text.Appends

/-! # Two capacities

The same appends go to two buffers, the first of no greater capacity than the second. Both take the
same up to a character that only the second one has room for. The first one is not full then: it
drops the character, and what is appended later may still fit.

* Of one text the smaller room takes all that the larger one takes, or stops before a character that
  is too wide for it (`fitting_cases`).
* Such a character makes a `Gap` in what the smaller room takes of texts: with the character goes
  what follows it in its text, and of the texts after that one is taken what fits the bytes that are
  left (`Gap.taken_eq`). Without a gap both rooms take the same (`taken_eq_or_exists_gap`).

`TextBuffer.texts_of_capacities` says this of runs of appends, and exactly when the text of the
first buffer is a prefix of that of the second: where nothing stands behind the gap, so always if
every character takes one byte (`TextBuffer.Edit.Narrow`). -/

namespace Postmortem

/-! ## What two rooms take of a text -/

/-- A text is taken up to a character that is too wide. -/
theorem fitting_eq_front {room : Nat} {front : List Char} {c : Char}
    (fits : utf8Length front ≤ room) (tooWide : room < utf8Length front + c.utf8Size)
    (back : List Char) : fitting room (front ++ c :: back) = front := by
  rw [fitting_append fits, fitting, if_neg (by omega), List.append_nil]

/-- Less room takes the same of a text, or stops before a character too wide for it. -/
theorem fitting_cases {room room' : Nat} (le : room ≤ room') (text : List Char) :
    fitting room text = fitting room' text ∨
      ∃ c back, text = fitting room text ++ c :: back ∧
        fitting room text ++ [c] <+: fitting room' text ∧
        room < utf8Length (fitting room text) + c.utf8Size := by
  induction text generalizing room room' with
  | nil => exact .inl rfl
  | cons c text ih =>
    by_cases fits : c.utf8Size ≤ room
    · have short : fitting room (c :: text) = c :: fitting (room - c.utf8Size) text := if_pos fits
      have long : fitting room' (c :: text) = c :: fitting (room' - c.utf8Size) text :=
        if_pos (Nat.le_trans fits le)
      rw [short, long]
      rcases ih (Nat.sub_le_sub_right le c.utf8Size) with same | ⟨d, back, parts, next, tooWide⟩
      · exact .inl (congrArg _ same)
      · refine .inr ⟨d, back, congrArg _ parts, (List.prefix_cons_inj c).2 next, ?_⟩
        rw [utf8Length_cons]
        omega
    · have nothing : fitting room (c :: text) = [] := if_neg fits
      rw [nothing]
      by_cases fits' : c.utf8Size ≤ room'
      · have long : fitting room' (c :: text) = c :: fitting (room' - c.utf8Size) text :=
          if_pos fits'
        refine .inr ⟨c, text, rfl, long ▸ List.prefix_append [c] _, ?_⟩
        rw [utf8Length_nil]
        omega
      · exact .inl (if_neg fits').symm

/-! ## Gaps -/

/-- A gap in what is taken of texts that are added one after the other to a buffer with `room` bytes
left: a character of one of the texts that is too wide for the bytes that are left when it comes. -/
structure Gap (room : Nat) (texts : List (List Char)) where
  before : List (List Char)
  /-- What stands before the character in its text. -/
  front : List Char
  dropped : Char
  /-- What follows the character in its text and is dropped with it. -/
  back : List Char
  after : List (List Char)
  split : texts = before ++ (front ++ dropped :: back) :: after
  fits : utf8Length ((taken room before).flatten ++ front) ≤ room
  tooWide : room < utf8Length ((taken room before).flatten ++ front) + dropped.utf8Size

namespace Gap

variable {room : Nat} {texts : List (List Char)} (gap : Gap room texts)

/-- What is taken up to the character. -/
def kept : List Char := (taken room gap.before).flatten ++ gap.front

/-- What is taken of the texts after that of the character. -/
def rest : List Char := (taken (room - utf8Length gap.kept) gap.after).flatten

/-- **What is taken of texts with a gap** stands on both sides of it. -/
theorem taken_eq : (taken room texts).flatten = gap.kept ++ gap.rest := by
  have fits := gap.fits
  have tooWide := gap.tooWide
  rw [utf8Length_append] at fits tooWide
  have front : fitting (room - utf8Length (taken room gap.before).flatten)
      (gap.front ++ gap.dropped :: gap.back) = gap.front :=
    fitting_eq_front (by omega) (by omega) gap.back
  have parts := congrArg (taken room) gap.split
  rw [parts, taken_append, taken, front, List.flatten_append, List.flatten_cons, rest, kept,
    utf8Length_append, Nat.sub_sub, List.append_assoc]

/-- Behind the gap stands what an empty buffer of as many bytes takes of the texts there. -/
theorem text_after :
    (gap.after.foldl TextBuffer.push (.ofCapacity (room - utf8Length gap.kept))).text.toList =
      gap.rest := by
  rw [TextBuffer.foldl_push, TextBuffer.toList_text_add]
  rfl

theorem rest_sublist : gap.rest.Sublist gap.after.flatten := taken_sublist _ _

theorem utf8Length_rest_lt : utf8Length gap.rest < gap.dropped.utf8Size := by
  have rest : utf8Length gap.rest ≤ room - utf8Length gap.kept := utf8Length_taken_le _ _
  have fits : utf8Length gap.kept ≤ room := gap.fits
  have tooWide : room < utf8Length gap.kept + gap.dropped.utf8Size := gap.tooWide
  omega

/-- What is taken is no prefix of a text that has the character, unless nothing stands behind the
gap: what stands there is too narrow to be the character. -/
theorem isPrefix_iff {text : List Char} (next : gap.kept ++ [gap.dropped] <+: text) :
    gap.kept ++ gap.rest <+: text ↔ gap.rest = [] := by
  constructor
  · intro begins
    by_contra more
    obtain ⟨d, later, rest⟩ := List.exists_cons_of_ne_nil more
    rw [rest] at begins
    have next' : gap.kept ++ [d] <+: text :=
      ((List.prefix_append_right_inj _).2 (List.prefix_append [d] later)).trans begins
    have equal : gap.kept ++ [d] = gap.kept ++ [gap.dropped] :=
      (List.prefix_of_prefix_length_le next' next (by simp)).eq_of_length (by simp)
    have same : d = gap.dropped := by simpa using equal
    have narrower := gap.utf8Length_rest_lt
    rw [rest, utf8Length_cons, same] at narrower
    omega
  · intro nothing
    rw [nothing, List.append_nil]
    exact (List.prefix_append _ _).trans next

/-- A gap stays one behind another text, and what is taken of that text stands before it. -/
theorem exists_cons (text : List Char)
    (gap : Gap (room - utf8Length (fitting room text)) texts) :
    ∃ gap' : Gap room (text :: texts),
      gap'.kept = fitting room text ++ gap.kept ∧ gap'.dropped = gap.dropped := by
  have kept : (taken room (text :: gap.before)).flatten ++ gap.front =
      fitting room text ++ gap.kept := List.append_assoc _ _ _
  have size : utf8Length ((taken room (text :: gap.before)).flatten ++ gap.front) =
      utf8Length (fitting room text) + utf8Length gap.kept := by rw [kept, utf8Length_append]
  have first := utf8Length_fitting_le room text
  have fits : utf8Length gap.kept ≤ room - utf8Length (fitting room text) := gap.fits
  have tooWide : room - utf8Length (fitting room text) <
      utf8Length gap.kept + gap.dropped.utf8Size := gap.tooWide
  exact ⟨⟨text :: gap.before, gap.front, gap.dropped, gap.back, gap.after,
    congrArg (text :: ·) gap.split, by omega, by omega⟩, kept, rfl⟩

end Gap

/-- **What two rooms take of texts** is the same, unless there is a gap in what the smaller one
takes that is none for the larger one. -/
theorem taken_eq_or_exists_gap {room room' : Nat} (le : room ≤ room') (texts : List (List Char)) :
    taken room texts = taken room' texts ∨
      ∃ gap : Gap room texts, gap.kept ++ [gap.dropped] <+: (taken room' texts).flatten := by
  induction texts generalizing room room' with
  | nil => exact .inl rfl
  | cons text texts ih =>
    rcases fitting_cases le text with same | ⟨c, back, parts, next, tooWide⟩
    · rcases ih (Nat.sub_le_sub_right le (utf8Length (fitting room text))) with rest | ⟨gap, next⟩
      · left
        rw [taken, taken, rest, same]
      · obtain ⟨gap', kept, dropped⟩ := gap.exists_cons text
        refine .inr ⟨gap', ?_⟩
        rw [kept, dropped, taken, List.flatten_cons, ← same, List.append_assoc]
        exact (List.prefix_append_right_inj _).2 next
    · refine .inr ⟨⟨[], fitting room text, c, back, texts, congrArg (· :: texts) parts,
        utf8Length_fitting_le room text, tooWide⟩, ?_⟩
      rw [taken, List.flatten_cons]
      exact next.trans (List.prefix_append _ _)

/-! ## Characters of one byte -/

theorem EscapeMode.utf8Size_of_mem_escape {mode : EscapeMode} {unit : UInt16}
    (narrow : mode = .raw → unit ≤ 0x7f) {c : Char} (mem : c ∈ mode.escape unit) :
    c.utf8Size = 1 := by
  cases mode with
  | raw =>
    have ascii : unit.toNat ≤ 0x7f := UInt16.le_iff_toNat_le.1 (narrow rfl)
    have valid : unit.toNat.isValidChar := .inl (by omega)
    rw [escape, List.mem_singleton, scalarOrPlaceholder, if_pos valid] at mem
    rw [mem]
    exact utf8Size_eq_one_of_le (by rwa [toNat_ofNat_unit valid])
  | asciiOnly =>
    rw [escape, List.mem_singleton] at mem
    exact mem ▸ (printable_asciiOrPlaceholder unit).utf8Size
  | json =>
    obtain ⟨d, printable, escaped⟩ | kept := escape_json_cases unit
    · rw [escaped, List.mem_cons, List.mem_singleton] at mem
      rcases mem with rfl | rfl
      · rfl
      · exact printable.utf8Size
    · rw [kept, List.mem_singleton] at mem
      exact mem ▸ (printable_asciiOrPlaceholder unit).utf8Size

namespace TextBuffer

/-- Whether each character that an append adds takes one byte: it is escaped, or it is ASCII from
the start. -/
def Edit.Narrow : Edit → Prop
  | .units mode added => mode = .raw → ∀ unit ∈ added, unit ≤ 0x7f
  | .text mode added => mode = .raw → ∀ c ∈ added.toList, c.toNat ≤ 0x7f
  | .format added => ∀ c ∈ added.toList, c.toNat ≤ 0x7f
  | .reserve _ | .rewind => True

theorem Edit.Narrow.utf8Size {e : Edit} (narrow : e.Narrow) {added : List Char}
    (appended : added ∈ e.appended) {c : Char} (mem : c ∈ added) : c.utf8Size = 1 := by
  cases e with
  | units mode units =>
    obtain ⟨unit, among, rfl⟩ := List.mem_map.1 appended
    exact EscapeMode.utf8Size_of_mem_escape (fun raw => narrow raw unit among) mem
  | format text =>
    rw [List.mem_singleton.1 appended] at mem
    exact utf8Size_eq_one_of_le (narrow c mem)
  | text mode text =>
    cases mode with
    | raw =>
      rw [List.mem_singleton.1 appended] at mem
      exact utf8Size_eq_one_of_le (narrow rfl c mem)
    | asciiOnly | json =>
      obtain ⟨unit, -, rfl⟩ := List.mem_map.1 appended
      exact EscapeMode.utf8Size_of_mem_escape (fun raw => by cases raw) mem
  | reserve | rewind => cases appended

/-! ## Two buffers -/

theorem editAll_eq_add {edits : List Edit} (appends : ∀ e ∈ edits, e.IsAppend) (b : TextBuffer) :
    b.editAll edits = b.add (taken b.left (edits.flatMap Edit.appended)).flatten := by
  rw [← foldl_push]
  induction edits generalizing b with
  | nil => rfl
  | cons e edits ih =>
    obtain ⟨append, appends⟩ := List.forall_mem_cons.1 appends
    rw [editAll_cons, ih appends, List.flatMap_cons, List.foldl_append, edit_of_isAppend append]

theorem toList_text_editAll {edits : List Edit} (appends : ∀ e ∈ edits, e.IsAppend)
    (capacity : Nat) :
    ((ofCapacity capacity).editAll edits).text.toList =
      (taken capacity (edits.flatMap Edit.appended)).flatten := by
  rw [editAll_eq_add appends, toList_text_add]
  rfl

/-- **The texts of two capacities.** The same appends go to two empty buffers, the first of no
greater capacity. Both texts are made of characters that were appended, in their order. They are the
same, or the first one has a gap. Then the other text goes on before the gap with the character that
was too wide, and behind the gap stands what an empty buffer of the bytes that are left takes of the
texts after that one, which is less than the character takes. So the first text is a prefix of the
second if and only if nothing stands behind the gap, and it is if each character appended takes one
byte. -/
theorem texts_of_capacities {edits : List Edit} (appends : ∀ e ∈ edits, e.IsAppend)
    {capacity capacity' : Nat} (le : capacity ≤ capacity') :
    let texts := edits.flatMap Edit.appended
    let small := ((ofCapacity capacity).editAll edits).text.toList
    let large := ((ofCapacity capacity').editAll edits).text.toList
    small.Sublist texts.flatten ∧ large.Sublist texts.flatten ∧
    (small = large ∨ ∃ gap : Gap capacity texts,
      small = gap.kept ++ gap.rest ∧ gap.kept ++ [gap.dropped] <+: large ∧
      (gap.after.foldl push (ofCapacity (capacity - utf8Length gap.kept))).text.toList = gap.rest ∧
      gap.rest.Sublist gap.after.flatten ∧ utf8Length gap.rest < gap.dropped.utf8Size ∧
      (small <+: large ↔ gap.rest = [])) ∧
    ((∀ e ∈ edits, e.Narrow) → small <+: large) := by
  intro texts small large
  have small_eq : small = (taken capacity texts).flatten := toList_text_editAll appends capacity
  have large_eq : large = (taken capacity' texts).flatten := toList_text_editAll appends capacity'
  refine ⟨small_eq ▸ taken_sublist capacity texts, large_eq ▸ taken_sublist capacity' texts,
    ?gap, fun narrow => ?narrow⟩
  case gap =>
    rcases taken_eq_or_exists_gap le texts with same | ⟨gap, next⟩
    · left
      rw [small_eq, large_eq, same]
    · rw [← large_eq] at next
      have parts : small = gap.kept ++ gap.rest := small_eq.trans gap.taken_eq
      refine .inr ⟨gap, parts, next, gap.text_after, gap.rest_sublist, gap.utf8Length_rest_lt, ?_⟩
      rw [parts]
      exact gap.isPrefix_iff next
  case narrow =>
    have single : ∀ text ∈ texts, ∀ c ∈ text, c.utf8Size = 1 := by
      intro text mem c among
      obtain ⟨e, run, appended⟩ := List.mem_flatMap.1 mem
      exact (narrow e run).utf8Size appended among
    rw [small_eq, large_eq, taken_eq_take single, taken_eq_take single]
    exact List.take_prefix_take_left le

end TextBuffer

/-- Two characters appended one by one, of which the first takes two bytes. -/
def Sample.accented : List TextBuffer.Edit := [.units .raw [0xe9, 0x61]]

namespace TextBuffer

/-- In a buffer of one byte the second character stands without the first. -/
theorem texts_of_accented :
    (∀ e ∈ Sample.accented, e.IsAppend) ∧ 1 ≤ 3 ∧
    ((ofCapacity 1).editAll Sample.accented).text.toList = ['a'] ∧
    ((ofCapacity 3).editAll Sample.accented).text.toList = ['é', 'a'] ∧
    ∃ gap : Gap 1 (Sample.accented.flatMap Edit.appended),
      ['a'] = gap.kept ++ gap.rest ∧ gap.kept ++ [gap.dropped] <+: ['é', 'a'] ∧
      (gap.after.foldl push (ofCapacity (1 - utf8Length gap.kept))).text.toList = gap.rest ∧
      gap.rest.Sublist gap.after.flatten ∧ utf8Length gap.rest < gap.dropped.utf8Size ∧
      gap.rest ≠ [] := by
  have appends : ∀ e ∈ Sample.accented, e.IsAppend := by decide
  have small := toList_text_editAll appends 1
  have large := toList_text_editAll appends 3
  have small' : (taken 1 (Sample.accented.flatMap Edit.appended)).flatten = ['a'] := by decide
  have large' : (taken 3 (Sample.accented.flatMap Edit.appended)).flatten = ['é', 'a'] := by decide
  rw [small'] at small
  rw [large'] at large
  have le : 1 ≤ 3 := by decide
  obtain ⟨-, -, same | ⟨gap, parts, next, fresh, later, narrower, isPrefix⟩, -⟩ :=
    texts_of_capacities appends le
  · rw [small, large] at same
    cases same
  · rw [small] at parts isPrefix
    rw [large] at next isPrefix
    have more : gap.rest ≠ [] := fun nothing => absurd (isPrefix.2 nothing) (by decide)
    exact ⟨appends, le, small, large, gap, parts, next, fresh, later, narrower, more⟩

/-- With less capacity the text need not be a prefix. -/
theorem not_text_isPrefix :
    ¬ ∀ (edits : List Edit) (capacity capacity' : Nat), (∀ e ∈ edits, e.IsAppend) →
      capacity ≤ capacity' →
      ((ofCapacity capacity).editAll edits).text.toList <+:
        ((ofCapacity capacity').editAll edits).text.toList := by
  intro isPrefix
  have appends : ∀ e ∈ Sample.accented, e.IsAppend := by decide
  have begins := isPrefix Sample.accented 1 3 appends (by decide)
  rw [toList_text_editAll appends, toList_text_editAll appends] at begins
  exact absurd begins (by decide)

end TextBuffer

end Postmortem
