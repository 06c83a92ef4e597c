import Postmortem.Text.Buffer

/-! # Room in a buffer

What is pushed to a buffer is added up to the room that is left. `TextBuffer.add` adds a text
whatever the room; the lemmas say what each way of pushing adds, and how much room it leaves.

* One code unit takes one to three bytes (`utf8Length_escape_pos`, `utf8Length_escape_le`), so with
  three bytes left its whole text is added (`pushUnit_eq_add`).
* Of a text of plain characters, which no mode escapes, as many are added as there are bytes left
  (`pushText_eq_add`). -/

namespace Postmortem

/-! ## Lengths in UTF-8 -/

@[simp] theorem utf8Length_append (text more : List Char) :
    utf8Length (text ++ more) = utf8Length text + utf8Length more := by
  induction text with
  | nil => simp
  | cons c text ih => rw [List.cons_append, utf8Length_cons, utf8Length_cons, ih, Nat.add_assoc]

theorem utf8Length_pos {text : List Char} (h : text ≠ []) : 0 < utf8Length text := by
  cases text with
  | nil => exact absurd rfl h
  | cons c text => exact Nat.add_pos_left c.utf8Size_pos _

theorem eq_nil_of_utf8Length {text : List Char} (h : utf8Length text ≤ 0) : text = [] := by
  cases text with
  | nil => rfl
  | cons c text => exact absurd h (Nat.not_le.2 (utf8Length_pos (List.cons_ne_nil c text)))

theorem utf8ByteSize_ofList (text : List Char) :
    (String.ofList text).utf8ByteSize = utf8Length text := by
  induction text with
  | nil => rfl
  | cons c text ih =>
    rw [String.ofList_cons, String.utf8ByteSize_append, ih]
    simp

theorem utf8Size_eq_one_of_le {c : Char} (ascii : c.toNat ≤ 0x7f) : c.utf8Size = 1 :=
  Char.utf8Size_eq_one_iff.2 (UInt32.le_iff_toNat_le.2 ascii)

theorem utf8Length_eq_length {text : List Char} (h : ∀ c ∈ text, c.utf8Size = 1) :
    utf8Length text = text.length := by
  induction text with
  | nil => rfl
  | cons c text ih =>
    rw [utf8Length_cons, h c List.mem_cons_self, ih fun c hc => h c (List.mem_cons_of_mem _ hc),
      List.length_cons, Nat.add_comm]

theorem fitting_eq_take {text : List Char} (h : ∀ c ∈ text, c.utf8Size = 1) (room : Nat) :
    fitting room text = text.take room := by
  induction text generalizing room with
  | nil => simp [fitting]
  | cons c text ih =>
    have rest : ∀ c ∈ text, c.utf8Size = 1 := fun c hc => h c (List.mem_cons_of_mem _ hc)
    rw [fitting, h c List.mem_cons_self]
    cases room with
    | zero => rfl
    | succ room => rw [if_pos (by omega), ih rest, Nat.add_sub_cancel, List.take_succ_cons]

/-- What has room is kept whole, and what follows gets the room that it leaves. -/
theorem fitting_append {room : Nat} {text : List Char} (fits : utf8Length text ≤ room)
    (more : List Char) :
    fitting room (text ++ more) = text ++ fitting (room - utf8Length text) more := by
  induction text generalizing room with
  | nil => rfl
  | cons c text ih =>
    rw [utf8Length_cons] at fits
    rw [List.cons_append, fitting, if_pos (by omega), ih (by omega), utf8Length_cons, Nat.sub_sub,
      List.cons_append]

/-! ## The text of a unit -/

/-- A printable ASCII character. -/
def Printable (c : Char) : Prop := 0x20 ≤ c.toNat ∧ c.toNat ≤ 0x7e

instance (c : Char) : Decidable (Printable c) := inferInstanceAs (Decidable (_ ∧ _))

/-- A printable ASCII character that no mode escapes. -/
def Plain (c : Char) : Prop := Printable c ∧ c ≠ '"' ∧ c ≠ '\\'

instance (c : Char) : Decidable (Plain c) := inferInstanceAs (Decidable (_ ∧ _))

theorem Printable.utf8Size {c : Char} (h : Printable c) : c.utf8Size = 1 :=
  utf8Size_eq_one_of_le (Nat.le_trans h.2 (by decide))

theorem Plain.utf8Size {c : Char} (h : Plain c) : c.utf8Size = 1 := h.1.utf8Size

theorem toNat_ofNat_unit {unit : UInt16} (h : unit.toNat.isValidChar) :
    (Char.ofNat unit.toNat).toNat = unit.toNat := by
  rw [Char.ofNat, dif_pos h]
  rfl

theorem printable_asciiOrPlaceholder (unit : UInt16) : Printable (asciiOrPlaceholder unit) := by
  unfold asciiOrPlaceholder
  split
  · rename_i range
    have least : 0x20 ≤ unit.toNat := range.1
    have greatest : unit.toNat ≤ 0x7e := range.2
    rw [Printable, toNat_ofNat_unit (.inl (by omega))]
    exact ⟨least, greatest⟩
  · decide

theorem utf8Size_scalarOrPlaceholder_le (unit : UInt16) :
    (scalarOrPlaceholder unit).utf8Size ≤ 3 := by
  unfold scalarOrPlaceholder
  split
  · rename_i valid
    have small : (Char.ofNat unit.toNat).toNat < 0x10000 := by
      rw [toNat_ofNat_unit valid]
      exact unit.toNat_lt
    have notFour : (Char.ofNat unit.toNat).utf8Size ≠ 4 := by
      rw [Ne, Char.utf8Size_eq_four_iff, UInt32.lt_iff_toNat_lt]
      exact fun large => absurd small (by simpa using Nat.not_lt.2 large)
    have := Char.utf8Size_le_four (Char.ofNat unit.toNat)
    omega
  · decide

namespace EscapeMode

/-- The text of a unit in JSON is a two-character escape or one printable character. -/
theorem escape_json_cases (unit : UInt16) :
    (∃ c, Printable c ∧ EscapeMode.json.escape unit = ['\\', c]) ∨
      EscapeMode.json.escape unit = [asciiOrPlaceholder unit] := by
  simp only [escape, jsonEscape?]
  repeat' split
  all_goals first | exact .inr rfl | exact .inl ⟨_, by decide, rfl⟩

theorem utf8Length_escape_pos (mode : EscapeMode) (unit : UInt16) :
    0 < utf8Length (mode.escape unit) := by
  cases mode with
  | raw => exact Nat.lt_of_lt_of_le (Char.utf8Size_pos _) (Nat.le_add_right _ _)
  | asciiOnly => exact Nat.lt_of_lt_of_le (Char.utf8Size_pos _) (Nat.le_add_right _ _)
  | json =>
    obtain ⟨c, -, h⟩ | h := escape_json_cases unit <;> rw [h] <;>
      exact Nat.lt_of_lt_of_le (Char.utf8Size_pos _) (Nat.le_add_right _ _)

theorem utf8Length_escape_asciiOnly (unit : UInt16) :
    utf8Length (EscapeMode.asciiOnly.escape unit) = 1 :=
  (printable_asciiOrPlaceholder unit).utf8Size

theorem utf8Length_escape_le (mode : EscapeMode) (unit : UInt16) :
    utf8Length (mode.escape unit) ≤ 3 := by
  cases mode with
  | raw => exact utf8Size_scalarOrPlaceholder_le unit
  | asciiOnly => rw [utf8Length_escape_asciiOnly]; decide
  | json =>
    obtain ⟨c, hc, h⟩ | h := escape_json_cases unit
    · rw [h, utf8Length_cons, utf8Length_cons, hc.utf8Size]
      decide
    · rw [h, utf8Length_cons, (printable_asciiOrPlaceholder unit).utf8Size]
      decide

/-- No mode escapes a plain character. -/
theorem escape_of_plain (mode : EscapeMode) {c : Char} (h : Plain c) :
    mode.escape (UInt16.ofNat c.toNat) = [c] := by
  have small : c.toNat < 0x10000 := Nat.lt_of_le_of_lt h.1.2 (by decide)
  have unit : (UInt16.ofNat c.toNat).toNat = c.toNat := UInt16.toNat_ofNat_of_lt small
  have ascii : asciiOrPlaceholder (UInt16.ofNat c.toNat) = c := by
    have range : 0x20 ≤ UInt16.ofNat c.toNat ∧ UInt16.ofNat c.toNat ≤ 0x7e := by
      rw [UInt16.le_iff_toNat_le, UInt16.le_iff_toNat_le, unit]
      exact h.1
    rw [asciiOrPlaceholder, if_pos range, unit, Char.ofNat_toNat]
  cases mode with
  | raw =>
    have valid : c.toNat.isValidChar := c.valid
    simp only [escape, scalarOrPlaceholder, unit, if_pos valid, Char.ofNat_toNat]
  | asciiOnly => simp only [escape, ascii]
  | json =>
    have ne (special : UInt16) (differ : c.toNat ≠ special.toNat) :
        UInt16.ofNat c.toNat ≠ special := fun e => differ (by rw [← unit, e])
    have printable : 0x20 ≤ c.toNat := h.1.1
    have notQuote : c.toNat ≠ 0x22 := fun e => h.2.1 (Char.toNat_inj.1 e)
    have notBackslash : c.toNat ≠ 0x5c := fun e => h.2.2 (Char.toNat_inj.1 e)
    have noEscape : jsonEscape? (UInt16.ofNat c.toNat) = none := by
      rw [jsonEscape?, if_neg (ne 0x08 (by omega : c.toNat ≠ 0x08)),
        if_neg (ne 0x0a (by omega : c.toNat ≠ 0x0a)), if_neg (ne 0x0d (by omega : c.toNat ≠ 0x0d)),
        if_neg (ne 0x5c notBackslash), if_neg (ne 0x22 notQuote)]
    rw [escape, noEscape, Option.getD_none, ascii]

end EscapeMode

theorem utf16_of_plain {c : Char} (h : Plain c) : utf16 c = [UInt16.ofNat c.toNat] :=
  if_pos (Nat.lt_of_le_of_lt h.1.2 (by decide))

/-! ## What is added -/

namespace TextBuffer

variable (b : TextBuffer)

/-- The buffer with a text added, whatever room there is. -/
def add (text : List Char) : TextBuffer := { b with text := b.text ++ String.ofList text }

@[simp] theorem add_nil : b.add [] = b := by simp [add]

@[simp] theorem add_add (text more : List Char) : (b.add text).add more = b.add (text ++ more) := by
  simp [add, String.append_assoc]

@[simp] theorem toList_text_add (text : List Char) :
    (b.add text).text.toList = b.text.toList ++ text := by
  simp [add]

@[simp] theorem capacity_add (text : List Char) : (b.add text).capacity = b.capacity := rfl

@[simp] theorem reserved_add (text : List Char) : (b.add text).reserved = b.reserved := rfl

@[simp] theorem left_add (text : List Char) : (b.add text).left = b.left - utf8Length text := by
  simp only [left, length, add, String.utf8ByteSize_append, utf8ByteSize_ofList]
  omega

theorem push_eq_add (text : List Char) : b.push text = b.add (fitting b.left text) := rfl

theorem pushUnit_eq_add {mode : EscapeMode} {unit : UInt16} (h : 3 ≤ b.left) :
    b.pushUnit mode unit = b.add (mode.escape unit) := by
  rw [pushUnit, push_eq_add, fitting_eq_self (Nat.le_trans (mode.utf8Length_escape_le unit) h)]

theorem push_plain {text : List Char} (h : ∀ c ∈ text, Plain c) :
    b.push text = b.add (text.take b.left) := by
  rw [push_eq_add, fitting_eq_take fun c hc => (h c hc).utf8Size]

theorem pushUnits_plain {text : List Char} (mode : EscapeMode) (h : ∀ c ∈ text, Plain c) :
    b.pushUnits mode (text.flatMap utf16) = b.add (text.take b.left) := by
  induction text generalizing b with
  | nil => simp [pushUnits]
  | cons c text ih =>
    have plain : Plain c := h c List.mem_cons_self
    have rest : ∀ c ∈ text, Plain c := fun c hc => h c (List.mem_cons_of_mem _ hc)
    rw [List.flatMap_cons, utf16_of_plain plain, List.singleton_append, pushUnits]
    split
    · rename_i noRoom
      simp [noRoom]
    · rename_i room
      obtain ⟨n, hn⟩ := Nat.exists_eq_succ_of_ne_zero room
      have one : b.pushUnit mode (UInt16.ofNat c.toNat) = b.add [c] := by
        rw [pushUnit, mode.escape_of_plain plain, push_plain b (by simpa using plain), hn,
          List.take_succ_cons, List.take_nil]
      rw [one, ih _ rest, add_add, left_add, utf8Length_cons, plain.utf8Size, utf8Length_nil, hn,
        List.take_succ_cons]
      rfl

/-- Every mode adds as many plain characters as there are bytes left. -/
theorem pushText_eq_add {text : String} (mode : EscapeMode) (h : ∀ c ∈ text.toList, Plain c) :
    b.pushText mode text = b.add (text.toList.take b.left) := by
  cases mode with
  | raw => exact push_plain b h
  | asciiOnly => exact pushUnits_plain b .asciiOnly h
  | json => exact pushUnits_plain b .json h

end TextBuffer

end Postmortem
