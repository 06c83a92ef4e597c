import Postmortem.Json.Reader
import Postmortem.Proofs.Text.Cut

/-! # Text for a JSON string literal

A text fits between the quotes of a JSON string literal if it consists of complete items
(`JsonItems`): plain characters and escapes of two characters. In the mode `json` every unit is
written as such an item (`jsonItems_escape`), and no other texts of items are there
(`JsonItems.exists_units`).

The reader of JSON texts undoes the writing (`Json.text?_text`). It gives each unit back, except
that a question mark stands for a unit that is neither printable ASCII nor has an escape
(`jsonUnit`). -/

namespace Postmortem

/-! ## Items -/

/-- The characters that follow the backslash of an escape. -/
def escapeLetters : List Char := ['b', 'n', 'r', '\\', '"']

/-- A sequence of complete items. -/
inductive JsonItems : List Char → Prop where
  | nil : JsonItems []
  | plain {c : Char} {rest : List Char} (plain : Plain c) (items : JsonItems rest) :
      JsonItems (c :: rest)
  | escape {c : Char} {rest : List Char} (letter : c ∈ escapeLetters) (items : JsonItems rest) :
      JsonItems ('\\' :: c :: rest)

namespace JsonItems

variable {text more : List Char}

theorem append (h : JsonItems text) (h' : JsonItems more) : JsonItems (text ++ more) := by
  induction h with
  | nil => exact h'
  | plain plain _ ih => exact .plain plain ih
  | escape letter _ ih => exact .escape letter ih

theorem of_plain (h : ∀ c ∈ text, Plain c) : JsonItems text := by
  induction text with
  | nil => exact .nil
  | cons c text ih =>
    have plain := h c List.mem_cons_self
    exact .plain plain (ih fun c mem => h c (List.mem_cons_of_mem _ mem))

theorem printable (h : JsonItems text) : ∀ c ∈ text, Printable c := by
  have all : ('\\' :: escapeLetters).all (Printable ·) = true := by decide
  have letters : ∀ c ∈ '\\' :: escapeLetters, Printable c := fun c mem =>
    of_decide_eq_true (List.all_eq_true.1 all c mem)
  induction h with
  | nil => simp
  | plain plain _ ih => simpa using ⟨plain.1, ih⟩
  | escape letter _ ih =>
    intro c mem
    rcases List.mem_cons.1 mem with rfl | mem
    · exact letters _ List.mem_cons_self
    rcases List.mem_cons.1 mem with rfl | mem
    · exact letters _ (List.mem_cons_of_mem _ letter)
    · exact ih c mem

/-- An item of a text takes as many bytes as it has characters. -/
theorem utf8Length_eq (h : JsonItems text) : utf8Length text = text.length :=
  utf8Length_eq_length fun c mem => (h.printable c mem).utf8Size

end JsonItems

/-! ## The items that are written -/

/-- The unit that JSON gives back for one that was written. -/
def jsonUnit (unit : UInt16) : UInt16 :=
  if (0x20 ≤ unit ∧ unit ≤ 0x7e) ∨ unit = 0x08 ∨ unit = 0x0a ∨ unit = 0x0d then unit else 0x3f

/-- The unit that JSON gives back, as a character. -/
def jsonChar (unit : UInt16) : Char := Char.ofNat (jsonUnit unit).toNat

theorem jsonUnit_le (unit : UInt16) : (jsonUnit unit).toNat ≤ 0x7e := by
  unfold jsonUnit
  split
  · rename_i kept
    rcases kept with ⟨-, high⟩ | rfl | rfl | rfl
    · exact high
    all_goals decide
  · decide

theorem toNat_jsonChar (unit : UInt16) : (jsonChar unit).toNat = (jsonUnit unit).toNat := by
  have small := jsonUnit_le unit
  exact toNat_ofNat_unit (.inl (by omega))

/-- Only a question mark may stand for another unit. -/
theorem toNat_of_jsonChar {unit : UInt16} (h : jsonChar unit ≠ '?') :
    unit.toNat = (jsonChar unit).toNat := by
  rw [toNat_jsonChar]
  unfold jsonUnit
  split
  · rfl
  · rename_i other
    refine absurd ?_ h
    rw [jsonChar, jsonUnit, if_neg other]
    rfl

theorem utf16_jsonChar (unit : UInt16) : utf16 (jsonChar unit) = [jsonUnit unit] := by
  have small := jsonUnit_le unit
  rw [utf16, toNat_jsonChar, if_pos (by omega), UInt16.ofNat_toNat]

theorem flatMap_utf16_jsonChar (units : List UInt16) :
    (units.map jsonChar).flatMap utf16 = units.map jsonUnit := by
  induction units with
  | nil => rfl
  | cons unit units ih => simp [utf16_jsonChar, ih]

namespace EscapeMode

/-- A unit with an escape is written as it, and any other as one plain character. -/
theorem escape_json_item (unit : UInt16) :
    (∃ c ∈ escapeLetters, EscapeMode.json.escape unit = ['\\', c] ∧
      Json.simpleEscape? c = some (jsonChar unit)) ∨
    Plain (jsonChar unit) ∧ EscapeMode.json.escape unit = [jsonChar unit] := by
  by_cases special : unit ∈ [0x08, 0x0a, 0x0d, 0x5c, 0x22]
  · left
    simp only [List.mem_cons, List.not_mem_nil, or_false] at special
    rcases special with rfl | rfl | rfl | rfl | rfl
    all_goals exact ⟨_, by decide, rfl, by decide⟩
  · right
    simp only [List.mem_cons, List.not_mem_nil, or_false, not_or] at special
    obtain ⟨backspace, lineFeed, carriage, backslash, quote⟩ := special
    have noEscape : jsonEscape? unit = none := by
      rw [jsonEscape?, if_neg backspace, if_neg lineFeed, if_neg carriage, if_neg backslash,
        if_neg quote]
    have same : asciiOrPlaceholder unit = jsonChar unit := by
      unfold asciiOrPlaceholder jsonChar jsonUnit
      by_cases range : 0x20 ≤ unit ∧ unit ≤ 0x7e
      · rw [if_pos range, if_pos (.inl range)]
      · rw [if_neg range, if_neg (by simp [range, backspace, lineFeed, carriage])]
        rfl
    have printable : Printable (jsonChar unit) := same ▸ printable_asciiOrPlaceholder unit
    refine ⟨⟨printable, fun isQuote => ?_, fun isBackslash => ?_⟩, ?_⟩
    · have code : unit.toNat = (jsonChar unit).toNat :=
        toNat_of_jsonChar (by rw [isQuote]; decide)
      rw [isQuote] at code
      exact quote (UInt16.toNat_inj.1 code)
    · have code : unit.toNat = (jsonChar unit).toNat :=
        toNat_of_jsonChar (by rw [isBackslash]; decide)
      rw [isBackslash] at code
      exact backslash (UInt16.toNat_inj.1 code)
    · rw [escape, noEscape, Option.getD_none, same]

theorem exists_unit_of_letter {c : Char} (letter : c ∈ escapeLetters) :
    ∃ unit, EscapeMode.json.escape unit = ['\\', c] := by
  simp only [escapeLetters, List.mem_cons, List.not_mem_nil, or_false] at letter
  rcases letter with rfl | rfl | rfl | rfl | rfl
  · exact ⟨0x08, rfl⟩
  · exact ⟨0x0a, rfl⟩
  · exact ⟨0x0d, rfl⟩
  · exact ⟨0x5c, rfl⟩
  · exact ⟨0x22, rfl⟩

end EscapeMode

theorem jsonItems_escape (unit : UInt16) : JsonItems (EscapeMode.json.escape unit) := by
  rcases EscapeMode.escape_json_item unit with ⟨c, letter, item, -⟩ | ⟨plain, item⟩
  · rw [item]
    exact .escape letter .nil
  · rw [item]
    exact .plain plain .nil

/-- Every sequence of complete items is the text of some units. -/
theorem JsonItems.exists_units {text : List Char} (h : JsonItems text) :
    ∃ units, EscapeMode.json.text units = text := by
  induction h with
  | nil => exact ⟨[], rfl⟩
  | @plain c rest plain _ ih =>
    obtain ⟨units, rfl⟩ := ih
    refine ⟨UInt16.ofNat c.toNat :: units, ?_⟩
    rw [text_cons, EscapeMode.escape_of_plain _ plain, List.singleton_append]
  | escape letter _ ih =>
    obtain ⟨units, rfl⟩ := ih
    obtain ⟨unit, item⟩ := EscapeMode.exists_unit_of_letter letter
    refine ⟨unit :: units, ?_⟩
    rw [text_cons, item, List.cons_append, List.singleton_append]

/-! ## Reading the items -/

namespace Json

theorem textItems?_escape (done : List TextItem) {c d : Char} (letter : c ∈ escapeLetters)
    (named : simpleEscape? c = some d) (rest : List Char) :
    textItems? done ('\\' :: c :: rest) = textItems? (.char d :: done) rest := by
  simp only [escapeLetters, List.mem_cons, List.not_mem_nil, or_false] at letter
  rcases letter with rfl | rfl | rfl | rfl | rfl
  all_goals simp [textItems?, named]

theorem textItems?_plain (done : List TextItem) {c : Char} (plain : Plain c) (rest : List Char) :
    textItems? done (c :: rest) = textItems? (.char c :: done) rest := by
  have notControl : ¬ c < ' ' := by
    rw [Char.lt_def, UInt32.lt_iff_toNat_lt]
    exact Nat.not_lt.2 plain.1.1
  rw [textItems?]
  · rw [if_neg notControl]
  · simpa using plain.2.1
  all_goals simp [plain.2.2]

theorem textItems?_text (done : List TextItem) (units : List UInt16) (rest : List Char) :
    textItems? done (EscapeMode.json.text units ++ '"' :: rest) =
      some (done.reverse ++ units.map fun unit => .char (jsonChar unit), rest) := by
  induction units generalizing done with
  | nil => simp [EscapeMode.text, textItems?]
  | cons unit units ih =>
    rw [text_cons, List.append_assoc]
    rcases EscapeMode.escape_json_item unit with ⟨c, letter, item, named⟩ | ⟨plain, item⟩
    · rw [item]
      simp [textItems?_escape done letter named, ih]
    · rw [item]
      simp [textItems?_plain done plain, ih]

theorem joinItems?_chars (done chars : List Char) :
    joinItems? done (chars.map .char) = some (done.reverse ++ chars) := by
  induction chars generalizing done with
  | nil => simp [joinItems?]
  | cons c chars ih => simp [joinItems?, ih]

/-- **Reading undoes the writing in the mode `json`,** up to the units that it has no text for. -/
theorem text?_text (units : List UInt16) (rest : List Char) :
    text? (EscapeMode.json.text units ++ '"' :: rest) =
      some (some (String.ofList (units.map jsonChar)), rest) := by
  have chars : (units.map fun unit => TextItem.char (jsonChar unit)) =
      (units.map jsonChar).map .char := by simp
  rw [text?, textItems?_text, List.reverse_nil, List.nil_append, chars]
  dsimp only [Option.map_some]
  rw [joinItems?_chars]
  rfl

/-- **Complete items between quotes are a JSON text.** -/
theorem read?_quoted {body : List Char} (items : JsonItems body) :
    ∃ content, read? (String.ofList ('"' :: body ++ ['"'])) = some (.string content) := by
  obtain ⟨units, rfl⟩ := items.exists_units
  refine ⟨String.ofList (units.map jsonChar), ?_⟩
  have noBlank : skipBlanks ('"' :: (EscapeMode.json.text units ++ ['"'])) =
      '"' :: (EscapeMode.json.text units ++ ['"']) := List.dropWhile_cons_of_neg (by decide)
  rw [read?, String.toList_ofList, List.cons_append, noBlank, value?, text?_text]
  rfl

/-- A JSON text does not begin with a backslash. -/
theorem read?_backslash (rest : List Char) : read? (String.ofList ('\\' :: rest)) = none := by
  have noBlank : skipBlanks ('\\' :: rest) = '\\' :: rest := List.dropWhile_cons_of_neg (by decide)
  have noDigit : digits ('\\' :: rest) = ([], '\\' :: rest) := rfl
  have noNumber : number? false ('\\' :: rest) = none := by
    simp [number?, integerPart?, noDigit]
  rw [read?, String.toList_ofList, noBlank, value?]
  · rw [noNumber]
  all_goals simp

end Json

end Postmortem
