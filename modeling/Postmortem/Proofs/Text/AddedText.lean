import Postmortem.Proofs.Text.Capacities

/-! # Adding a text

`TextBuffer.pushText` adds a text as it is, or unit by unit in a mode that escapes.

* As it is, a text is added up to the last boundary between its characters that the room reaches
  (`TextBuffer.push_eq_sliceTo`). This is the longest prefix that fits (`LongestFitting`), and there
  is only one (`LongestFitting.unique`).
* Unit by unit, the text of each unit is added as far as it fits. All its characters take one byte,
  so of the texts of all units together as many characters are added as there are bytes left
  (`TextBuffer.foldl_pushUnit_eq_add`). The units are the UTF-16 form of the text (`isUtf16_iff`).

The units that come when the buffer is full are not looked at, and nothing shows it. In
`TextBuffer.pushText_without_early_exit` the buffer is arbitrary: its margin may exceed what is free,
and its text the capacity. -/

namespace Postmortem

/-! ## UTF-16 -/

/-- That units are the UTF-16 form of characters: each character is one unit, or a high and a low
surrogate that have ten bits each of what its number has beyond `0x10000`. -/
inductive IsUtf16 : List Char → List UInt16 → Prop where
  | nil : IsUtf16 [] []
  | unit {c : Char} {unit : UInt16} {text : List Char} {units : List UInt16}
      (same : unit.toNat = c.toNat) (rest : IsUtf16 text units) : IsUtf16 (c :: text) (unit :: units)
  | pair {c : Char} {high low : UInt16} {text : List Char} {units : List UInt16}
      (isHigh : 0xd800 ≤ high.toNat ∧ high.toNat < 0xdc00)
      (isLow : 0xdc00 ≤ low.toNat ∧ low.toNat < 0xe000)
      (joined : c.toNat = 0x10000 + (high.toNat - 0xd800) * 0x400 + (low.toNat - 0xdc00))
      (rest : IsUtf16 text units) : IsUtf16 (c :: text) (high :: low :: units)

theorem isUtf16_flatMap (text : List Char) : IsUtf16 text (text.flatMap utf16) := by
  have kept {n : Nat} (small : n < 0x10000) : (UInt16.ofNat n).toNat = n :=
    UInt16.toNat_ofNat_of_lt small
  induction text with
  | nil => exact .nil
  | cons c text ih =>
    rw [List.flatMap_cons, utf16]
    split
    · rename_i small
      exact .unit (kept small) ih
    · have range : c.toNat < 0x110000 := c.valid.elim (fun h => Nat.lt_trans h (by decide)) (·.2)
      have high : 0xd800 + (c.toNat - 0x10000) / 0x400 < 0x10000 := by omega
      have low : 0xdc00 + (c.toNat - 0x10000) % 0x400 < 0x10000 := by omega
      refine .pair ?isHigh ?isLow ?joined ih
      case isHigh => rw [kept high]; omega
      case isLow => rw [kept low]; omega
      case joined => rw [kept high, kept low]; omega

theorem IsUtf16.eq_flatMap {text : List Char} {units : List UInt16} (h : IsUtf16 text units) :
    units = text.flatMap utf16 := by
  induction h with
  | nil => rfl
  | @unit c unit text units same rest ih =>
    have small : c.toNat < 0x10000 := same ▸ unit.toNat_lt
    rw [List.flatMap_cons, utf16, if_pos small, ← same, UInt16.ofNat_toNat, ← ih,
      List.singleton_append]
  | @pair c high low text units isHigh isLow joined rest ih =>
    have large : ¬ c.toNat < 0x10000 := by omega
    have first : 0xd800 + (c.toNat - 0x10000) / 0x400 = high.toNat := by omega
    have second : 0xdc00 + (c.toNat - 0x10000) % 0x400 = low.toNat := by omega
    rw [List.flatMap_cons, utf16, if_neg large]
    simp only [first, second, UInt16.ofNat_toNat, ← ih, List.cons_append, List.nil_append]

/-- **A text has one UTF-16 form.** -/
theorem isUtf16_iff {text : List Char} {units : List UInt16} :
    IsUtf16 text units ↔ units = text.flatMap utf16 :=
  ⟨IsUtf16.eq_flatMap, fun same => same ▸ isUtf16_flatMap text⟩

/-! ## The longest prefix that fits -/

/-- That `kept` is the longest prefix of a text that takes at most `room` bytes of UTF-8. -/
structure LongestFitting (room : Nat) (text kept : String) : Prop where
  isPrefix : ∃ more, text = kept ++ more
  fits : kept.utf8ByteSize ≤ room
  longest : ∀ first more, text = first ++ more → first.utf8ByteSize ≤ room →
    ∃ rest, kept = first ++ rest

theorem LongestFitting.unique {room : Nat} {text kept kept' : String}
    (h : LongestFitting room text kept) (h' : LongestFitting room text kept') : kept = kept' := by
  obtain ⟨more, whole⟩ := h.isPrefix
  obtain ⟨more', whole'⟩ := h'.isPrefix
  obtain ⟨rest, longer⟩ := h.longest kept' more' whole' h'.fits
  obtain ⟨rest', longer'⟩ := h'.longest kept more whole h.fits
  have sizes := congrArg String.utf8ByteSize longer
  have sizes' := congrArg String.utf8ByteSize longer'
  rw [String.utf8ByteSize_append] at sizes sizes'
  have noRest : rest = "" := String.utf8ByteSize_eq_zero_iff.1 (by omega)
  rw [longer, noRest, String.append_empty]

variable (room : Nat) (text : String)

theorem longestFitting_fitting :
    LongestFitting room text (String.ofList (fitting room text.toList)) where
  isPrefix := by
    obtain ⟨more, whole⟩ := fitting_isPrefix room text.toList
    exact ⟨String.ofList more, by rw [← String.ofList_append, whole, String.ofList_toList]⟩
  fits := by
    rw [utf8ByteSize_ofList]
    exact utf8Length_fitting_le room text.toList
  longest first more whole fits := by
    rw [← String.ofList_toList (s := first), utf8ByteSize_ofList] at fits
    refine ⟨String.ofList (fitting (room - utf8Length first.toList) more.toList), ?_⟩
    rw [whole, String.toList_append, fitting_append fits, String.ofList_append,
      String.ofList_toList]

/-- The boundary is looked for among the bytes of the text, from the room down. -/
theorem longestFitting_sliceTo :
    LongestFitting room text (text.sliceTo (text.posLE ⟨room⟩)).copy where
  isPrefix := ⟨_, (text.posLE ⟨room⟩).splits.eq_append⟩
  fits := by
    have bound : (text.posLE ⟨room⟩).offset ≤ ⟨room⟩ := String.offset_posLE_le
    rw [(text.posLE ⟨room⟩).splits.offset_eq_rawEndPos] at bound
    exact bound
  longest first more whole fits := by
    -- A prefix ends at a boundary, and this one lies within the room.
    have splits := String.Pos.splits_ofEqAppend whole
    have within : String.Pos.ofEqAppend whole ≤ text.posLE ⟨room⟩ := by
      rw [String.le_posLE_iff, splits.offset_eq_rawEndPos]
      exact fits
    obtain ⟨rest, longer, -⟩ :=
      (splits.le_iff_exists_eq_append (text.posLE ⟨room⟩).splits).1 within
    exact ⟨rest, longer⟩

namespace TextBuffer

/-! ## What is added -/

/-- A text as it is goes in up to the last boundary that the room reaches. -/
theorem push_eq_sliceTo (b : TextBuffer) :
    b.push text.toList =
      { b with text := b.text ++ (text.sliceTo (text.posLE ⟨b.left⟩)).copy } := by
  rw [push, (longestFitting_fitting b.left text).unique (longestFitting_sliceTo b.left text)]

/-- In a mode that escapes, the texts of units go in up to the last byte that is left. -/
theorem foldl_pushUnit_eq_add {mode : EscapeMode} (escapes : mode ≠ .raw) (b : TextBuffer)
    (units : List UInt16) :
    units.foldl (·.pushUnit mode) b = b.add ((units.flatMap mode.escape).take b.left) := by
  have narrow : ∀ text ∈ units.map mode.escape, ∀ c ∈ text, c.utf8Size = 1 := by
    intro text mem c among
    obtain ⟨unit, -, rfl⟩ := List.mem_map.1 mem
    exact EscapeMode.utf8Size_of_mem_escape (fun raw => absurd raw escapes) among
  rw [foldl_pushUnit, foldl_push, taken_eq_take narrow, List.flatMap_def]

theorem pushText_of_escapes {mode : EscapeMode} (escapes : mode ≠ .raw) (b : TextBuffer) :
    b.pushText mode text = b.pushUnits mode (text.toList.flatMap utf16) := by
  cases mode with
  | raw => exact absurd rfl escapes
  | asciiOnly | json => rfl

/-- **What adding a text leaves.** In a mode that escapes, it is the buffer that adding each UTF-16
unit of the text leaves, with none left out: of the texts of the units as many characters are added
as there are bytes left. In the mode `raw` the text is added up to the last boundary between its
characters that the room reaches, which is the longest prefix that fits. -/
theorem pushText_without_early_exit (b : TextBuffer) (text : String) :
    let units := text.toList.flatMap utf16
    let kept := (text.sliceTo (text.posLE ⟨b.left⟩)).copy
    (∀ form, IsUtf16 text.toList form ↔ form = units) ∧
    (∀ mode, mode ≠ .raw →
      b.pushText mode text = units.foldl (·.pushUnit mode) b ∧
      b.pushText mode text = b.add ((units.flatMap mode.escape).take b.left)) ∧
    b.pushText .raw text = { b with text := b.text ++ kept } ∧ LongestFitting b.left text kept := by
  intro units kept
  refine ⟨fun form => isUtf16_iff, fun mode escapes => ?escaped, push_eq_sliceTo text b,
    longestFitting_sliceTo b.left text⟩
  case escaped =>
    have all : b.pushText mode text = units.foldl (·.pushUnit mode) b := by
      rw [pushText_of_escapes text escapes, pushUnits_eq_foldl]
    exact ⟨all, all.trans (foldl_pushUnit_eq_add escapes b units)⟩

/-- With four bytes left beside the margin, the two units of the first character are written as one
question mark each, the escape of the line break is cut in half, and the quote is not added. As it
is, the text ends before the character that takes four bytes, although the one behind it would
fit. -/
theorem pushText_beside_margin :
    let b : TextBuffer := { capacity := 7, reserved := 1, text := "ab" }
    let units : List UInt16 := [0xd83d, 0xde00, 0x61, 0x0a, 0x22]
    b.left = 4 ∧ EscapeMode.json ≠ .raw ∧ IsUtf16 "😀a\n\"".toList units ∧
    b.pushText .json "😀a\n\"" = { b with text := "ab??a\\" } ∧
    units.foldl (·.pushUnit .json) b = { b with text := "ab??a\\" } ∧
    b.pushText .raw "aé😀x" = { b with text := "abaé" } ∧
    "aé😀x" = "a" ++ "é😀x" ∧ "a".utf8ByteSize ≤ b.left ∧ ∃ rest, "aé" = "a" ++ rest := by
  intro b units
  have left : b.left = 4 := by decide +kernel
  have escapes : EscapeMode.json ≠ .raw := by decide
  have utf16_eq : "😀a\n\"".toList.flatMap utf16 = units := by decide +kernel
  have cut : (units.flatMap EscapeMode.json.escape).take 4 = ['?', '?', 'a', '\\'] := by decide
  obtain ⟨form, escaped, -⟩ := pushText_without_early_exit b "😀a\n\""
  obtain ⟨all, added⟩ := escaped .json escapes
  rw [utf16_eq] at all added
  rw [left, cut] at added
  have json : b.pushText .json "😀a\n\"" = { b with text := "ab??a\\" } := added
  obtain ⟨-, -, raw, longest⟩ := pushText_without_early_exit b "aé😀x"
  have kept : ("aé😀x".sliceTo ("aé😀x".posLE ⟨b.left⟩)).copy = "aé" := by decide +kernel
  rw [kept] at raw longest
  have whole : "aé😀x" = "a" ++ "é😀x" := by decide +kernel
  have fits : "a".utf8ByteSize ≤ b.left := by decide +kernel
  exact ⟨left, escapes, (form units).2 utf16_eq.symm, json, all ▸ json, raw, whole, fits,
    longest.longest "a" _ whole fits⟩

end TextBuffer

end Postmortem
