import Postmortem.Text.Escape
import Postmortem.Word

/-! # Text buffers

A `TextBuffer` collects text up to a fixed number of bytes. It never grows beyond them: what does
not fit is left out without an error. A margin can be held back with `reserve`, so that a closing
delimiter fits in any case; `left` says how many bytes may still be added. -/

namespace Postmortem

/-- Bytes that characters take in UTF-8. -/
def utf8Length : List Char → Nat
  | [] => 0
  | c :: text => c.utf8Size + utf8Length text

@[simp] theorem utf8Length_nil : utf8Length [] = 0 := rfl

@[simp] theorem utf8Length_cons (c : Char) (text : List Char) :
    utf8Length (c :: text) = c.utf8Size + utf8Length text := rfl

/-- The longest prefix, in whole characters, that takes at most `room` bytes of UTF-8. -/
def fitting : Nat → List Char → List Char
  | _, [] => []
  | room, c :: rest => if c.utf8Size ≤ room then c :: fitting (room - c.utf8Size) rest else []

@[simp] theorem fitting_zero (text : List Char) : fitting 0 text = [] := by
  cases text with
  | nil => rfl
  | cons c text =>
    have := c.utf8Size_pos
    rw [fitting, if_neg (by omega)]

theorem fitting_isPrefix (room : Nat) (text : List Char) : fitting room text <+: text := by
  induction text generalizing room with
  | nil => simp [fitting]
  | cons c rest ih =>
    rw [fitting]
    split
    · exact (List.prefix_cons_inj c).2 (ih _)
    · exact List.nil_prefix

theorem utf8Length_fitting_le (room : Nat) (text : List Char) :
    utf8Length (fitting room text) ≤ room := by
  induction text generalizing room with
  | nil => simp [fitting]
  | cons c rest ih =>
    rw [fitting]
    split
    · rename_i fits
      have := ih (room - c.utf8Size)
      rw [utf8Length_cons]
      omega
    · simp

theorem fitting_eq_self {room : Nat} {text : List Char}
    (h : utf8Length text ≤ room) : fitting room text = text := by
  induction text generalizing room with
  | nil => rfl
  | cons c rest ih =>
    rw [utf8Length_cons] at h
    rw [fitting, if_pos (by omega), ih (by omega)]

/-- Text of at most `capacity` bytes. -/
structure TextBuffer where
  capacity : Nat
  /-- Bytes of the capacity that are held back. -/
  reserved : Nat := 0
  text : String := ""
  deriving DecidableEq, Repr

namespace TextBuffer

/-- The empty buffer of a given capacity. -/
def ofCapacity (capacity : Nat) : TextBuffer := { capacity }

/-- Bytes written. -/
def length (b : TextBuffer) : Nat := b.text.utf8ByteSize

/-- Bytes that may still be added. -/
def left (b : TextBuffer) : Nat := b.capacity - b.reserved - b.length

/-- The buffer with as much of the text added as fits. -/
def push (b : TextBuffer) (text : List Char) : TextBuffer :=
  { b with text := b.text ++ String.ofList (fitting b.left text) }

@[simp] theorem capacity_push (b : TextBuffer) (text : List Char) :
    (b.push text).capacity = b.capacity := rfl

@[simp] theorem reserved_push (b : TextBuffer) (text : List Char) :
    (b.push text).reserved = b.reserved := rfl

theorem toList_text_push (b : TextBuffer) (text : List Char) :
    (b.push text).text.toList = b.text.toList ++ fitting b.left text := by
  simp [push]

/-- The buffer with one code unit added. -/
def pushUnit (b : TextBuffer) (mode : EscapeMode) (unit : UInt16) : TextBuffer :=
  b.push (mode.escape unit)

/-- The buffer with code units added; once it is full, the rest is not looked at. -/
def pushUnits (b : TextBuffer) (mode : EscapeMode) : List UInt16 → TextBuffer
  | [] => b
  | unit :: rest => if b.left = 0 then b else (b.pushUnit mode unit).pushUnits mode rest

/-- The buffer with a text added. -/
def pushText (b : TextBuffer) (mode : EscapeMode) (text : String) : TextBuffer :=
  match mode with
  | .raw => b.push text.toList
  | mode => b.pushUnits mode (text.toList.flatMap utf16)

/-- The buffer with `n` more bytes held back, or `-n` fewer. -/
def reserve (b : TextBuffer) (n : Int) : TextBuffer :=
  { b with
    reserved := if 0 ≤ n then Word.capped (b.reserved + n.natAbs) else b.reserved - n.natAbs }

/-- The buffer without its text and its margin. -/
def rewind (b : TextBuffer) : TextBuffer := { b with text := "", reserved := 0 }

/-! ## Runs of edits -/

/-- One change to a buffer. -/
inductive Edit where
  | units (mode : EscapeMode) (units : List UInt16)
  | text (mode : EscapeMode) (text : String)
  /-- A text as it is, as formatted output comes. -/
  | format (text : String)
  | reserve (n : Int)
  | rewind
  deriving DecidableEq, Repr

/-- The buffer after a change. -/
def edit (b : TextBuffer) : Edit → TextBuffer
  | .units mode units => units.foldl (·.pushUnit mode) b
  | .text mode text => b.pushText mode text
  | .format text => b.push text.toList
  | .reserve n => b.reserve n
  | .rewind => b.rewind

end TextBuffer

end Postmortem
