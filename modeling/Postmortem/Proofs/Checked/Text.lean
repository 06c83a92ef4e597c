import Postmortem.Proofs.Checked.Basic
import Postmortem.Text.Buffer

/-! # Text buffers without traps

The checked versions of what is added to a buffer. Text is cut by bytes: the end of the room is
moved down to the boundary of a character, and the bytes before it are taken, which traps inside of
a character. There is a boundary at zero at the latest, and the bytes before the one that is found
are the characters that fit (`Checked.lastBoundary_eq`, `Checked.takeBytes_eq`). -/

namespace Postmortem.Checked

/-! ## Boundaries of characters -/

/-- Whether a character of the text, or the end of it, starts after so many bytes. -/
def isBoundary : List Char → Nat → Bool
  | _, 0 => true
  | [], _ + 1 => false
  | c :: text, n + 1 => c.utf8Size ≤ n + 1 && isBoundary text (n + 1 - c.utf8Size)

/-- The last boundary that is not beyond `n`. It is looked for from `n` down. -/
def lastBoundary (text : List Char) : (n : Nat) → Checked Nat
  | 0 => if isBoundary text 0 then .ok 0 else sub 0 1
  | n + 1 => if isBoundary text (n + 1) then .ok (n + 1) else lastBoundary text n

/-- The characters that the first `n` bytes of a text hold. -/
def takeBytes : List Char → (n : Nat) → Checked (List Char)
  | _, 0 => .ok []
  | [], _ + 1 => .error .outOfRange
  | c :: text, n + 1 => do
    if c.utf8Size ≤ n + 1 then return c :: (← takeBytes text (n + 1 - c.utf8Size))
    else throw .outOfRange

@[simp] theorem isBoundary_zero (text : List Char) : isBoundary text 0 = true := by
  cases text <;> rfl

@[simp] theorem takeBytes_zero (text : List Char) : takeBytes text 0 = .ok [] := by
  cases text <;> rfl

/-- At a boundary the characters that fit leave no byte. -/
theorem utf8Length_fitting {text : List Char} {n : Nat} (boundary : isBoundary text n = true) :
    utf8Length (fitting n text) = n := by
  induction text generalizing n with
  | nil => cases n with
    | zero => rfl
    | succ n => cases boundary
  | cons c text ih =>
    cases n with
    | zero => simp
    | succ n =>
      rw [isBoundary, Bool.and_eq_true, decide_eq_true_eq] at boundary
      rw [fitting, if_pos boundary.1, utf8Length_cons, ih boundary.2]
      omega

/-- Where there is no boundary, the last byte is of no use. -/
theorem fitting_succ {text : List Char} {n : Nat} (inside : isBoundary text (n + 1) = false) :
    fitting (n + 1) text = fitting n text := by
  induction text generalizing n with
  | nil => rfl
  | cons c text ih =>
    have pos := c.utf8Size_pos
    rw [isBoundary, Bool.and_eq_false_iff, decide_eq_false_iff_not] at inside
    rw [fitting, fitting]
    by_cases fits : c.utf8Size ≤ n + 1
    · have inside := inside.resolve_left (absurd fits)
      -- a character that ends at the last byte would make a boundary of it
      have more : c.utf8Size ≤ n := by
        refine Nat.le_of_lt_succ (Nat.lt_of_le_of_ne fits fun ends => ?_)
        rw [ends, Nat.sub_self, isBoundary_zero] at inside
        cases inside
      rw [show n + 1 - c.utf8Size = n - c.utf8Size + 1 by omega] at inside ⊢
      rw [if_pos fits, if_pos more, ih inside]
    · rw [if_neg fits, if_neg (by omega)]

theorem lastBoundary_eq (text : List Char) (n : Nat) :
    lastBoundary text n = .ok (utf8Length (fitting n text)) := by
  induction n with
  | zero => simp [lastBoundary]
  | succ n ih =>
    rw [lastBoundary]
    split
    · rename_i boundary
      rw [utf8Length_fitting boundary]
    · rename_i inside
      rw [ih, fitting_succ (Bool.eq_false_iff.2 inside)]

theorem takeBytes_eq (text : List Char) (n : Nat) :
    takeBytes text (utf8Length (fitting n text)) = .ok (fitting n text) := by
  induction text generalizing n with
  | nil => rfl
  | cons c text ih =>
    rw [fitting]
    split
    · obtain ⟨size, counted⟩ : ∃ size, c.utf8Size + utf8Length (fitting (n - c.utf8Size) text) =
          size + 1 := ⟨_, (Nat.succ_pred (Nat.ne_of_gt (Nat.add_pos_left c.utf8Size_pos _))).symm⟩
      rw [utf8Length_cons, counted, takeBytes, if_pos (by omega), ← counted,
        Nat.add_sub_cancel_left, ih, ok_bind]
      rfl
    · exact takeBytes_zero _

/-- The second byte is inside of the first character. -/
example : takeBytes ['é', 'x'] 1 = .error .outOfRange := rfl

/-! ## Buffers -/

/-- The text that has room goes in whole; one that has not is cut at the last boundary. -/
def push (b : TextBuffer) (text : List Char) : Checked TextBuffer := do
  if utf8Length text ≤ b.left then return { b with text := b.text ++ String.ofList text }
  else
    let kept ← takeBytes text (← lastBoundary text b.left)
    return { b with text := b.text ++ String.ofList kept }

theorem push_eq (b : TextBuffer) (text : List Char) : push b text = .ok (b.push text) := by
  rw [push, TextBuffer.push]
  split
  · rename_i fits
    rw [fitting_eq_self fits]
    rfl
  · rw [lastBoundary_eq, ok_bind, takeBytes_eq]
    rfl

/-- The storage for the bytes of a character has room for four. -/
def pushUnit (b : TextBuffer) (mode : EscapeMode) (unit : UInt16) : Checked TextBuffer := do
  assert ((mode.escape unit).all fun c => c.utf8Size ≤ 4)
  push b (mode.escape unit)

theorem pushUnit_eq (b : TextBuffer) (mode : EscapeMode) (unit : UInt16) :
    pushUnit b mode unit = .ok (b.pushUnit mode unit) := by
  have small : ((mode.escape unit).all fun c => c.utf8Size ≤ 4) = true :=
    List.all_eq_true.2 fun c _ => decide_eq_true c.utf8Size_le_four
  rw [pushUnit, assert_eq small, ok_bind, push_eq]
  rfl

def pushUnits (mode : EscapeMode) : TextBuffer → List UInt16 → Checked TextBuffer
  | b, [] => .ok b
  | b, unit :: rest => do
    if b.left = 0 then return b else pushUnits mode (← pushUnit b mode unit) rest

theorem pushUnits_eq (mode : EscapeMode) (b : TextBuffer) (units : List UInt16) :
    pushUnits mode b units = .ok (b.pushUnits mode units) := by
  induction units generalizing b with
  | nil => rfl
  | cons unit rest ih =>
    rw [pushUnits, TextBuffer.pushUnits]
    split
    · rfl
    · rw [pushUnit_eq, ok_bind, ih]

def pushText (b : TextBuffer) (mode : EscapeMode) (text : String) : Checked TextBuffer :=
  match mode with
  | .raw => push b text.toList
  | mode => pushUnits mode b (text.toList.flatMap utf16)

theorem pushText_eq (b : TextBuffer) (mode : EscapeMode) (text : String) :
    pushText b mode text = .ok (b.pushText mode text) := by
  cases mode with
  | raw => exact push_eq b _
  | asciiOnly | json => exact pushUnits_eq _ b _

def edit (b : TextBuffer) : TextBuffer.Edit → Checked TextBuffer
  | .units mode units => units.foldlM (pushUnit · mode) b
  | .text mode text => pushText b mode text
  | .format text => push b text.toList
  | .reserve n => .ok (b.reserve n)
  | .rewind => .ok b.rewind

theorem edit_eq (b : TextBuffer) (change : TextBuffer.Edit) :
    edit b change = .ok (b.edit change) := by
  cases change with
  | units mode units => exact foldlM_eq b fun b unit _ => pushUnit_eq b mode unit
  | text mode text => exact pushText_eq b mode text
  | format text => exact push_eq b _
  | reserve | rewind => rfl

end Postmortem.Checked
