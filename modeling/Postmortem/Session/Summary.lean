import Postmortem.Session.Basic
import Postmortem.Text.Printable

/-! # Summaries

`Session.summary` shows in one line what a session inspects: the version of the layout, between
quotes and with everything escaped that is not printable, the size of a pointer, and the bytes that
are booked. -/

namespace Postmortem

/-- A character as it is shown between double quotes. -/
def showChar (c : Char) : String :=
  match c with
  | '\x00' => "\\0"
  | '\t' => "\\t"
  | '\n' => "\\n"
  | '\r' => "\\r"
  | '"' => "\\\""
  | '\\' => "\\\\"
  | c =>
    if Printable.isPrintable c then c.toString
    else "\\u\x7b" ++ String.ofList (Nat.toDigits 16 c.toNat) ++ "\x7d"

/-- A text between double quotes. -/
def showText (text : String) : String :=
  "\"" ++ String.join (text.toList.map showChar) ++ "\""

/-- What a session inspects, in one line. -/
def Session.summary (s : Session) : String :=
  let version :=
    match s.snapshot.layout.version with
    | some version => "Some(" ++ showText version ++ ")"
    | none => "None"
  "HeapInspector \x7b version: " ++ version
    ++ ", pointer_size: " ++ toString s.snapshot.layout.tags.pointerSize.toNat
    ++ ", allocated: " ++ toString s.budget.booked.toNat ++ " \x7d"

end Postmortem
