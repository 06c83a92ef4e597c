import Postmortem.Data.Basic

/-! # Writing JSON text

`Json.print` writes a tree without blanks, the fields of a record in their order. In a text the
quote, the backslash and the control characters are escaped and all else is kept. -/

namespace Postmortem.Json

/-- A character as it stands in a JSON text. -/
def escape (c : Char) : List Char :=
  match c with
  | '"' => ['\\', '"']
  | '\\' => ['\\', '\\']
  | '\n' => ['\\', 'n']
  | '\r' => ['\\', 'r']
  | '\t' => ['\\', 't']
  | '\x08' => ['\\', 'b']
  | '\x0c' => ['\\', 'f']
  | c =>
    if c < ' ' then
      ['\\', 'u', '0', '0', Nat.digitChar (c.toNat / 16), Nat.digitChar (c.toNat % 16)]
    else [c]

/-- A text between quotes. One without content is written as a surrogate that has no partner. -/
def quote : Option String → String
  | none => "\"\\ud800\""
  | some content =>
    (content.toList.foldl (fun out c => (escape c).foldl String.push out) "\"").push '"'

mutual

/-- The text `out` followed by the tree. -/
def printOn (out : String) : Data → String
  | .null => out ++ "null"
  | .bool true => out ++ "true"
  | .bool false => out ++ "false"
  | .int n => out ++ toString n
  | .float numeral | .misnumber numeral => out ++ numeral
  | .text content => out ++ quote content
  | .array items => (printItems (out.push '[') "" items).push ']'
  | .record fields => (printFields (out.push '\x7b') "" fields).push '\x7d'

/-- The items of an array, the first of them after `separator`. -/
def printItems (out separator : String) : List Data → String
  | [] => out
  | item :: rest => printItems (printOn (out ++ separator) item) "," rest

/-- The fields of a record, the first of them after `separator`. -/
def printFields (out separator : String) : List (Option String × Data) → String
  | [] => out
  | (name, value) :: rest =>
    printFields (printOn ((out ++ separator ++ quote name).push ':') value) "," rest

end

/-- The JSON text of a tree. -/
def print (d : Data) : String := printOn "" d

end Postmortem.Json
