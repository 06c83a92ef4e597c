/-! # Escaping

Characters come as UTF-16 code units, and an `EscapeMode` says how a unit is written. In the mode
`raw` a unit is kept, except that half of a surrogate pair becomes a question mark; the other modes
write printable ASCII only. `EscapeMode.escape` gives the text of one unit. -/

namespace Postmortem

/-- How a code unit is written. -/
inductive EscapeMode where
  /-- As it is, if it is a character by itself. -/
  | raw
  /-- As it is, if it is printable ASCII. -/
  | asciiOnly
  /-- As in a JSON string literal, and otherwise as it is if it is printable ASCII. -/
  | json
  deriving DecidableEq, Repr, Inhabited

/-- The unit as a character, or a question mark if it is no printable ASCII character. -/
def asciiOrPlaceholder (unit : UInt16) : Char :=
  if 0x20 ≤ unit ∧ unit ≤ 0x7e then Char.ofNat unit.toNat else '?'

/-- The unit as a character, or a question mark if it is half of a surrogate pair. -/
def scalarOrPlaceholder (unit : UInt16) : Char :=
  if unit.toNat.isValidChar then Char.ofNat unit.toNat else '?'

/-- The escape of a unit that a JSON string literal does not hold as it is. -/
def jsonEscape? (unit : UInt16) : Option (List Char) :=
  if unit = 0x08 then some ['\\', 'b']
  else if unit = 0x0a then some ['\\', 'n']
  else if unit = 0x0d then some ['\\', 'r']
  else if unit = 0x5c then some ['\\', '\\']
  else if unit = 0x22 then some ['\\', '"']
  else none

/-- The text of a unit. -/
def EscapeMode.escape (mode : EscapeMode) (unit : UInt16) : List Char :=
  match mode with
  | .raw => [scalarOrPlaceholder unit]
  | .asciiOnly => [asciiOrPlaceholder unit]
  | .json => (jsonEscape? unit).getD [asciiOrPlaceholder unit]

/-- The UTF-16 code units of a character. -/
def utf16 (c : Char) : List UInt16 :=
  if c.toNat < 0x10000 then [UInt16.ofNat c.toNat]
  else
    let n := c.toNat - 0x10000
    [UInt16.ofNat (0xd800 + n / 0x400), UInt16.ofNat (0xdc00 + n % 0x400)]

end Postmortem
