/-! # Trees of plain data

A `Data` value is what a configuration text says, whatever notation it was written in: records and
arrays over numbers, texts, truth values and the absent value. Integers are kept apart from other
numbers, and a record lists its fields as they were written, also one that occurs twice. A numeral
that stands for no number is kept as well (`Data.misnumber`), so that it does no harm where nobody
asks for its value; `Data.isSound` says that there is none. -/

namespace Postmortem

/-- A tree of plain data. -/
inductive Data where
  /-- The absent value. -/
  | null
  | bool (value : Bool)
  /-- A number written as an integer, of any size. -/
  | int (value : Int)
  /-- A number written with a fraction or an exponent. -/
  | float (numeral : String)
  /-- A numeral without a number: its digits are missing or wrong, or the number is too large. -/
  | misnumber (numeral : String)
  /-- A text. Without content it is one whose escapes form no Unicode text. -/
  | text (content : Option String)
  | array (items : List Data)
  /-- Fields in the order written. A name without content forms no Unicode text. -/
  | record (fields : List (Option String × Data))
  deriving Inhabited

namespace Data

/-- A text with the given content. -/
def string (content : String) : Data := .text (some content)

/-- A natural number. -/
def nat (n : Nat) : Data := .int n

/-- A record with the given fields. -/
def ofFields (fields : List (String × Data)) : Data :=
  .record (fields.map fun field => (some field.1, field.2))

/-- A value that may be absent. -/
def ofOption {α : Type} (write : α → Data) : Option α → Data
  | none => .null
  | some value => write value

/-! ## Soundness -/

mutual

/-- Whether every numeral in the tree stands for a number. -/
def isSound : Data → Bool
  | .misnumber _ => false
  | .array items => areSound items
  | .record fields => areSoundFields fields
  | _ => true

/-- Whether every numeral in the items stands for a number. -/
def areSound : List Data → Bool
  | [] => true
  | item :: rest => item.isSound && areSound rest

/-- Whether every numeral in the fields stands for a number. -/
def areSoundFields : List (Option String × Data) → Bool
  | [] => true
  | (_, value) :: rest => value.isSound && areSoundFields rest

end

/-! ## Reading -/

/-- The last value that a record gives to a field. -/
def get? (name : String) : Data → Option Data
  | .record fields => fields.reverse.lookup (some name)
  | _ => none

/-- The natural number of at most `greatest` that an integer stands for. -/
def natUpTo? (greatest : Nat) : Data → Option Nat
  | .int n => if 0 ≤ n ∧ n ≤ greatest then some n.toNat else none
  | _ => none

/-- A number that fits in 64 bits. -/
def word? (d : Data) : Option UInt64 := (d.natUpTo? 0xffffffffffffffff).map UInt64.ofNat

/-- A number that fits in 32 bits. -/
def halfWord? (d : Data) : Option UInt32 := (d.natUpTo? 0xffffffff).map UInt32.ofNat

/-- A number that fits in 8 bits. -/
def byte? (d : Data) : Option UInt8 := (d.natUpTo? 0xff).map UInt8.ofNat

/-- The content of a text. -/
def string? : Data → Option String
  | .text content => content
  | _ => none

end Data

end Postmortem
