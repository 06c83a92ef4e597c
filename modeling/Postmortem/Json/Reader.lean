import Postmortem.Data.Basic

/-! # Reading JSON text

`Json.read?` accepts a text that is one JSON value between blanks. Blanks are the space, the tab,
the line feed and the carriage return; nothing beyond the grammar of RFC 8259 is accepted. A number
is an integer if it has neither fraction nor exponent, except that `-0` is a float. Escaped
surrogates in a text are joined in pairs; a text with one that has no partner has no content. -/

namespace Postmortem.Json

/-! ## Texts -/

/-- One item of a text: a character, or an escaped surrogate. -/
inductive TextItem where
  | char (c : Char)
  | surrogate (unit : Nat)

/-- The value of a hexadecimal digit. -/
def hexValue? (c : Char) : Option Nat :=
  if '0' ≤ c ∧ c ≤ '9' then some (c.toNat - '0'.toNat)
  else if 'a' ≤ c ∧ c ≤ 'f' then some (c.toNat - 'a'.toNat + 10)
  else if 'A' ≤ c ∧ c ≤ 'F' then some (c.toNat - 'A'.toNat + 10)
  else none

/-- The number that hexadecimal digits stand for. -/
def hexNumber? (digits : List Char) : Option Nat :=
  digits.foldlM (fun n c => (hexValue? c).map (16 * n + ·)) 0

/-- The item that an escaped code unit stands for. -/
def TextItem.ofUnit (unit : Nat) : TextItem :=
  if 0xd800 ≤ unit ∧ unit < 0xe000 then .surrogate unit else .char (Char.ofNat unit)

/-- The character that stands after a backslash in the escape of another one. -/
def simpleEscape? : Char → Option Char
  | '"' => some '"'
  | '\\' => some '\\'
  | '/' => some '/'
  | 'b' => some '\x08'
  | 'f' => some '\x0c'
  | 'n' => some '\n'
  | 'r' => some '\r'
  | 't' => some '\t'
  | _ => none

/-- The items of a text up to its closing quote, added to `done` in reverse, and what follows. -/
def textItems? (done : List TextItem) : List Char → Option (List TextItem × List Char)
  | [] => none
  | '"' :: rest => some (done.reverse, rest)
  | '\\' :: 'u' :: a :: b :: c :: d :: rest =>
    match hexNumber? [a, b, c, d] with
    | some unit => textItems? (.ofUnit unit :: done) rest
    | none => none
  | '\\' :: c :: rest =>
    match simpleEscape? c with
    | some c => textItems? (.char c :: done) rest
    | none => none
  | c :: rest => if c < ' ' then none else textItems? (.char c :: done) rest

/-- The characters that the items form, added to `done` in reverse, surrogates joined in pairs. -/
def joinItems? (done : List Char) : List TextItem → Option (List Char)
  | [] => some done.reverse
  | .char c :: rest => joinItems? (c :: done) rest
  | .surrogate high :: .surrogate low :: rest =>
    if high < 0xdc00 ∧ 0xdc00 ≤ low then
      joinItems? (Char.ofNat (0x10000 + (high - 0xd800) * 0x400 + (low - 0xdc00)) :: done) rest
    else none
  | .surrogate _ :: _ => none

/-- The text whose opening quote was read, and what follows its closing quote. -/
def text? (cs : List Char) : Option (Option String × List Char) :=
  (textItems? [] cs).map fun (items, rest) => ((joinItems? [] items).map String.ofList, rest)

/-! ## Numbers -/

/-- The number that decimal digits stand for. -/
def decimal (digits : List Char) : Nat :=
  digits.foldl (fun n c => 10 * n + (c.toNat - '0'.toNat)) 0

/-- The longest run of digits that the characters start with, and what follows it. -/
def digits (cs : List Char) : List Char × List Char := cs.span Char.isDigit

/-- The digits of an integer part, which has no leading zero. -/
def integerPart? (cs : List Char) : Option (List Char × List Char) :=
  match digits cs with
  | ([], _) => none
  | ('0' :: _ :: _, _) => none
  | part => some part

/-- A fraction with its point, or nothing. -/
def fraction? : List Char → Option (List Char × List Char)
  | '.' :: rest =>
    match digits rest with
    | ([], _) => none
    | (ds, rest) => some ('.' :: ds, rest)
  | cs => some ([], cs)

/-- An exponent with its letter and sign, or nothing. -/
def exponent? (cs : List Char) : Option (List Char × List Char) :=
  let signed (letter : Char) (sign : List Char) (rest : List Char) :=
    match digits rest with
    | ([], _) => none
    | (ds, rest) => some (letter :: sign ++ ds, rest)
  match cs with
  | 'e' :: '+' :: rest => signed 'e' ['+'] rest
  | 'e' :: '-' :: rest => signed 'e' ['-'] rest
  | 'e' :: rest => signed 'e' [] rest
  | 'E' :: '+' :: rest => signed 'E' ['+'] rest
  | 'E' :: '-' :: rest => signed 'E' ['-'] rest
  | 'E' :: rest => signed 'E' [] rest
  | cs => some ([], cs)

/-- The number that the characters start with, whose sign is given. -/
def number? (negative : Bool) (cs : List Char) : Option (Data × List Char) := do
  let (whole, rest) ← integerPart? cs
  let (fraction, rest) ← fraction? rest
  let (exponent, rest) ← exponent? rest
  let value : Int := decimal whole
  if fraction.isEmpty ∧ exponent.isEmpty ∧ ¬ (negative ∧ value = 0) then
    return (.int (if negative then -value else value), rest)
  else
    let sign := if negative then ['-'] else []
    return (.float (String.ofList (sign ++ whole ++ fraction ++ exponent)), rest)

/-! ## Values -/

/-- Whether the character may stand between values. -/
def isBlank (c : Char) : Bool := c == ' ' || c == '\t' || c == '\n' || c == '\r'

/-- The characters after the blanks. -/
def skipBlanks (cs : List Char) : List Char := cs.dropWhile isBlank

/-- The characters after a given word. -/
def after? (word : String) (cs : List Char) : Option (List Char) :=
  if word.toList.isPrefixOf cs then some (cs.drop word.length) else none

mutual

/-- The value that the characters start with. The fuel bounds the number of steps. -/
def value? : Nat → List Char → Option (Data × List Char)
  | 0, _ => none
  | fuel + 1, cs =>
    match cs with
    | '"' :: rest => (text? rest).map fun (content, rest) => (.text content, rest)
    | '[' :: rest =>
      match skipBlanks rest with
      | ']' :: rest => some (.array [], rest)
      | rest => items? fuel [] rest
    | '\x7b' :: rest =>
      match skipBlanks rest with
      | '\x7d' :: rest => some (.record [], rest)
      | rest => fields? fuel [] rest
    | 'n' :: _ => (after? "null" cs).map (.null, ·)
    | 't' :: _ => (after? "true" cs).map (.bool true, ·)
    | 'f' :: _ => (after? "false" cs).map (.bool false, ·)
    | '-' :: rest => number? true rest
    | _ => number? false cs

/-- The rest of an array, at least one item, after the items `done` in reverse. -/
def items? : Nat → List Data → List Char → Option (Data × List Char)
  | 0, _, _ => none
  | fuel + 1, done, cs =>
    match value? fuel cs with
    | none => none
    | some (item, rest) =>
      match skipBlanks rest with
      | ',' :: rest => items? fuel (item :: done) (skipBlanks rest)
      | ']' :: rest => some (.array (item :: done).reverse, rest)
      | _ => none

/-- The rest of a record, at least one field, after the fields `done` in reverse. -/
def fields? : Nat → List (Option String × Data) → List Char → Option (Data × List Char)
  | 0, _, _ => none
  | fuel + 1, done, cs =>
    match cs with
    | '"' :: rest =>
      match text? rest with
      | none => none
      | some (name, rest) =>
        match skipBlanks rest with
        | ':' :: rest =>
          match value? fuel (skipBlanks rest) with
          | none => none
          | some (value, rest) =>
            match skipBlanks rest with
            | ',' :: rest => fields? fuel ((name, value) :: done) (skipBlanks rest)
            | '\x7d' :: rest => some (.record ((name, value) :: done).reverse, rest)
            | _ => none
        | _ => none
    | _ => none

end

/-- The tree that a JSON text writes. -/
def read? (text : String) : Option Data :=
  let cs := text.toList
  match value? (2 * cs.length + 2) (skipBlanks cs) with
  | some (d, rest) => if (skipBlanks rest).isEmpty then some d else none
  | none => none

end Postmortem.Json
