import Postmortem.Data.Basic
import Postmortem.Toml.Scalar

/-! # Texts of TOML

A text stands between quotes, with escapes between double ones and without between single ones; it
may run over several lines between triple quotes. No control character but the tab stands in a
text as itself. Each reader takes the characters after the opening quotes and gives the content
and what follows the closing quotes. -/

namespace Postmortem.Toml

/-- Whether the character may stand in a text or a comment as itself. -/
def isPlain (c : Char) : Bool := c == '\t' || (' ' ≤ c && c != '\x7f')

/-- What follows a line break. -/
def newline? : List Char → Option (List Char)
  | '\n' :: rest => some rest
  | '\r' :: '\n' :: rest => some rest
  | _ => none

/-! ## Escapes -/

/-- The character of a number that is a Unicode scalar value. -/
def scalarValue? (n : Nat) : Option Char :=
  if n.isValidChar then some (Char.ofNat n) else none

/-- The character whose number is written in `count` hexadecimal digits, and what follows. -/
def numberedChar? (count : Nat) (cs : List Char) : Option (Char × List Char) := do
  let ds := cs.take count
  if ds.length = count then
    let values ← ds.mapM (digitValue? 16)
    return (← scalarValue? (ofDigits 16 values), cs.drop count)
  else failure

/-- The character that an escape stands for, read after the backslash, and what follows. -/
def escape? : List Char → Option (Char × List Char)
  | 'b' :: rest => some ('\x08', rest)
  | 't' :: rest => some ('\t', rest)
  | 'n' :: rest => some ('\n', rest)
  | 'f' :: rest => some ('\x0c', rest)
  | 'r' :: rest => some ('\r', rest)
  | 'e' :: rest => some ('\x1b', rest)
  | '"' :: rest => some ('"', rest)
  | '\\' :: rest => some ('\\', rest)
  | 'x' :: rest => numberedChar? 2 rest
  | 'u' :: rest => numberedChar? 4 rest
  | 'U' :: rest => numberedChar? 8 rest
  | _ => none

/-- What follows blanks and line breaks. -/
def skipBlankLines : List Char → List Char
  | ' ' :: rest => skipBlankLines rest
  | '\t' :: rest => skipBlankLines rest
  | '\n' :: rest => skipBlankLines rest
  | '\r' :: '\n' :: rest => skipBlankLines rest
  | cs => cs

/-- What follows a line that ends in a backslash, read after the backslash: blanks, a line break,
and all blanks and line breaks after it. -/
def continued? (cs : List Char) : Option (List Char) :=
  (newline? (cs.dropWhile fun c => c == ' ' || c == '\t')).map skipBlankLines

/-! ## Texts on one line -/

/-- A text between double quotes. -/
def basicText? : Nat → List Char → List Char → Option (List Char × List Char)
  | 0, _, _ => none
  | fuel + 1, done, cs =>
    match cs with
    | [] => none
    | '"' :: rest => some (done.reverse, rest)
    | '\\' :: rest =>
      match escape? rest with
      | some (c, rest) => basicText? fuel (c :: done) rest
      | none => none
    | c :: rest => if isPlain c then basicText? fuel (c :: done) rest else none

/-- A text between single quotes. -/
def literalText? (done : List Char) : List Char → Option (List Char × List Char)
  | [] => none
  | '\'' :: rest => some (done.reverse, rest)
  | c :: rest => if isPlain c then literalText? (c :: done) rest else none

/-! ## Texts over several lines -/

/-- The quotes that a run of at least three closes the text after, and what follows the run. -/
def closing? (quote : Char) (cs : List Char) : Option (List Char × List Char) :=
  let run := (cs.take 5).takeWhile (· == quote)
  if 3 ≤ run.length then some (run.drop 3, cs.drop run.length) else none

/-- A text between triple double quotes. -/
def basicLines? : Nat → List Char → List Char → Option (List Char × List Char)
  | 0, _, _ => none
  | fuel + 1, done, cs =>
    match closing? '"' cs with
    | some (quotes, rest) => some (done.reverse ++ quotes, rest)
    | none =>
      match cs with
      | [] => none
      | '\\' :: rest =>
        match escape? rest with
        | some (c, rest) => basicLines? fuel (c :: done) rest
        | none =>
          match continued? rest with
          | some rest => basicLines? fuel done rest
          | none => none
      | '\r' :: '\n' :: rest => basicLines? fuel ('\n' :: '\r' :: done) rest
      | c :: rest =>
        if c == '\n' || isPlain c then basicLines? fuel (c :: done) rest else none

/-- A text between triple single quotes. -/
def literalLines? : Nat → List Char → List Char → Option (List Char × List Char)
  | 0, _, _ => none
  | fuel + 1, done, cs =>
    match closing? '\'' cs with
    | some (quotes, rest) => some (done.reverse ++ quotes, rest)
    | none =>
      match cs with
      | [] => none
      | '\r' :: '\n' :: rest => literalLines? fuel ('\n' :: '\r' :: done) rest
      | c :: rest =>
        if c == '\n' || isPlain c then literalLines? fuel (c :: done) rest else none

/-! ## Any text -/

/-- The text that the characters start with, quotes included; `none` if it is ill-formed or not a
text. A line break right after the opening triple quotes does not count. -/
def text? (cs : List Char) : Option (List Char × List Char) :=
  match cs with
  | '"' :: '"' :: '"' :: rest => basicLines? (cs.length + 1) [] ((newline? rest).getD rest)
  | '\'' :: '\'' :: '\'' :: rest => literalLines? (cs.length + 1) [] ((newline? rest).getD rest)
  | '"' :: rest => basicText? (cs.length + 1) [] rest
  | '\'' :: rest => literalText? [] rest
  | _ => none

end Postmortem.Toml
