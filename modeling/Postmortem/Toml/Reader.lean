import Postmortem.Toml.Text
import Postmortem.Toml.Table

/-! # Reading TOML text

`Toml.read?` accepts a TOML 1.1 document and gives its table as data. A document is a sequence of
statements, one a line: headers, and keys with values. Arrays and inline tables may run over
several lines; how deep they nest is bounded by `maxNesting`. -/

namespace Postmortem.Toml

/-- How deep arrays and inline tables may nest. A key has fewer dots than this. -/
def maxNesting : Nat := 80

/-! ## Blanks and comments -/

/-- Whether the character is a blank within a line. -/
def isBlank (c : Char) : Bool := c == ' ' || c == '\t'

/-- The characters after the blanks of a line. -/
def skipBlanks (cs : List Char) : List Char := cs.dropWhile isBlank

/-- The characters after blanks, line breaks and comments, read inside a comment or not. -/
def skipGap (comment : Bool) : List Char → List Char
  | [] => []
  | '\r' :: '\n' :: rest => skipGap false rest
  | c :: rest =>
    if c == '\n' then skipGap false rest
    else if comment then if isPlain c then skipGap true rest else c :: rest
    else if isBlank c then skipGap false rest
    else if c == '#' then skipGap true rest
    else c :: rest

/-- The next line, if nothing but blanks and a comment is left on this one. -/
def nextLine? (cs : List Char) : Option (List Char) :=
  let rest :=
    match skipBlanks cs with
    | '#' :: rest => rest.dropWhile isPlain
    | rest => rest
  if rest.isEmpty then some [] else newline? rest

/-! ## Keys -/

/-- Whether the character may stand in a key without quotes. -/
def isBare (c : Char) : Bool := c.isAlphanum || c == '_' || c == '-'

/-- A key without dots. -/
def simpleKey? (cs : List Char) : Option (String × List Char) :=
  match cs with
  | '"' :: rest => (basicText? cs.length [] rest).map fun (key, rest) => (String.ofList key, rest)
  | '\'' :: rest => (literalText? [] rest).map fun (key, rest) => (String.ofList key, rest)
  | _ =>
    match cs.span isBare with
    | ([], _) => none
    | (key, rest) => some (String.ofList key, rest)

/-- A key: the names before its dots, after those of `path` in reverse, and the last name. It has
fewer than `maxNesting` dots. -/
def key? : Nat → List String → List Char → Option (List String × String × List Char)
  | 0, _, _ => none
  | fuel + 1, path, cs =>
    match simpleKey? cs with
    | none => none
    | some (name, rest) =>
      match skipBlanks rest with
      | '.' :: rest => key? fuel (name :: path) (skipBlanks rest)
      | rest => if path.length < maxNesting then some (path.reverse, name, rest) else none

/-! ## Values -/

/-- Whether the character may stand in a value without quotes or brackets. -/
def isScalarChar (c : Char) : Bool :=
  !(['=', ',', '[', ']', '\x7b', '\x7d', ' ', '\t', '#', '\r', '\n'].contains c)

/-- Whether the character may begin a further word of a value, after blanks. -/
def isWordStart (c : Char) : Bool := isScalarChar c && !(['.', '"', '\''].contains c)

/-- The characters of a value without quotes or brackets, and what follows it. The value is made of
words: blanks belong to it if another word follows them, as between a date and a time. -/
def scalarChars (cs : List Char) : List Char × List Char :=
  let rest := cs.dropWhile isScalarChar
  let next := skipBlanks rest
  if h : next.length < rest.length ∧ next.head?.any isWordStart then
    have : next.length < cs.length := Nat.lt_of_lt_of_le h.1 (List.dropWhile_suffix _).length_le
    let (words, rest') := scalarChars next
    (cs.takeWhile isScalarChar ++ rest.takeWhile isBlank ++ words, rest')
  else (cs.takeWhile isScalarChar, rest)
termination_by cs.length

mutual

/-- The value that the characters start with, at most `room` brackets deep. The fuel bounds the
number of steps. -/
def value? : Nat → Nat → List Char → Option (Data × List Char)
  | 0, _, _ => none
  | fuel + 1, room, cs =>
    match cs with
    | '[' :: rest =>
      match room with
      | 0 => none
      | room + 1 => items? fuel room [] (skipGap false rest)
    | '\x7b' :: rest =>
      match room with
      | 0 => none
      | room + 1 => fields? fuel room [] (skipGap false rest)
    | '"' :: _ | '\'' :: _ =>
      (text? cs).map fun (content, rest) => (.string (String.ofList content), rest)
    | _ =>
      let (word, rest) := scalarChars cs
      (scalar? word).map (·, rest)

/-- The rest of an array, after the items `done` in reverse. -/
def items? : Nat → Nat → List Data → List Char → Option (Data × List Char)
  | 0, _, _, _ => none
  | fuel + 1, room, done, cs =>
    match cs with
    | ']' :: rest => some (.array done.reverse, rest)
    | _ =>
      match value? fuel room cs with
      | none => none
      | some (item, rest) =>
        match skipGap false rest with
        | ',' :: rest => items? fuel room (item :: done) (skipGap false rest)
        | ']' :: rest => some (.array (item :: done).reverse, rest)
        | _ => none

/-- The rest of an inline table, after the entries `done`. -/
def fields? : Nat → Nat → Table → List Char → Option (Data × List Char)
  | 0, _, _, _ => none
  | fuel + 1, room, done, cs =>
    match cs with
    | '\x7d' :: rest => some (done.toData, rest)
    | _ =>
      match key? fuel [] cs with
      | none => none
      | some (path, name, rest) =>
        match skipGap false rest with
        | '=' :: rest =>
          match value? fuel room (skipGap false rest) with
          | none => none
          | some (value, rest) =>
            match done.assign? [] path name value with
            | none => none
            | some done =>
              match skipGap false rest with
              | ',' :: rest => fields? fuel room done (skipGap false rest)
              | '\x7d' :: rest => some (done.toData, rest)
              | _ => none
        | _ => none

end

/-! ## Documents -/

/-- A statement of a document. -/
inductive Statement where
  /-- The header of a table. -/
  | define (path : List String) (name : String)
  /-- The header of one more table of an array. -/
  | addElement (path : List String) (name : String)
  /-- A key with its value. -/
  | assign (path : List String) (name : String) (value : Data)

/-- The statement that the characters start with, and what follows it. -/
def statement? (cs : List Char) : Option (Statement × List Char) :=
  match cs with
  | '[' :: '[' :: rest =>
    match key? cs.length [] (skipBlanks rest) with
    | some (path, name, ']' :: ']' :: rest) => some (.addElement path name, rest)
    | _ => none
  | '[' :: rest =>
    match key? cs.length [] (skipBlanks rest) with
    | some (path, name, ']' :: rest) => some (.define path name, rest)
    | _ => none
  | _ =>
    match key? cs.length [] cs with
    | some (path, name, '=' :: rest) =>
      (value? (2 * cs.length + 2) maxNesting (skipBlanks rest)).map fun (value, rest) =>
        (.assign path name value, rest)
    | _ => none

/-- The statements of a document, after those `done` in reverse. -/
def statements? : Nat → List Statement → List Char → Option (List Statement)
  | 0, _, _ => none
  | fuel + 1, done, cs =>
    match skipGap false cs with
    | [] => some done.reverse
    | rest =>
      match statement? rest with
      | none => none
      | some (statement, rest) => (nextLine? rest).bind (statements? fuel (statement :: done))

/-- The table of a document and the path of the header that was read last. -/
structure Document where
  root : Table := []
  header : List String := []

/-- The document after one more statement. -/
def Document.add? (d : Document) : Statement → Option Document
  | .define path name =>
    (d.root.define? path name).map fun root => { root, header := path ++ [name] }
  | .addElement path name =>
    (d.root.addElement? path name).map fun root => { root, header := path ++ [name] }
  | .assign path name value =>
    (d.root.assign? d.header path name value).map fun root => { d with root }

/-- The table that a TOML text writes. A byte order mark may stand in front of it. -/
def read? (text : String) : Option Data := do
  let cs :=
    match text.toList with
    | '\ufeff' :: rest => rest
    | cs => cs
  let statements ← statements? (cs.length + 1) [] cs
  let document ← statements.foldlM Document.add? {}
  return document.root.toData

end Postmortem.Toml
