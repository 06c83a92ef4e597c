import Postmortem.Data.Basic

/-! # Numbers, truth values and moments of TOML

`Toml.scalar?` reads a value that is written without quotes or brackets. A numeral is judged twice.
Its form is looked at where it stands: an integer is decimal with an optional sign, or hexadecimal,
octal or binary without one, a float has a fraction or an exponent, and underscores stand between
digits (`isGrouped`). Its number is looked at only where somebody asks for it: the form lets pass
an integer with letters behind an underscore or without digits after its base, and of any size. A
numeral whose number does not exist, an integer below `-2 ^ 127` or above `2 ^ 128 - 1` or a float
that is not finite is a `Data.misnumber`. Dates and times are those of RFC 3339, in which the
seconds may be left out. -/

namespace Postmortem.Toml

/-! ## Digits -/

/-- The value of a digit in a base of at most sixteen. -/
def digitValue? (base : Nat) (c : Char) : Option Nat :=
  let value :=
    if '0' ≤ c ∧ c ≤ '9' then c.toNat - '0'.toNat
    else if 'a' ≤ c ∧ c ≤ 'f' then c.toNat - 'a'.toNat + 10
    else if 'A' ≤ c ∧ c ≤ 'F' then c.toNat - 'A'.toNat + 10
    else base
  if value < base then some value else none

/-- The number that digits stand for. -/
def ofDigits (base : Nat) (digits : List Nat) : Nat := digits.foldl (base * · + ·) 0

/-- The number that is written in digits, of which there has to be one. -/
def natural? (base : Nat) (cs : List Char) : Option Nat :=
  if cs.isEmpty then none else (cs.mapM (digitValue? base)).map (ofDigits base)

/-- A sign, if there is one: whether it is a minus, and what follows it. -/
def splitSign : List Char → Bool × List Char
  | '+' :: rest => (false, rest)
  | '-' :: rest => (true, rest)
  | cs => (false, cs)

/-! ## Groups of digits -/

/-- Whether every underscore stands between two digits: each group but the first begins with a
digit, and each but the last ends with one. -/
def isGrouped (isDigit : Char → Bool) (cs : List Char) : Bool :=
  let groups := cs.splitOn '_'
  groups.tail.all (·.head?.any isDigit) && groups.dropLast.all (·.getLast?.any isDigit)

/-- A numeral without its underscores. -/
def ungrouped (cs : List Char) : List Char := cs.filter (· != '_')

/-! ## Integers -/

/-- Whether the character is a digit in some base. -/
def isAnyDigit (c : Char) : Bool := (digitValue? 16 c).isSome

/-- An integer numeral with its number, if it has one. -/
def integer (cs : List Char) (n : Option Int) : Data :=
  match n with
  | some n =>
    if -(1 <<< 127 : Nat) ≤ n ∧ n < (1 <<< 128 : Nat) then .int n
    else .misnumber (String.ofList cs)
  | none => .misnumber (String.ofList cs)

/-- Whether a decimal integer may go on with these characters after its first digits. -/
def isIntegerTail : List Char → Bool
  | [] => true
  | '_' :: rest => rest.all fun c => !(['.', 'e', 'E', ' '].contains c)
  | _ => false

/-- An integer in decimal digits, without leading zero. -/
def decimal? (cs : List Char) : Option Data :=
  let (negative, unsigned) := splitSign cs
  let isWhole := unsigned = ['0'] ∨ (unsigned ≠ [] ∧ unsigned.head? ≠ some '0')
  if isWhole ∧ isIntegerTail (unsigned.dropWhile Char.isDigit) ∧ isGrouped isAnyDigit cs then
    let n := (natural? 10 (ungrouped unsigned)).map fun n => if negative then -(n : Int) else n
    some (integer cs n)
  else none

/-- The base that the letter after a zero names. -/
def baseOf? : Char → Option Nat
  | 'x' => some 16
  | 'o' => some 8
  | 'b' => some 2
  | _ => none

/-- An integer whose base is named. -/
def based? : List Char → Option Data
  | '0' :: letter :: rest =>
    match baseOf? letter with
    | some base =>
      let digits := ungrouped rest
      if digits.all (fun c => (digitValue? base c).isSome) ∧ isGrouped isAnyDigit rest then
        some (integer ('0' :: letter :: rest) ((natural? base digits).map Int.ofNat))
      else none
    | none => none
  | _ => none

/-! ## Floats -/

/-- The least number that rounds to no finite double. -/
def overflow : Nat := 1 <<< 1024 - 1 <<< 970

/-- Whether `mantissa * 10 ^ exponent` rounds to a finite double. -/
def isFinite (mantissa : Nat) (exponent : Int) : Bool :=
  if mantissa = 0 then true
  else
    let size : Int := (Nat.toDigits 10 mantissa).length + exponent
    if 310 < size then false
    else if size < 0 then true
    else if 0 ≤ exponent then mantissa * Nat.pow 10 exponent.toNat < overflow
    else mantissa < overflow * Nat.pow 10 (-exponent).toNat

/-- The digits at the start, of which there has to be one, without the underscores among them, and
what follows. -/
def digitRun? (cs : List Char) : Option (List Char × List Char) :=
  let (run, rest) := cs.span fun c => c.isDigit || c == '_'
  if (ungrouped run).isEmpty then none else some (ungrouped run, rest)

/-- The digits after a point, if there is one, and what follows. -/
def fraction? : List Char → Option (List Char × List Char)
  | '.' :: rest => digitRun? rest
  | rest => some ([], rest)

/-- The number after the letter of an exponent, if there is one. Nothing may follow it. -/
def exponent? : List Char → Option Int
  | [] => some 0
  | letter :: rest =>
    if letter = 'e' ∨ letter = 'E' then
      let (negative, unsigned) := splitSign rest
      match digitRun? unsigned with
      | some (digits, []) =>
        (natural? 10 digits).map fun n => if negative then -(n : Int) else n
      | _ => none
    else none

/-- A number in decimal digits with a fraction, an exponent or both, without leading zero. -/
def float? (cs : List Char) : Option Data := do
  let (_, unsigned) := splitSign cs
  let (whole, rest) ← digitRun? unsigned
  let (fraction, exponent) ← fraction? rest
  let exponent ← exponent? exponent
  let mantissa ← natural? 10 (whole ++ fraction)
  let isWhole := whole.length = 1 ∨ unsigned.head? ≠ some '0'
  if rest ≠ [] ∧ isWhole ∧ isGrouped Char.isDigit cs then
    let numeral := String.ofList cs
    return if isFinite mantissa (exponent - fraction.length) then .float numeral
      else .misnumber numeral
  else failure

/-- The numbers that are written as words. -/
def special? (cs : List Char) : Option Data :=
  let (_, unsigned) := splitSign cs
  if unsigned = ['i', 'n', 'f'] ∨ unsigned = ['n', 'a', 'n'] then some (.float (String.ofList cs))
  else none

/-! ## Moments -/

/-- The number that exactly `count` digits stand for, and what follows them. -/
def fixedDigits? (count : Nat) (cs : List Char) : Option (Nat × List Char) := do
  let ds := cs.take count
  if ds.length = count ∧ ds.all Char.isDigit then
    return (ofDigits 10 (ds.map fun c => c.toNat - '0'.toNat), cs.drop count)
  else failure

/-- What follows a given character. -/
def skip? (c : Char) : List Char → Option (List Char)
  | [] => none
  | d :: rest => if d = c then some rest else none

/-- Days in a month of the Gregorian calendar. -/
def daysInMonth (year month : Nat) : Nat :=
  if month = 2 then
    if year % 4 = 0 ∧ (year % 100 ≠ 0 ∨ year % 400 = 0) then 29 else 28
  else if month = 4 ∨ month = 6 ∨ month = 9 ∨ month = 11 then 30
  else 31

/-- What follows a date. -/
def date? (cs : List Char) : Option (List Char) := do
  let (year, cs) ← fixedDigits? 4 cs
  let (month, cs) ← fixedDigits? 2 (← skip? '-' cs)
  let (day, cs) ← fixedDigits? 2 (← skip? '-' cs)
  if 1 ≤ month ∧ month ≤ 12 ∧ 1 ≤ day ∧ day ≤ daysInMonth year month then return cs else failure

/-- What follows the seconds of a time, which may be left out. -/
def seconds? : List Char → Option (List Char)
  | ':' :: cs => do
    let (second, cs) ← fixedDigits? 2 cs
    if 60 < second then failure
    match cs with
    | '.' :: cs =>
      let (fraction, cs) := cs.span Char.isDigit
      if fraction.isEmpty then none else some cs
    | cs => some cs
  | cs => some cs

/-- What follows a time of day. -/
def time? (cs : List Char) : Option (List Char) := do
  let (hour, cs) ← fixedDigits? 2 cs
  let (minute, cs) ← fixedDigits? 2 (← skip? ':' cs)
  if hour ≤ 23 ∧ minute ≤ 59 then seconds? cs else failure

/-- What follows the distance from universal time, which may be left out. -/
def offset? : List Char → Option (List Char)
  | [] => some []
  | c :: cs =>
    if c = 'Z' ∨ c = 'z' then some cs
    else if c = '+' ∨ c = '-' then do
      let (hours, cs) ← fixedDigits? 2 cs
      let (minutes, cs) ← fixedDigits? 2 (← skip? ':' cs)
      if hours ≤ 23 ∧ minutes ≤ 59 then return cs else failure
    else none

/-- Whether the text is a date, a time, or a date with a time after it. -/
def isMoment (cs : List Char) : Bool :=
  match date? cs with
  | some [] => true
  | some (separator :: rest) =>
    (separator == 'T' || separator == 't' || separator == ' ') &&
      ((time? rest).bind offset?).any List.isEmpty
  | none => (time? cs).any List.isEmpty

/-- A moment, as a record with one field that no layout uses. -/
def moment? (cs : List Char) : Option Data :=
  if isMoment cs then some (.ofFields [("$moment", .string (String.ofList cs))]) else none

/-! ## Scalars -/

/-- The value that is written without quotes or brackets. -/
def scalar? (cs : List Char) : Option Data :=
  if cs = "true".toList then some (.bool true)
  else if cs = "false".toList then some (.bool false)
  else special? cs <|> based? cs <|> decimal? cs <|> float? cs <|> moment? cs

end Postmortem.Toml
