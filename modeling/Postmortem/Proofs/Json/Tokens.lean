import Mathlib.Data.List.TakeDrop
import Postmortem.Json.Printer
import Postmortem.Json.Reader
import Postmortem.Proofs.Text.JsonItems

/-! # Texts and numbers in JSON

What the printer writes of a text, the reader takes for that text (`Json.text?_quote`), whatever its
characters are. What it writes of an integer is taken for that integer (`Json.number?_toDigits`), if
no more digits come after it: after a value there is nothing, or a comma, or the end of an array or
a record (`Json.Ends`). -/

namespace Postmortem.Json

/-! ## Texts -/

theorem toList_foldl_push (out : String) (cs : List Char) :
    (cs.foldl String.push out).toList = out.toList ++ cs := by
  induction cs generalizing out with
  | nil => simp
  | cons c cs ih => simp [ih]

theorem toList_quote (content : String) :
    (quote (some content)).toList = '"' :: (content.toList.flatMap escape ++ ['"']) := by
  have escaped (out : String) (cs : List Char) :
      (cs.foldl (fun out c => (escape c).foldl String.push out) out).toList =
        out.toList ++ cs.flatMap escape := by
    induction cs generalizing out with
    | nil => simp
    | cons c cs ih => simp [ih, toList_foldl_push]
  simp [quote, escaped]

/-- The digits of a control character's escape. -/
theorem hexNumber?_control : ∀ n < 32,
    hexNumber? ['0', '0', Nat.digitChar (n / 16), Nat.digitChar (n % 16)] = some n := by
  decide

/-- What is written of a character is read as one. -/
theorem textItems?_char (done : List TextItem) (c : Char) (rest : List Char) :
    textItems? done (escape c ++ rest) = textItems? (.char c :: done) rest := by
  unfold escape
  split
  -- The last case is that of a character without an escape of its own.
  case h_8 notQuote notBackslash _ _ _ _ _ =>
    split
    case isTrue control =>
      have small : c.toNat < 32 := control
      have number := hexNumber?_control c.toNat small
      have unit : TextItem.ofUnit c.toNat = .char c := by
        rw [TextItem.ofUnit, if_neg (by omega), Char.ofNat_toNat]
      simp [textItems?, number, unit]
    case isFalse visible =>
      have other : c ≠ '\\' := notBackslash
      rw [List.singleton_append, textItems?]
      · rw [if_neg visible]
      · simpa using notQuote
      all_goals simp [other]
  all_goals simp [textItems?, simpleEscape?]

theorem textItems?_chars (done : List TextItem) (content rest : List Char) :
    textItems? done (content.flatMap escape ++ '"' :: rest) =
      some (done.reverse ++ content.map .char, rest) := by
  induction content generalizing done with
  | nil => simp [textItems?]
  | cons c content ih => simp [textItems?_char, ih]

/-- **A text is read back.** -/
theorem text?_quote (content : String) (rest : List Char) :
    text? (content.toList.flatMap escape ++ '"' :: rest) = some (some content, rest) := by
  rw [text?, textItems?_chars]
  simp [joinItems?_chars]

/-! ## Numbers -/

/-- What may come after a value inside an array or a record, or after all of the text. -/
def Ends (rest : List Char) : Prop := ∀ c ∈ rest.head?, c = ',' ∨ c = ']' ∨ c = '\x7d'

theorem Ends.nil : Ends [] := by
  intro c mem
  cases mem

theorem Ends.cons {c : Char} (rest : List Char) (h : c = ',' ∨ c = ']' ∨ c = '\x7d') :
    Ends (c :: rest) := by
  intro d mem
  cases mem
  exact h

theorem digits_append {ds rest : List Char} (all : ∀ c ∈ ds, c.isDigit = true) (ends : Ends rest) :
    digits (ds ++ rest) = (ds, rest) := by
  have none_left : rest.takeWhile Char.isDigit = [] ∧ rest.dropWhile Char.isDigit = rest := by
    cases rest with
    | nil => exact ⟨rfl, rfl⟩
    | cons c tail =>
      have noDigit : ¬ c.isDigit = true := by
        rcases ends c rfl with rfl | rfl | rfl <;> decide
      exact ⟨List.takeWhile_cons_of_neg noDigit, List.dropWhile_cons_of_neg noDigit⟩
  rw [digits, List.span_eq_takeWhile_dropWhile, List.takeWhile_append_of_pos all,
    List.dropWhile_append_of_pos all, none_left.1, none_left.2, List.append_nil]

theorem isDigit_of_mem_toDigits {n : Nat} {c : Char} (mem : c ∈ Nat.toDigits 10 n) :
    c.isDigit = true :=
  Nat.isDigit_of_mem_toDigits (by decide) (by decide) mem

/-- No number of two digits or more begins with a zero. -/
theorem toDigits_ne_zero_cons (n : Nat) (c : Char) (tail : List Char) :
    Nat.toDigits 10 n ≠ '0' :: c :: tail := by
  have head {n : Nat} (pos : 0 < n) : (Nat.toDigits 10 n).head? ≠ some '0' := by
    induction n using Nat.base_induction 10 (by decide) with
    | single m small =>
      rw [Nat.toDigits_of_lt_base small]
      revert pos m
      decide
    | digit m k small pos' ih =>
      have begins : (Nat.toDigits 10 m).head?.isSome := by simp [Nat.toDigits_ne_nil]
      rw [← Nat.toDigits_append_toDigits (by decide) pos' small, List.head?_append,
        Option.or_of_isSome begins]
      exact ih pos'
  intro leading
  rcases Nat.eq_zero_or_pos n with rfl | pos
  · cases leading
  · exact head pos (congrArg List.head? leading)

theorem integerPart?_toDigits (n : Nat) {rest : List Char} (ends : Ends rest) :
    integerPart? (Nat.toDigits 10 n ++ rest) = some (Nat.toDigits 10 n, rest) := by
  rw [integerPart?, digits_append (fun _ => isDigit_of_mem_toDigits) ends]
  split
  · rename_i empty
    exact absurd (congrArg Prod.fst empty) Nat.toDigits_ne_nil
  · rename_i leading
    exact absurd (congrArg Prod.fst leading) (toDigits_ne_zero_cons _ _ _)
  · rfl

theorem number?_toDigits (negative : Bool) (n : Nat) {rest : List Char} (ends : Ends rest)
    (noZero : ¬ (negative ∧ n = 0)) :
    number? negative (Nat.toDigits 10 n ++ rest) =
      some (.int (if negative then -n else n), rest) := by
  have decimal_eq : decimal (Nat.toDigits 10 n) = n := Nat.ofDigitChars_ten_toDigits
  have noFraction : fraction? rest = some ([], rest) := by
    cases rest with
    | nil => rfl
    | cons c tail => rcases ends c rfl with rfl | rfl | rfl <;> rfl
  have noExponent : exponent? rest = some ([], rest) := by
    cases rest with
    | nil => rfl
    | cons c tail => rcases ends c rfl with rfl | rfl | rfl <;> rfl
  rw [number?, integerPart?_toDigits n ends]
  simp only [Option.bind_eq_bind, Option.bind_some, noFraction, noExponent, decimal_eq]
  rw [if_pos (by simpa using noZero)]
  rfl

theorem value?_digit {fuel : Nat} {c : Char} {tail : List Char} (digit : c.isDigit = true) :
    value? (fuel + 1) (c :: tail) = number? false (c :: tail) := by
  rw [value?]
  all_goals
    intro rest same
    cases same
    exact absurd digit (by decide)

end Postmortem.Json
