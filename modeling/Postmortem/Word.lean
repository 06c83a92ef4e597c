/-! # Words of the target

Addresses and tagged values are 64-bit words; a word of a 32-bit target is zero-extended. Lengths
and indices are natural numbers, and `capped` says which of them a word still holds. Words are
stored with the least significant byte first (`Word.ofBytes`) and shown in hexadecimal (`hex`). -/

namespace Postmortem

/-- A word of the target, zero-extended to 64 bits. -/
abbrev Word := UInt64

namespace Word

/-- The largest number a word holds. -/
def top : Nat := 0xffffffffffffffff

/-- The largest signed number a word holds. -/
def signedTop : Nat := 0x7fffffffffffffff

/-- The number nearest to `n` that a word holds. -/
def capped (n : Nat) : Nat := min n top

theorem capped_eq_self {n : Nat} (h : n ≤ top) : capped n = n := Nat.min_eq_left h

theorem capped_le_top (n : Nat) : capped n ≤ top := Nat.min_le_right _ _

theorem capped_le (n : Nat) : capped n ≤ n := Nat.min_le_left _ _

theorem toNat_le_top (w : Word) : w.toNat ≤ top := Nat.le_pred_of_lt w.toNat_lt

/-- The word `n` past `w`, unless the sum leaves the address space. -/
def advance? (w : Word) (n : Nat) : Option Word :=
  if w.toNat + n ≤ top then some (UInt64.ofNat (w.toNat + n)) else none

/-- The word whose bytes, least significant first, are given. -/
def ofBytes (bytes : List UInt8) : Word :=
  UInt64.ofNat (bytes.foldr (fun b n => b.toNat + 256 * n) 0)

end Word

/-- The lower-case hexadecimal text of a number, with at least `width` digits after the `0x`. -/
def hexPadded (width n : Nat) : String :=
  let digits := Nat.toDigits 16 n
  "0x" ++ String.ofList (List.replicate (width - digits.length) '0' ++ digits)

/-- The lower-case hexadecimal text of a number, such as `0x1f`. -/
def hex (n : Nat) : String := hexPadded 1 n

end Postmortem
