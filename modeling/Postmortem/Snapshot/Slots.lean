import Postmortem.Budget
import Postmortem.Snapshot.Basic

/-! # Reading slots

`Snapshot.readSlots` copies consecutive words out of the target with one read of the memory. The raw
bytes are booked while they are converted; the copy stays booked for as long as it is kept. -/

namespace Postmortem

/-- Words copied out of the target, and the bytes booked for them. -/
structure Slots where
  words : Array Word
  booked : UInt64
  deriving DecidableEq, Repr

/-- The words that consecutive bytes hold, `size` bytes each. -/
def wordsOfBytes (size : Nat) : Nat → List UInt8 → List Word
  | 0, _ => []
  | count + 1, bytes =>
    Word.ofBytes (bytes.take size) :: wordsOfBytes size count (bytes.drop size)

@[simp] theorem length_wordsOfBytes (size count : Nat) (bytes : List UInt8) :
    (wordsOfBytes size count bytes).length = count := by
  induction count generalizing bytes with
  | zero => rfl
  | succ count ih => simp [wordsOfBytes, ih]

/-- Bytes booked for each word of a copy. -/
def slotWidth : Nat := 8

/-- Consecutive words of the target. -/
def Snapshot.readSlots (s : Snapshot) (address : Word) (count : Nat) (policy : AllocationPolicy) :
    Loading Slots :=
  let size := s.layout.tags.wordSize
  Loading.holding count size policy do
    let bytes ← Loading.ofExcept (s.readBytes address (count * size))
    let booked ← Loading.storage count slotWidth policy
    return { words := (wordsOfBytes size count bytes).toArray, booked }

end Postmortem
