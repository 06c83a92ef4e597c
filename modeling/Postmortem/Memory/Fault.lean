import Postmortem.Memory.Basic

/-! # Memory with faults

A fault is a range of addresses that cannot be read for a reason of its own, whatever lies there.
`Memory.withFaults` puts faults over a memory. -/

namespace Postmortem

/-- A range of addresses, both ends included, on which reads fail. -/
structure Fault where
  first : Word
  last : Word
  reason : String
  deriving DecidableEq, Repr

/-- Whether the fault lies on the range of `length` bytes from `address` on. -/
def Fault.touches (fault : Fault) (address : Word) (length : Nat) : Bool :=
  0 < length ∧ fault.first.toNat ≤ Word.capped (address.toNat + (length - 1)) ∧
    address.toNat ≤ fault.last.toNat

/-- The memory in which reads fail that touch a fault. -/
def Memory.withFaults (faults : List Fault) (m : Memory) : Memory where
  read address length :=
    match faults.find? (·.touches address length) with
    | some fault => .error (.failed fault.reason)
    | none => m.read address length
  length_of_read h := by
    split at h
    · cases h
    · exact m.length_of_read h

end Postmortem
