import Postmortem.Word

/-! # Target memory

The bytes of the target come from a `Memory`: a live process, a core file or an image put together
by hand. A read gives exactly the bytes asked for or fails with a `ReadError`; it changes
nothing. -/

namespace Postmortem

/-- Why bytes of the target could not be read. -/
inductive ReadError where
  /-- Part of the range is not mapped. -/
  | unmapped (address : Word) (length : Nat)
  /-- The range leaves the address space. -/
  | overflow (address : Word)
  /-- The source of the bytes failed. -/
  | failed (reason : String)
  deriving DecidableEq, Repr

/-- The wording of an error. -/
def ReadError.message : ReadError → String
  | .unmapped address length =>
    toString length ++ " bytes at " ++ hex address.toNat ++ " are not mapped"
  | .overflow address => "range at " ++ hex address.toNat ++ " overflows the address space"
  | .failed reason => reason

/-- A source of the target's bytes. -/
structure Memory where
  /-- The bytes from an address on, as many as asked for. -/
  read : Word → Nat → Except ReadError (List UInt8)
  length_of_read : ∀ {address length bytes}, read address length = .ok bytes →
    bytes.length = length

end Postmortem
