import Postmortem.Error
import Postmortem.Layout.Basic

/-! # Memory budgets

The sizes that decoding asks for come from the target, so they are booked against a `Budget` before
storage is taken. `Budget.book` refuses a size above the cap on a single allocation, and under the
policy `nonBlocking` also one that would take the booked bytes over the limit; `Budget.release`
gives booked bytes back. The count of booked bytes is a machine word and wraps. A host has storage
only for so many bytes in one piece, and that bounds what is taken however generous a budget is.

A `Loading` is a computation that books: it ends with a value or an error, and either way with a
budget. `Loading.holding` books for the time of another computation only. -/

namespace Postmortem

/-- Whether an allocation may take a budget over its limit. -/
inductive AllocationPolicy where
  /-- It may. -/
  | blocking
  /-- It fails instead. -/
  | nonBlocking
  deriving DecidableEq, Repr, Inhabited

/-- Bytes held by decoded objects, and the bounds on them. -/
structure Budget where
  /-- The soft limit on booked bytes. -/
  limit : UInt64
  /-- The hard limit on a single allocation. -/
  maxAllocation : UInt64
  /-- The most bytes that the host has storage for in one piece, whatever the other limits say. -/
  storable : Nat := 1 <<< 36
  /-- The bytes booked and not yet released. -/
  booked : UInt64 := 0
  deriving DecidableEq, Repr

namespace Budget

/-- The budget of a layout's limits. -/
def ofLimits (l : Limits) : Budget where
  limit := l.budget
  maxAllocation := l.maxAllocation

/-- A budget whose limits are half of what a word holds. -/
def unlimited : Budget where
  limit := UInt64.ofNat Word.signedTop
  maxAllocation := UInt64.ofNat Word.signedTop

/-- The budget after `size` bytes were booked. -/
def book (b : Budget) (size : UInt64) (policy : AllocationPolicy) : Except DecodeError Budget :=
  if b.maxAllocation < size then .error (.allocationRefused size)
  else if policy = .nonBlocking ∧ b.limit.toNat < Word.capped (b.booked.toNat + size.toNat) then
    .error (.allocationRefused size)
  else .ok { b with booked := b.booked + size }

/-- The budget after `size` bytes were given back. -/
def release (b : Budget) (size : UInt64) : Budget := { b with booked := b.booked - size }

@[simp] theorem limit_release (b : Budget) (size : UInt64) : (b.release size).limit = b.limit := rfl

@[simp] theorem maxAllocation_release (b : Budget) (size : UInt64) :
    (b.release size).maxAllocation = b.maxAllocation := rfl

@[simp] theorem storable_release (b : Budget) (size : UInt64) :
    (b.release size).storable = b.storable := rfl

theorem release_of_book {b b' : Budget} {size : UInt64} {policy : AllocationPolicy}
    (h : b.book size policy = .ok b') : b'.release size = b := by
  unfold book at h
  split at h
  · cases h
  · split at h
    · cases h
    · cases h
      simp [release]

end Budget

/-! ## Computations that book -/

/-- A computation that books bytes and may fail. -/
abbrev Loading (α : Type) := ExceptT DecodeError (StateM Budget) α

namespace Loading

/-- How a computation ends, and the budget it leaves. -/
def runFrom (b : Budget) {α : Type} (body : Loading α) : Except DecodeError α × Budget :=
  StateT.run (ExceptT.run body) b

/-- A computation that books nothing. -/
def ofExcept {α : Type} (result : Except DecodeError α) : Loading α :=
  ExceptT.mk fun b => (result, b)

@[simp] theorem runFrom_pure (b : Budget) {α : Type} (value : α) :
    runFrom b (pure value) = (.ok value, b) := rfl

@[simp] theorem runFrom_throw (b : Budget) {α : Type} (e : DecodeError) :
    runFrom b (throw e : Loading α) = (.error e, b) := rfl

@[simp] theorem runFrom_ofExcept (b : Budget) {α : Type} (result : Except DecodeError α) :
    runFrom b (ofExcept result) = (result, b) := rfl

theorem runFrom_bind (b : Budget) {α β : Type} (body : Loading α) (next : α → Loading β) :
    runFrom b (body >>= next) =
      match runFrom b body with
      | (.ok value, b) => runFrom b (next value)
      | (.error e, b) => (.error e, b) := by
  rcases h : runFrom b body with ⟨result, b'⟩
  have h' : (body : StateM Budget (Except DecodeError α)) b = (result, b') := h
  have continued : runFrom b (body >>= next) =
      match (body : StateM Budget (Except DecodeError α)) b with
      | (result, b) => (ExceptT.bindCont next result : StateM Budget (Except DecodeError β)) b :=
    rfl
  rw [continued, h']
  cases result with
  | ok value => rfl
  | error e => rfl

/-- Books `size` bytes. -/
def book (size : UInt64) (policy : AllocationPolicy) : Loading Unit :=
  ExceptT.mk fun b =>
    match b.book size policy with
    | .ok b => (.ok (), b)
    | .error e => (.error e, b)

/-- Gives `size` bytes back. -/
def release (size : UInt64) : Loading Unit :=
  ExceptT.mk fun b => (.ok (), b.release size)

/-- Books `count` elements of `width` bytes and takes storage for them; the number of bytes. Storage
is refused, and the booking given back, for more bytes than the host has in one piece. -/
def storage (count width : Nat) (policy : AllocationPolicy) : Loading UInt64 := do
  if Word.top < count * width then throw (.allocationRefused (UInt64.ofNat Word.top))
  let size := UInt64.ofNat (count * width)
  book size policy
  if (← get).storable < count * width then
    release size
    throw (.allocationRefused size)
  return size

/-- Runs `body` while storage for `count` elements of `width` bytes is held, and gives the storage
back however `body` ends. -/
def holding {α : Type} (count width : Nat) (policy : AllocationPolicy) (body : Loading α) :
    Loading α := do
  let size ← storage count width policy
  ExceptT.mk fun b =>
    let (result, b) := body.runFrom b
    (result, b.release size)

end Loading

end Postmortem
