import Postmortem.FixedArray

/-! # Scope infos

A `ScopeInfo` describes the variables of one function's scope: a header that counts the variables of
each kind, and the names of the variables in one region for each kind,

`header … | parameters | stack-local header | stack locals | context locals`.

Where the regions start is not stored; it follows from the counts (`ScopeInfo.start`). The variables
of a kind are listed by a `VarCursor`, which stops with an error where the array is too short for
its region. -/

namespace Postmortem

/-- The kinds of variables. -/
inductive VarKind where
  | parameter
  /-- A local variable in a stack frame. -/
  | stackLocal
  /-- A local variable that a closure captured in its context. -/
  | contextLocal
  deriving DecidableEq, Repr, Inhabited

namespace VarKind

/-- Every kind, in the order of the regions. -/
def all : List VarKind := [.parameter, .stackLocal, .contextLocal]

/-- The name of a kind. -/
def label : VarKind → String
  | .parameter => "parameter"
  | .stackLocal => "stack local variable"
  | .contextLocal => "context local variable"

end VarKind

/-- A variable of a scope. -/
structure ScopeVar where
  kind : VarKind
  /-- The position among the variables of the kind. -/
  ordinal : Nat
  /-- The slot with the variable's name. -/
  slot : Nat
  deriving DecidableEq, Repr

/-- The position of the variable's value in a context, where only context locals have one. -/
def ScopeVar.contextIndex? (v : ScopeVar) : Option Nat :=
  if v.kind = .contextLocal then some v.ordinal else none

/-- Where a scope info keeps its counts and its first names. -/
structure ScopeInfoHeader where
  parameterCount : Nat
  stackLocalCount : Nat
  contextLocalCount : Nat
  firstName : Nat
  stackLocalHeader : Nat
  deriving DecidableEq, Repr

namespace ScopeInfoHeader

/-- The header that the layout describes. -/
def ofLayout (l : Layout) : Except DecodeError ScopeInfoHeader := do
  let indices := l.scopeInfo
  return {
    parameterCount := ← requireIndex ⟨"scope_info", "idx_nparams"⟩ indices.parameterCount
    stackLocalCount := ← requireIndex ⟨"scope_info", "idx_nstacklocals"⟩ indices.stackLocalCount
    contextLocalCount :=
      ← requireIndex ⟨"scope_info", "idx_ncontextlocals"⟩ indices.contextLocalCount
    firstName := ← requireIndex ⟨"scope_info", "idx_first_vars"⟩ indices.firstName
    stackLocalHeader := (indices.stackLocalHeader.map (·.toNat)).getD 0 }

/-- The slot that counts the variables of a kind. -/
def countSlot (h : ScopeInfoHeader) : VarKind → Nat
  | .parameter => h.parameterCount
  | .stackLocal => h.stackLocalCount
  | .contextLocal => h.contextLocalCount

/-- Slots before the first name of a kind that belong to no variable. -/
def gap (h : ScopeInfoHeader) : VarKind → Nat
  | .stackLocal => h.stackLocalHeader
  | _ => 0

end ScopeInfoHeader

/-- A scope info, copied out of the target. -/
structure ScopeInfo where
  array : FixedArray
  header : ScopeInfoHeader
  tags : TagScheme
  deriving DecidableEq, Repr

namespace ScopeInfo

/-- Whether the slot holds a natural number. -/
def isCount (tags : TagScheme) (array : FixedArray) (slot : Nat) : Bool :=
  match tags.classify ((array.get? slot).getD 0) with
  | .smallInt n => 0 ≤ n
  | _ => false

/-- What keeps an array from being a scope info. -/
def flaw? (tags : TagScheme) (header : ScopeInfoHeader) (array : FixedArray) : Option ArrayFlaw :=
  let slots := VarKind.all.map header.countSlot
  if array.size < header.firstName ∨ slots.any (array.size ≤ ·) then some .headerTooShort
  else if slots.all (isCount tags array) then none
  else some .countsUnreadable

/-- Loads the scope info that a word points to. -/
def load (s : Snapshot) (w : Word) (policy : AllocationPolicy) : Loading ScopeInfo := do
  let header ← Loading.ofExcept (ScopeInfoHeader.ofLayout s.layout)
  let array ← FixedArray.loadAs s w "ScopeInfo" s.layout.types.scopeInfo policy
  match flaw? s.layout.tags header array with
  | none => return { array, header, tags := s.layout.tags }
  | some flaw =>
    Loading.release array.booked
    throw (.corruptArray array.address flaw)

variable (i : ScopeInfo)

/-- The address of the scope info. -/
def address : Word := i.array.address

/-- The number of slots. -/
def size : Nat := i.array.size

/-- The number of variables of a kind. -/
def count (kind : VarKind) : Nat :=
  (i.tags.decode ((i.array.get? (i.header.countSlot kind)).getD 0)).toNat

/-- The slot past the region of a kind that comes after the slots before `start`. -/
def past (start : Nat) (kind : VarKind) : Nat :=
  Word.capped (Word.capped (start + i.header.gap kind) + i.count kind)

/-- The slot where the names of a kind start, past the regions of the kinds before it. -/
def start (kind : VarKind) : Nat :=
  let before := VarKind.all.takeWhile (· ≠ kind)
  Word.capped (before.foldl i.past i.header.firstName + i.header.gap kind)

/-- The word with the name of a variable. -/
def nameOf (v : ScopeVar) : Word := (i.array.get? v.slot).getD 0

end ScopeInfo

/-! ## Listing variables -/

/-- A position in the list of a scope info's variables of one kind. -/
structure VarCursor where
  info : ScopeInfo
  kind : VarKind
  start : Nat
  count : Nat
  /-- The ordinal of the variable that comes next. -/
  next : Nat := 0
  deriving DecidableEq, Repr

namespace VarCursor

variable (c : VarCursor)

/-- The next variable, or an error if the array ends before it, and the cursor past it. After an
error nothing comes any more. -/
def step? : Option (Except DecodeError ScopeVar × VarCursor) :=
  if c.count ≤ c.next then none
  else
    let slot := Word.capped (c.start + c.next)
    if c.info.size ≤ slot then
      some (.error (.corruptArray c.info.address .namesMissing), { c with next := c.count })
    else some (.ok { kind := c.kind, ordinal := c.next, slot }, { c with next := c.next + 1 })

/-- The most items that can still come. -/
def bound : Nat := c.count - c.next

theorem bound_lt_of_step? {c c' : VarCursor} {item : Except DecodeError ScopeVar}
    (h : c.step? = some (item, c')) : c'.bound < c.bound := by
  unfold step? at h
  split at h
  · cases h
  · dsimp only at h
    split at h
    · cases h
      simp only [bound]
      omega
    · cases h
      simp only [bound]
      omega

/-- All items still to come. -/
def items (c : VarCursor) : List (Except DecodeError ScopeVar) :=
  match _h : c.step? with
  | none => []
  | some (item, next) => item :: next.items
termination_by c.bound
decreasing_by exact bound_lt_of_step? _h

end VarCursor

namespace ScopeInfo

/-- A cursor before the first variable of a kind. -/
def vars (i : ScopeInfo) (kind : VarKind) : VarCursor where
  info := i
  kind := kind
  start := i.start kind
  count := i.count kind

/-- Visits the variables of a kind. Those before the end of an array that is too short are visited
all the same. -/
def visitVars {m : Type → Type} [Monad m] {β : Type} (i : ScopeInfo) (kind : VarKind)
    (visitor : ScopeVar → m (Flow β)) : m (Except DecodeError (Flow β)) := do
  let flow ← visit (fun item =>
    match item with
    | .ok v => do
      match ← visitor v with
      | .goOn => return .goOn
      | .broke value => return .broke (Except.ok (.broke value))
    | .error e => return .broke (Except.error e)) (i.vars kind).items
  match flow with
  | .goOn => return .ok .goOn
  | .broke result => return result

end ScopeInfo

end Postmortem
