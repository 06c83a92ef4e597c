import Postmortem.JSFunction

/-! # Sessions

A `Session` inspects one snapshot. It keeps loaded objects and text buffers under names, and all
that its objects hold is booked against one budget: `Session.keep` puts an object under a name and
gives back what the object before it held, and `Session.drop?` gives back what an object holds. -/

namespace Postmortem

/-- Something that a session keeps under a name. -/
inductive Object where
  /-- Booked bytes without content. -/
  | reservation (size : UInt64)
  | slots (slots : Slots)
  | fixedArray (array : FixedArray)
  | array (array : JSArray)
  | context (context : Context)
  | scopeInfo (info : ScopeInfo)
  | function (function : JSFunction)
  | functionInfo (info : FunctionInfo)
  | string (string : HeapString)
  deriving DecidableEq, Repr

/-- The bytes booked for an object. -/
def Object.booked : Object → UInt64
  | .reservation size => size
  | .slots s => s.booked
  | .fixedArray a => a.booked
  | .array a => a.booked
  | .context c => c.array.booked
  | .scopeInfo i => i.array.booked
  | .function _ | .functionInfo _ | .string _ => 0

/-- The inspection of a snapshot. -/
structure Session where
  snapshot : Snapshot
  budget : Budget
  objects : NameMap Object := ∅
  buffers : NameMap TextBuffer := ∅

namespace Session

/-- The session after an object was loaded. Under a name it takes the place of the object that had
the name; without one it is dropped. -/
def keep (s : Session) (name : Option String) (object : Object) : Session :=
  match name with
  | none => { s with budget := s.budget.release object.booked }
  | some name =>
    { s with
      budget := s.budget.release (((s.objects.get? name).map (·.booked)).getD 0)
      objects := s.objects.insert name object }

/-- The session after a computation that books, whose value, if there is one, is kept. -/
def load {α : Type} (s : Session) (name : Option String) (object : α → Object)
    (body : Loading α) : Except DecodeError α × Session :=
  match body.runFrom s.budget with
  | (.ok value, budget) => (.ok value, { s with budget }.keep name (object value))
  | (.error e, budget) => (.error e, { s with budget })

/-- The bytes that the object under a name holds, and the session after they were given back. -/
def drop? (s : Session) (name : String) : Option (UInt64 × Session) :=
  (s.objects.get? name).map fun object =>
    (object.booked,
      { s with budget := s.budget.release object.booked, objects := s.objects.erase name })

end Session

end Postmortem
