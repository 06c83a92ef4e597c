import Postmortem.Session.Basic

/-! # Commands

A `Command α` asks a session for an `α`: to classify a word, to load an object and keep it, to look
at an object that is kept, or to write a string. `Session.run` carries it out. A command fails if an
object it names is absent or of another kind, and whenever decoding fails. -/

namespace Postmortem

/-- Why a command failed. -/
inductive CommandError where
  /-- No object or buffer of the right kind has the name. -/
  | unknownName
  | decoding (error : DecodeError)
  deriving DecidableEq, Repr

/-- Where the text of a string goes. -/
inductive WriteTarget where
  /-- To a buffer of the session. -/
  | kept (name : String)
  /-- To a new buffer of the given capacity. -/
  | fresh (capacity : Nat)
  deriving DecidableEq, Repr

/-- What became of the writing of a string. -/
structure Written where
  result : Except DecodeError Unit
  buffer : TextBuffer
  /-- The visits to strings, if they were to be reported. -/
  visits : List Visit

/-- A request to a session, by the type of its answer. Loads take the name to keep the object
under. -/
inductive Command : Type → Type where
  -- Words and fields
  | classify (w : Word) : Command WordClass
  | objectAddress (w : Word) : Command Word
  | readBytes (address : Word) (length : Nat) : Command (List UInt8)
  | readWord (address : Word) : Command Word
  | fieldAddress (object : Word) (field : FieldName) : Command Word
  | readField (object : Word) (field : FieldName) : Command Word
  | readSmallInt (object : Word) (field : FieldName) : Command Int
  | readInteger (object : Word) (field : FieldName) : Command Int
  | typeByte (object : Word) : Command UInt8
  | expectType (w : Word) (expected : String) (accepted : List (Option UInt8)) :
    Command (Word × UInt8)
  -- Objects
  | reserve (size : UInt64) (policy : AllocationPolicy) (name : Option String) : Command UInt64
  | readSlots (address : Word) (count : Nat) (policy : AllocationPolicy) (name : Option String) :
    Command Slots
  | loadFixedArray (w : Word) (policy : AllocationPolicy) (name : Option String) :
    Command FixedArray
  | loadArray (w : Word) (policy : AllocationPolicy) (name : Option String) : Command JSArray
  | loadContext (w : Word) (policy : AllocationPolicy) (name : Option String) : Command Context
  | loadScopeInfo (w : Word) (policy : AllocationPolicy) (name : Option String) :
    Command ScopeInfo
  | loadFunction (w : Word) (policy : AllocationPolicy) (name : Option String) :
    Command JSFunction
  | loadString (w : Word) (policy : AllocationPolicy) (name : Option String) : Command HeapString
  | functionContext (function : String) (policy : AllocationPolicy) (name : Option String) :
    Command Context
  | functionScopeInfo (function : String) (policy : AllocationPolicy) (name : Option String) :
    Command ScopeInfo
  | contextScopeInfo (context : String) (policy : AllocationPolicy) (name : Option String) :
    Command ScopeInfo
  | describe (function : String) (policy : AllocationPolicy) (name : Option String) :
    Command FunctionInfo
  | drop (name : String) : Command UInt64
  -- Looking at objects; a visit stops at the item that `stop` names
  | slot (array : String) (index : Nat) : Command (Option Word)
  | visitElements (array : String) (stop : Option Nat) :
    Command (Flow Word × List (Nat × Word))
  | variable (context : String) (index : Nat) : Command Word
  | visitStatic (context : String) (stop : Option String) :
    Command (Flow Word × List (String × Word))
  | visitDynamic (context : String) (stop : Option Nat) : Command (Flow Word × List (Nat × Word))
  | visitVars (info : String) (kind : VarKind) (stop : Option Nat) :
    Command (Except DecodeError (Flow Nat) × List Nat)
  | stepVars (info : String) (kind : VarKind) (steps : Nat) :
    Command (Nat × List (Option (Except DecodeError ScopeVar) × Nat))
  | valueOf (info context : String) (v : ScopeVar) : Command Word
  -- Text
  | write (string : String) (mode : EscapeMode) (options : WriteOptions) (target : WriteTarget) :
    Command Written
  | writeString (w : Word) (policy : AllocationPolicy) (mode : EscapeMode)
    (options : WriteOptions) (target : WriteTarget) : Command Written
  | toText (string : String) (capacity : Nat) (mode : EscapeMode) : Command String
  | writeName (info : String) (mode : EscapeMode) (target : WriteTarget) : Command Written
  | writeScriptPath (info : String) (mode : EscapeMode) (target : WriteTarget) : Command Written
  | newBuffer (name : String) (capacity : Nat) : Command Unit
  | editBuffer (name : String) (edit : TextBuffer.Edit) : Command TextBuffer

/-! ## Visitors -/

/-- A visitor that notes the keys of what it visits and breaks off at the item with a key. -/
def noteUntil {κ ν : Type} [DecidableEq κ] (stop : Option κ) (item : κ × ν) :
    StateM (List (κ × ν)) (Flow ν) := do
  modify (item :: ·)
  return if stop = some item.1 then .broke item.2 else .goOn

/-- What came of a visit, and what was noted, in order. -/
def noted {α ν : Type} (body : StateM (List ν) α) : α × List ν :=
  let (flow, visited) := body.run []
  (flow, visited.reverse)

/-- The items of as many steps as asked for, each with the bound on the items after it. -/
def VarCursor.steps (c : VarCursor) : Nat → List (Option (Except DecodeError ScopeVar) × Nat)
  | 0 => []
  | n + 1 =>
    match c.step? with
    | some (item, next) => (some item, next.bound) :: next.steps n
    | none => (none, c.bound) :: c.steps n

/-! ## Carrying out commands -/

namespace Session

/-- An answer that leaves the session as it is. -/
def answer {α : Type} (s : Session) (result : Except DecodeError α) :
    Except CommandError α × Session :=
  (result.mapError .decoding, s)

/-- An answer about the object under a name, picked out by its kind. -/
def withObject {α β : Type} (s : Session) (pick : Object → Option α) (name : String)
    (next : α → Except CommandError β × Session) : Except CommandError β × Session :=
  match (s.objects.get? name).bind pick with
  | some object => next object
  | none => (.error .unknownName, s)

/-- An answer that loads an object. -/
def answerLoad {α : Type} (s : Session) (name : Option String) (object : α → Object)
    (body : Loading α) : Except CommandError α × Session :=
  let (result, s) := s.load name object body
  s.answer result

/-- An answer that writes to a buffer; `verbose` says whether it reports the visits to strings. -/
def answerWrite (s : Session) (target : WriteTarget) (verbose : Bool)
    (body : Transcript → Except DecodeError Unit × Transcript) :
    Except CommandError Written × Session :=
  let written (result : Except DecodeError Unit) (t : Transcript) : Written :=
    { result, buffer := t.buffer, visits := if verbose then t.visits else [] }
  match target with
  | .fresh capacity =>
    let (result, t) := body { buffer := .ofCapacity capacity, budget := s.budget }
    (.ok (written result t), { s with budget := t.budget })
  | .kept name =>
    match s.buffers.get? name with
    | none => (.error .unknownName, s)
    | some buffer =>
      let (result, t) := body { buffer, budget := s.budget }
      (.ok (written result t),
        { s with budget := t.budget, buffers := s.buffers.insert name t.buffer })

end Session

namespace Object

/-- The fixed array that an object is. -/
def fixedArray? : Object → Option FixedArray
  | .fixedArray a => some a
  | _ => none

/-- The array that an object is. -/
def array? : Object → Option JSArray
  | .array a => some a
  | _ => none

/-- The context that an object is. -/
def context? : Object → Option Context
  | .context c => some c
  | _ => none

/-- The scope info that an object is. -/
def scopeInfo? : Object → Option ScopeInfo
  | .scopeInfo i => some i
  | _ => none

/-- The closure that an object is. -/
def function? : Object → Option JSFunction
  | .function f => some f
  | _ => none

/-- The description of a function that an object is. -/
def functionInfo? : Object → Option FunctionInfo
  | .functionInfo i => some i
  | _ => none

/-- The string that an object is. -/
def string? : Object → Option HeapString
  | .string h => some h
  | _ => none

end Object

namespace Session

/-- The answer to a command and the session after it. -/
def run {α : Type} (s : Session) : Command α → Except CommandError α × Session
  | .classify w => s.answer (.ok (s.snapshot.classify w))
  | .objectAddress w => s.answer (s.snapshot.objectAddress w)
  | .readBytes address length => s.answer (s.snapshot.readBytes address length)
  | .readWord address => s.answer (s.snapshot.readWord address)
  | .fieldAddress object field => s.answer (s.snapshot.fieldAddress object field)
  | .readField object field => s.answer (s.snapshot.readField object field)
  | .readSmallInt object field => s.answer (s.snapshot.readSmallInt object field)
  | .readInteger object field => s.answer (s.snapshot.readInteger object field)
  | .typeByte object => s.answer (s.snapshot.typeByte object)
  | .expectType w expected accepted => s.answer (s.snapshot.expectType w expected accepted)
  | .reserve size policy name =>
    s.answerLoad name .reservation (do Loading.book size policy; return size)
  | .readSlots address count policy name =>
    s.answerLoad name .slots (s.snapshot.readSlots address count policy)
  | .loadFixedArray w policy name =>
    s.answerLoad name .fixedArray (FixedArray.load s.snapshot w policy)
  | .loadArray w policy name => s.answerLoad name .array (JSArray.load s.snapshot w policy)
  | .loadContext w policy name => s.answerLoad name .context (Context.load s.snapshot w policy)
  | .loadScopeInfo w policy name =>
    s.answerLoad name .scopeInfo (ScopeInfo.load s.snapshot w policy)
  | .loadFunction w policy name =>
    s.answerLoad name .function (Loading.ofExcept (JSFunction.load s.snapshot w policy))
  | .loadString w policy name =>
    s.answerLoad name .string (Loading.ofExcept (HeapString.load s.snapshot w policy))
  | .functionContext function policy name =>
    s.withObject Object.function? function fun f =>
      s.answerLoad name .context (f.context s.snapshot policy)
  | .functionScopeInfo function policy name =>
    s.withObject Object.function? function fun f =>
      s.answerLoad name .scopeInfo (f.scopeInfo s.snapshot policy)
  | .contextScopeInfo context policy name =>
    s.withObject Object.context? context fun c =>
      s.answerLoad name .scopeInfo (c.scopeInfo s.snapshot policy)
  | .describe function policy name =>
    s.withObject Object.function? function fun f =>
      s.answerLoad name .functionInfo (Loading.ofExcept (f.describe s.snapshot policy))
  | .drop name =>
    match s.drop? name with
    | some (size, s) => (.ok size, s)
    | none => (.error .unknownName, s)
  | .slot array index =>
    s.withObject Object.fixedArray? array fun a => s.answer (.ok (a.get? index))
  | .visitElements array stop =>
    s.withObject Object.array? array fun a =>
      s.answer (.ok (noted (a.visitElements (noteUntil stop))))
  | .variable context index =>
    s.withObject Object.context? context fun c => s.answer (c.valueAt index)
  | .visitStatic context stop =>
    s.withObject Object.context? context fun c =>
      s.answer (.ok (noted (c.visitStatic (noteUntil stop))))
  | .visitDynamic context stop =>
    s.withObject Object.context? context fun c =>
      s.answer (.ok (noted (c.visitDynamic (noteUntil stop))))
  | .visitVars info kind stop =>
    s.withObject Object.scopeInfo? info fun i =>
      let (flow, visited) := noted (i.visitVars kind fun v => noteUntil stop (v.ordinal, v.slot))
      s.answer (.ok (flow, visited.map Prod.fst))
  | .stepVars info kind steps =>
    s.withObject Object.scopeInfo? info fun i =>
      let cursor := i.vars kind
      s.answer (.ok (cursor.bound, cursor.steps steps))
  | .valueOf info context v =>
    s.withObject Object.scopeInfo? info fun _ =>
      s.withObject Object.context? context fun c => s.answer (c.valueOf v)
  | .write string mode options target =>
    s.withObject Object.string? string fun h =>
      s.answerWrite target options.verbose (h.write s.snapshot mode options)
  | .writeString w policy mode options target =>
    s.answerWrite target options.verbose
      (Postmortem.writeString s.snapshot w policy mode options)
  | .toText string capacity mode =>
    s.withObject Object.string? string fun h =>
      let (result, budget) := h.toText s.snapshot mode capacity s.budget
      { s with budget }.answer result
  | .writeName info mode target =>
    s.withObject Object.functionInfo? info fun i =>
      s.answerWrite target false (i.writeName s.snapshot mode)
  | .writeScriptPath info mode target =>
    s.withObject Object.functionInfo? info fun i =>
      s.answerWrite target false (i.writeScriptPath s.snapshot mode)
  | .newBuffer name capacity =>
    (.ok (), { s with buffers := s.buffers.insert name (.ofCapacity capacity) })
  | .editBuffer name edit =>
    match s.buffers.get? name with
    | none => (.error .unknownName, s)
    | some buffer =>
      let buffer := buffer.edit edit
      (.ok buffer, { s with buffers := s.buffers.insert name buffer })

end Session

end Postmortem
