import Postmortem.Context
import Postmortem.HeapString.Write

/-! # Functions

A `JSFunction` is a closure: what all closures of one source function share, its scope info and its
description among them, and the context with the variables that this one captured. -/

namespace Postmortem

/-- A closure of the target. -/
structure JSFunction where
  address : Word
  /-- The word that points to what the closures of the function share. -/
  shared : Word
  /-- The policy that the closure was loaded with. -/
  policy : AllocationPolicy
  deriving DecidableEq, Repr

/-- The name and the place of a function. -/
structure FunctionInfo where
  script : Word
  /-- The declared name, a string that may be empty. -/
  name : Word
  /-- The name that was inferred from the code around the function, if the build keeps one. -/
  inferredName : Option Word
  scriptName : Word
  lineEnds : Word
  /-- The position of the function in the script, as a small integer. -/
  tokenPosition : Word
  policy : AllocationPolicy
  deriving DecidableEq, Repr

namespace JSFunction

/-- Loads the closure that a word points to. -/
def load (s : Snapshot) (w : Word) (policy : AllocationPolicy) :
    Except DecodeError JSFunction := do
  if s.layout.types.function.isNone then
    throw (.missingConfiguration ⟨"types", "js_function"⟩)
  let (address, _) ← s.expectType w "JSFunction" [s.layout.types.function]
  let shared ← s.readField address ⟨"JSFunction", "shared"⟩
  return { address, shared, policy }

variable (s : Snapshot) (f : JSFunction)

/-- Loads the context of the closure. -/
def context (policy : AllocationPolicy) : Loading Context := do
  let w ← Loading.ofExcept (s.readField f.address ⟨"JSFunction", "context"⟩)
  Context.load s w policy

/-- The field that points to the scope info. -/
def scopeInfoField : FieldName := ⟨"SharedFunctionInfo", "scope_info"⟩

/-- Loads the scope info of the function. -/
def scopeInfo (policy : AllocationPolicy) : Loading ScopeInfo := do
  let w ← Loading.ofExcept do
    if (s.layout.offset? scopeInfoField).isNone then throw (.missingConfiguration scopeInfoField)
    s.readField (← s.objectAddress f.shared) scopeInfoField
  ScopeInfo.load s w policy

/-- The field that points to the inferred name. -/
def inferredNameField : FieldName := ⟨"SharedFunctionInfo", "inferred_name"⟩

/-- Reads the name, the script and the position of the function. -/
def describe (policy : AllocationPolicy) : Except DecodeError FunctionInfo := do
  let shared ← s.objectAddress f.shared
  let token ← s.readInteger shared ⟨"SharedFunctionInfo", "function_token_position"⟩
  let name ← s.readField shared ⟨"SharedFunctionInfo", "name"⟩
  let script ← s.readField shared ⟨"SharedFunctionInfo", "script"⟩
  let scriptAddress ← s.objectAddress script
  let scriptName ← s.readField scriptAddress ⟨"Script", "name"⟩
  let lineEnds ← s.readField scriptAddress ⟨"Script", "line_ends"⟩
  let inferredName := (s.readField shared inferredNameField).toOption
  let tokenPosition := s.layout.tags.encode token
  return { script, name, inferredName, scriptName, lineEnds, tokenPosition, policy }

end JSFunction

/-- Loads the scope info of the closure that a context belongs to. -/
def Context.scopeInfo (s : Snapshot) (c : Context) (policy : AllocationPolicy) :
    Loading ScopeInfo := do
  let f ← Loading.ofExcept (JSFunction.load s c.closure policy)
  f.scopeInfo s policy

namespace FunctionInfo

variable (s : Snapshot) (i : FunctionInfo) (mode : EscapeMode)

/-- The string with the name of the function: the inferred one if there is one and the declared one
is empty. -/
def nameString : Except DecodeError HeapString := do
  let name ← HeapString.load s i.name i.policy
  match i.inferredName with
  | some inferred => if name.length = 0 then HeapString.load s inferred i.policy else return name
  | none => return name

/-- Appends a string, if it could be loaded. -/
def writeLoaded (loaded : Except DecodeError HeapString) (t : Transcript) :
    Except DecodeError Unit × Transcript :=
  match loaded with
  | .ok h => h.write s mode {} t
  | .error e => (.error e, t)

/-- Appends the name of the function. -/
def writeName (t : Transcript) : Except DecodeError Unit × Transcript :=
  writeLoaded s mode (i.nameString s) t

/-- Appends the path of the script. -/
def writeScriptPath (t : Transcript) : Except DecodeError Unit × Transcript :=
  writeLoaded s mode (HeapString.load s i.scriptName i.policy) t

end FunctionInfo

end Postmortem
