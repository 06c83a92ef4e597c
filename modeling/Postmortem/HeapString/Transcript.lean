import Postmortem.HeapString.Basic
import Postmortem.Text.Buffer

/-! # Transcripts

While strings are written, a `Transcript` holds the buffer that the text goes to, the budget that
scratch storage is booked against, and a trace of the strings visited and the characters read. A
stretch of writing ends in one of three ways (`Ending`); `Ending.andThen` goes on with more writing
only after the first. -/

namespace Postmortem

/-- A visit to a string: characters from `start` on, `length` of them, are to be written. -/
structure Visit where
  string : HeapString
  depth : Nat
  start : Nat
  length : Nat
  deriving DecidableEq, Repr

/-- What happened while strings were written. -/
inductive TraceEvent where
  | visited (visit : Visit)
  /-- Characters of the string were asked for: `length` bytes from `address` on. -/
  | read (string : HeapString) (address : Word) (length : Nat)
  deriving DecidableEq, Repr

/-- The state of the writing of strings. -/
structure Transcript where
  buffer : TextBuffer
  budget : Budget
  /-- What happened so far, the newest first. -/
  trace : List TraceEvent := []
  deriving DecidableEq, Repr

namespace Transcript

/-- The transcript with one more event. -/
def log (t : Transcript) (event : TraceEvent) : Transcript := { t with trace := event :: t.trace }

/-- The transcript with a text added to the buffer. -/
def pushText (t : Transcript) (mode : EscapeMode) (text : String) : Transcript :=
  { t with buffer := t.buffer.pushText mode text }

/-- The visits to strings, the oldest first. -/
def visits (t : Transcript) : List Visit :=
  t.trace.reverse.filterMap fun event =>
    match event with
    | .visited visit => some visit
    | .read .. => none

end Transcript

/-- How a stretch of writing ended. -/
inductive Ending where
  /-- All of it was written. -/
  | finished
  /-- The buffer has no more room. -/
  | full
  | failed (error : DecodeError)
  deriving DecidableEq, Repr

/-- Text that was cut short for want of room is no error. -/
def Ending.result : Ending → Except DecodeError Unit
  | .finished | .full => .ok ()
  | .failed e => .error e

/-- More writing, unless the writing before it was broken off. -/
def Ending.andThen (ended : Ending × Transcript) (next : Transcript → Ending × Transcript) :
    Ending × Transcript :=
  match ended with
  | (.finished, t) => next t
  | stopped => stopped

@[simp] theorem Ending.andThen_finished (t : Transcript)
    (next : Transcript → Ending × Transcript) : andThen (.finished, t) next = next t := rfl

@[simp] theorem Ending.andThen_full (t : Transcript) (next : Transcript → Ending × Transcript) :
    andThen (.full, t) next = (.full, t) := rfl

@[simp] theorem Ending.andThen_failed (e : DecodeError) (t : Transcript)
    (next : Transcript → Ending × Transcript) :
    andThen (.failed e, t) next = (.failed e, t) := rfl

/-- More writing that needs a value, unless there is an error instead of it. -/
def Ending.withValue {α : Type} (value : Except DecodeError α) (t : Transcript)
    (next : α → Transcript → Ending × Transcript) : Ending × Transcript :=
  match value with
  | .ok value => next value t
  | .error e => (.failed e, t)

@[simp] theorem Ending.withValue_ok {α : Type} (value : α) (t : Transcript)
    (next : α → Transcript → Ending × Transcript) :
    withValue (.ok value) t next = next value t := rfl

@[simp] theorem Ending.withValue_error {α : Type} (e : DecodeError) (t : Transcript)
    (next : α → Transcript → Ending × Transcript) :
    withValue (.error e) t next = (.failed e, t) := rfl

end Postmortem
