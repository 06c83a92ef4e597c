import Postmortem.HeapString.Transcript

/-! # Writing strings

`HeapString.write` appends the text of a string to a buffer. It walks through concatenations and
slices down to the strings that hold characters, and asks each string for a range of its characters
(`HeapString.writeRange`). A range is cut to the string's own length, whatever the strings around it
say. Strings nested deeper than `maxDepth` are an error. Text that does not fit is cut short and
marked, and after that nothing is visited any more. -/

namespace Postmortem

/-- How deep concatenations and slices are followed. -/
def maxDepth : Nat := 512

/-- What stands for the rest of a text that does not fit. -/
def truncationMarker : String := "[...]"

/-- Characters are read in chunks of at most this many bytes. -/
def chunkBytes : Nat := 8192

/-- How a string is to be written. -/
structure WriteOptions where
  /-- Whether the text is put between double quotes. -/
  quoted : Bool := false
  /-- Whether the visits to strings are reported. -/
  verbose : Bool := false
  /-- How deep the string is nested already. -/
  depth : Nat := 0
  deriving DecidableEq, Repr

/-- The options for a component of a string. The depth counts up to what 32 bits hold. -/
def WriteOptions.nested (o : WriteOptions) : WriteOptions where
  quoted := false
  verbose := o.verbose
  depth := min (o.depth + 1) 0xffffffff

/-- Gives up on a string that is nested too deep. -/
def exceedDepth (mode : EscapeMode) (depth : Nat) (t : Transcript) : Ending × Transcript :=
  (.failed (.depthExceeded depth), t.pushText mode "<maximum depth exceeded>")

/-! ## Characters -/

/-- Appends code units, as long as the buffer has more room than the truncation marker takes. -/
def writeUnits (mode : EscapeMode) : List UInt16 → Transcript → Ending × Transcript
  | [], t => (.finished, t)
  | unit :: rest, t =>
    if t.buffer.left ≤ truncationMarker.utf8ByteSize then
      (.full, t.pushText .raw truncationMarker)
    else writeUnits mode rest { t with buffer := t.buffer.pushUnit mode unit }

namespace HeapString

variable (s : Snapshot) (mode : EscapeMode) (h : HeapString)

/-- Characters in a full chunk. -/
def chunkLength : Nat := chunkBytes / h.encoding.width

theorem chunkLength_pos : 0 < h.chunkLength := by
  unfold chunkLength
  cases h.encoding <;> decide

/-- Appends `remaining` characters of the data at `base`, those from `start + done` on, chunk by
chunk. The first byte of external data has to be ASCII. -/
def writeChunks (base : Word) (start done remaining : Nat) (t : Transcript) :
    Ending × Transcript :=
  if remaining = 0 then (.finished, t)
  else
    let count := min remaining h.chunkLength
    let width := h.encoding.width
    match base.advance? (Word.capped (start + done) * width) with
    | none => (.failed (.corruptField h.address ⟨"String", "length"⟩ .charactersOverflow), t)
    | some address =>
      Ending.withValue (s.readBytes address (count * width))
        (t.log (.read h address (count * width))) fun bytes t =>
          if h.isExternal ∧ done = 0 ∧ 0x80 ≤ bytes.headD 0 then
            (.failed (.nonAsciiData h.address),
              t.pushText mode "<found non-ASCII external string data>")
          else
            Ending.andThen (writeUnits mode (h.encoding.units bytes) t)
              (writeChunks base start (done + count) (remaining - count))
termination_by remaining
decreasing_by
  have := h.chunkLength_pos
  omega

/-- Appends `length` characters of the data at `base`, those from `start` on. Storage for a chunk is
booked for that time. -/
def writeChars (base : Word) (start length : Nat) (t : Transcript) : Ending × Transcript :=
  let size := UInt64.ofNat (min length h.chunkLength * h.encoding.width)
  Ending.withValue (t.budget.book size h.policy) t fun budget t =>
    let (ending, t) := h.writeChunks s mode base start 0 length { t with budget }
    (ending, { t with budget := t.budget.release size })

/-- Appends characters of a string whose data lie at `base` outside the heap. -/
def writeExternal (base : Word) (start length : Nat) (t : Transcript) : Ending × Transcript :=
  match h.writeChars s mode base start length t with
  | (.failed (.nonAsciiData address), t) => (.failed (.nonAsciiData address), t)
  | (.failed e, t) => (.failed e, t.pushText mode "<failed to read external string data>")
  | done => done

/-! ## Ranges -/

/-- Appends the characters from `start` on, `length` of them or as many as the string has, of a
string nested `depth` deep. Strings nested `levels` deeper or more are not followed. -/
def writeRange : (levels : Nat) → HeapString → (depth start length : Nat) → Transcript →
    Ending × Transcript
  | 0, _, depth, _, _, t => exceedDepth mode depth t
  | levels + 1, h, depth, start, length, t =>
    if t.buffer.left = 0 then (.full, t)
    else
      let start := min start h.length
      let length := min length (h.length - start)
      let t := t.log (.visited { string := h, depth, start, length })
      match h.representation with
      | .sequential =>
        Ending.withValue (s.fieldAddress h.address h.encoding.charsField) t fun base t =>
          h.writeChars s mode base start length t
      | .concatenated first second =>
        Ending.withValue (load s first h.policy) t fun first t =>
          let split := first.length
          Ending.andThen
            (if start < split then
              writeRange levels first (depth + 1) start (min length (split - start)) t
            else (.finished, t))
            fun t =>
              let stop := start + length
              if split < stop then
                Ending.withValue (load s second h.policy) t fun second t =>
                  writeRange levels second (depth + 1) (start - split) (stop - max split start) t
              else (.finished, t)
      | .sliced parent offset =>
        Ending.withValue (load s parent h.policy) t fun parent t =>
          writeRange levels parent (depth + 1) (Word.capped (offset + start)) length t
      | .external _ none => (.finished, t.pushText mode "<external two-byte string>")
      | .external _ (some data) => h.writeExternal s mode data start length t

/-- Appends the whole text of a string nested `depth` deep. -/
def writeAll (depth : Nat) (t : Transcript) : Ending × Transcript :=
  writeRange s mode (maxDepth + 1 - depth) h depth 0 h.length t

/-! ## Strings -/

/-- Appends a double quote. -/
def writeQuote (t : Transcript) : Transcript :=
  { t with buffer := t.buffer.pushUnit mode 0x22 }

/-- The transcript with `n` more bytes of the buffer held back. -/
def reserve (n : Int) (t : Transcript) : Transcript := { t with buffer := t.buffer.reserve n }

/-- Appends the text of a string. A closing quote is written even if the text fails, and an error
leaves in the buffer what was written before it. -/
def write (o : WriteOptions) (t : Transcript) : Except DecodeError Unit × Transcript :=
  if maxDepth < o.depth then
    let (ending, t) := exceedDepth mode o.depth t
    (ending.result, t)
  else if o.quoted then
    let (ending, t) := h.writeAll s mode o.depth (reserve 1 (writeQuote mode t))
    (ending.result, writeQuote mode (reserve (-1) t))
  else
    let (ending, t) := h.writeAll s mode o.depth t
    (ending.result, t)

/-- The text of a string, cut short after `capacity` bytes, and the budget that is left. -/
def toText (capacity : Nat) (budget : Budget) : Except DecodeError String × Budget :=
  match h.write s mode {} { buffer := .ofCapacity capacity, budget } with
  | (.ok (), t) => (.ok t.buffer.text, t.budget)
  | (.error e, t) => (.error e, t.budget)

end HeapString

/-- Loads the string that a word points to and appends its text. -/
def writeString (s : Snapshot) (w : Word) (policy : AllocationPolicy) (mode : EscapeMode)
    (o : WriteOptions) (t : Transcript) : Except DecodeError Unit × Transcript :=
  match HeapString.load s w policy with
  | .ok h => h.write s mode o t
  | .error e => (.error e, t)

end Postmortem
