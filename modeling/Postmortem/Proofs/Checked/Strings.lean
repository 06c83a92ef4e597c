import Postmortem.Proofs.Checked.Text
import Postmortem.Proofs.Checked.Words
import Postmortem.Proofs.HeapString.Loaded
import Postmortem.JSFunction

/-! # Strings without traps

The checked versions of the loads of strings and of all that writes them. A string that was loaded
has a length below half of what a word holds, and a range is cut to the length of the string before
its ends are computed, so that the sums and the differences at the seam of a concatenation stay
inside of a word (`Checked.writeRange_eq`). A chunk is never longer than the storage for it, and has
at least one byte (`Checked.writeChunks_eq`). -/

namespace Postmortem.Checked

/-! ## Loading strings -/

section loads

variable (s : Snapshot)

def readRepresentation (tags : StringTags) (address : Word) (typeByte : UInt8)
    (encoding : Encoding) : CheckedResult Representation := do
  let bits := typeByte &&& tags.representationMask
  if bits = tags.sequentialTag then return .sequential
  else if bits = tags.concatenatedTag then
    let first ← readField s address ⟨"ConsString", "first"⟩
    let second ← readField s address ⟨"ConsString", "second"⟩
    return .concatenated first second
  else if bits = tags.slicedTag then
    let parent ← readField s address ⟨"SlicedString", "parent"⟩
    let offset ← readNatural s address ⟨"SlicedString", "offset"⟩ .negativeOffset
    return .sliced parent offset
  else if bits = tags.externalTag then
    let resource ← readField s address ⟨"ExternalString", "resource"⟩
    match encoding with
    | .oneByte =>
      let field ← .of (s.fieldAddress resource ⟨"ExternalStringResource", "data"⟩)
      return .external resource (some (← readWord s field))
    | .twoByte => return .external resource none
  else throw (.unsupportedRepresentation address typeByte)

theorem readRepresentation_eq (tags : StringTags) (address : Word) (typeByte : UInt8)
    (encoding : Encoding) :
    readRepresentation s tags address typeByte encoding =
      .of (HeapString.readRepresentation s tags address typeByte encoding) := by
  unfold readRepresentation HeapString.readRepresentation
  simp only [readField_eq, readNatural_eq, readWord_eq]
  split
  · rfl
  · split
    · exact CheckedResult.of_bind fun first _ => CheckedResult.of_bind fun second _ => rfl
    · split
      · exact CheckedResult.of_bind fun parent _ => CheckedResult.of_bind fun offset _ => rfl
      · split
        · refine CheckedResult.of_bind fun resource _ => ?_
          cases encoding with
          | oneByte =>
            exact CheckedResult.of_bind fun field _ => CheckedResult.of_bind fun data _ => rfl
          | twoByte => rfl
        · rfl

def loadString (w : Word) (policy : AllocationPolicy) : CheckedResult HeapString := do
  let address ← objectAddress s w
  let found ← typeByte s address
  match s.layout.types.strings with
  | none => throw (.missingConfiguration ⟨"types", "strings"⟩)
  | some tags =>
    if !tags.isString found then throw (.wrongTypeTag address "String" found)
    let encoding : Encoding := if tags.isOneByte found then .oneByte else .twoByte
    let length ← readNatural s address ⟨"String", "length"⟩ .negativeLength
    let representation ← readRepresentation s tags address found encoding
    return { address, length, typeByte := found, encoding, representation, policy }

theorem loadString_eq (w : Word) (policy : AllocationPolicy) :
    loadString s w policy = .of (HeapString.load s w policy) := by
  unfold loadString HeapString.load
  rw [objectAddress_eq]
  refine CheckedResult.of_bind fun address _ => ?_
  rw [typeByte_eq]
  refine CheckedResult.of_bind fun found _ => ?_
  cases s.layout.types.strings with
  | none => rfl
  | some tags =>
    dsimp only
    split
    · rfl
    · rw [readNatural_eq]
      refine CheckedResult.of_bind fun length _ => ?_
      rw [readRepresentation_eq]
      exact CheckedResult.of_bind fun representation _ => rfl

end loads

/-! ## Stretches of writing -/

/-- More writing, unless the writing before it was broken off. -/
def andThen (ended : Checked (Ending × Transcript))
    (next : Transcript → Checked (Ending × Transcript)) : Checked (Ending × Transcript) := do
  match ← ended with
  | (.finished, t) => next t
  | stopped => return stopped

theorem andThen_eq {ended : Ending × Transcript} {ended' : Checked (Ending × Transcript)}
    {next : Transcript → Ending × Transcript}
    {next' : Transcript → Checked (Ending × Transcript)} (first : ended' = .ok ended)
    (rest : ∀ t, next' t = .ok (next t)) :
    andThen ended' next' = .ok (Ending.andThen ended next) := by
  rw [first]
  obtain ⟨ending, t⟩ := ended
  cases ending with
  | finished => exact rest t
  | full | failed => rfl

/-- More writing that needs a value, unless there is an error instead of it. -/
def withValue {α : Type} (value : CheckedResult α) (t : Transcript)
    (next : α → Transcript → Checked (Ending × Transcript)) : Checked (Ending × Transcript) := do
  match ← value.run with
  | .ok value => next value t
  | .error e => return (.failed e, t)

theorem withValue_eq {α : Type} {value : Except DecodeError α} {t : Transcript}
    {next : α → Transcript → Ending × Transcript}
    {next' : α → Transcript → Checked (Ending × Transcript)}
    (rest : ∀ a, value = .ok a → ∀ t, next' a t = .ok (next a t)) :
    withValue (.of value) t next' = .ok (Ending.withValue value t next) := by
  cases value with
  | ok a => exact rest a rfl t
  | error e => rfl

/-- Appends a text. -/
def addText (t : Transcript) (mode : EscapeMode) (text : String) : Checked Transcript := do
  return { t with buffer := ← pushText t.buffer mode text }

theorem addText_eq (t : Transcript) (mode : EscapeMode) (text : String) :
    addText t mode text = .ok (t.pushText mode text) := by
  rw [addText, pushText_eq]
  rfl

/-- Appends a code unit. -/
def addUnit (t : Transcript) (mode : EscapeMode) (unit : UInt16) : Checked Transcript := do
  return { t with buffer := ← pushUnit t.buffer mode unit }

theorem addUnit_eq (t : Transcript) (mode : EscapeMode) (unit : UInt16) :
    addUnit t mode unit = .ok { t with buffer := t.buffer.pushUnit mode unit } := by
  rw [addUnit, pushUnit_eq]
  rfl

def exceedDepth (mode : EscapeMode) (depth : Nat) (t : Transcript) :
    Checked (Ending × Transcript) := do
  return (.failed (.depthExceeded depth), ← addText t mode "<maximum depth exceeded>")

theorem exceedDepth_eq (mode : EscapeMode) (depth : Nat) (t : Transcript) :
    exceedDepth mode depth t = .ok (Postmortem.exceedDepth mode depth t) := by
  rw [exceedDepth, addText_eq]
  rfl

/-! ## Characters -/

/-- The code unit that the bytes of a character hold. -/
def unitOf : List UInt8 → UInt16
  | [low, high] => low.toUInt16 ||| high.toUInt16 <<< 8
  | byte :: _ => byte.toUInt16
  | [] => 0

def units (e : Encoding) (bytes : List UInt8) : Checked (List UInt16) := do
  return (← chunksExact e.width bytes).map unitOf

theorem map_unitOf_chunks_two : (bytes : List UInt8) →
    (chunks 2 (bytes.length / 2) bytes).map unitOf = Encoding.twoByte.units bytes
  | [] | [_] => by simp [chunks, Encoding.units]
  | low :: high :: rest => by
    rw [show (low :: high :: rest).length / 2 = rest.length / 2 + 1 by simp; omega, Encoding.units,
      ← map_unitOf_chunks_two rest]
    rfl

theorem units_eq (e : Encoding) (bytes : List UInt8) : units e bytes = .ok (e.units bytes) := by
  rw [units, chunksExact, if_neg (Nat.ne_of_gt e.width_pos), ok_bind]
  refine congrArg Except.ok ?_
  cases e with
  | oneByte =>
    simp only [Encoding.width, Nat.div_one, Encoding.units]
    induction bytes with
    | nil => rfl
    | cons byte bytes ih => exact congrArg (byte.toUInt16 :: ·) ih
  | twoByte => exact map_unitOf_chunks_two bytes

def writeUnits (mode : EscapeMode) : List UInt16 → Transcript → Checked (Ending × Transcript)
  | [], t => .ok (.finished, t)
  | unit :: rest, t => do
    if t.buffer.left ≤ truncationMarker.utf8ByteSize then
      return (.full, ← addText t .raw truncationMarker)
    else writeUnits mode rest (← addUnit t mode unit)

theorem writeUnits_eq (mode : EscapeMode) (units : List UInt16) (t : Transcript) :
    writeUnits mode units t = .ok (Postmortem.writeUnits mode units t) := by
  induction units generalizing t with
  | nil => rfl
  | cons unit rest ih =>
    rw [writeUnits, Postmortem.writeUnits]
    split
    · rw [addText_eq]
      rfl
    · rw [addUnit_eq, ok_bind, ih]

section writing

variable (s : Snapshot) (mode : EscapeMode)

/-- Whether the characters are refused for their first byte, which external data is. -/
def refuses (h : HeapString) (done : Nat) (bytes : List UInt8) : Checked Bool := do
  if h.isExternal ∧ done = 0 then return 0x80 ≤ (← index bytes 0)
  else return false

theorem refuses_eq {h : HeapString} {done : Nat} {bytes : List UInt8} (nonempty : bytes ≠ []) :
    refuses h done bytes =
      .ok (decide (h.isExternal ∧ done = 0 ∧ 0x80 ≤ bytes.headD 0)) := by
  obtain ⟨first, rest, rfl⟩ := List.exists_cons_of_ne_nil nonempty
  unfold refuses
  split
  · rename_i checked
    simp only [checked, true_and]
    rfl
  · rename_i unchecked
    rw [decide_eq_false fun refused => unchecked ⟨refused.1, refused.2.1⟩]
    rfl

theorem chunk_le_top (h : HeapString) {count : Nat} (short : count ≤ h.chunkLength) :
    count * h.encoding.width ≤ Word.top :=
  calc count * h.encoding.width
    _ ≤ h.chunkLength * h.encoding.width := Nat.mul_le_mul_right _ short
    _ ≤ chunkBytes := Nat.div_mul_le_self ..
    _ ≤ Word.top := by decide

/-- Appends the characters after the first `done` of them, chunk by chunk. Every chunk is read into
the same storage. -/
def writeChunks (h : HeapString) (base : Word) (start length : Nat) (storage : List UInt8) :
    (rounds : Nat) → (done : Nat) → Transcript → Checked (Ending × Transcript)
  | 0, _, _ => .error .endless
  | rounds + 1, done, t => do
    if length ≤ done then return (.finished, t)
    let width := h.encoding.width
    let count := min (← sub length done) (← div chunkBytes width)
    match base.advance? (Word.capped (start + done) * width) with
    | none => return (.failed (.corruptField h.address ⟨"String", "length"⟩ .charactersOverflow), t)
    | some address =>
      let chunk ← slice storage 0 (← mul count width)
      withValue (.of (s.readBytes address chunk.length)) (t.log (.read h address chunk.length))
        fun bytes t => do
          if ← refuses h done bytes then
            return (.failed (.nonAsciiData h.address),
              ← addText t mode "<found non-ASCII external string data>")
          else
            andThen (do writeUnits mode (← units h.encoding bytes) t) fun t => do
              writeChunks h base start length storage rounds (← add done count) t

theorem writeChunks_eq {h : HeapString} {base : Word} {start length : Nat}
    (small : length ≤ Word.top) {storage : List UInt8}
    (room : storage.length = min length h.chunkLength * h.encoding.width) {rounds done : Nat}
    (enough : length - done < rounds) (t : Transcript) :
    writeChunks s mode h base start length storage rounds done t =
      .ok (h.writeChunks s mode base start done (length - done) t) := by
  induction rounds generalizing done t with
  | zero => omega
  | succ rounds ih =>
    rw [writeChunks, HeapString.writeChunks]
    split
    · rw [if_pos (by omega)]
      rfl
    · rename_i more
      have pos := h.chunkLength_pos
      rw [if_neg (by omega), sub_eq (by omega), ok_bind, div_eq h.encoding.width_pos, ok_bind]
      dsimp only
      rw [show chunkBytes / h.encoding.width = h.chunkLength from rfl]
      generalize counted : min (length - done) h.chunkLength = count
      have count_pos : 0 < count := by omega
      have fits : count * h.encoding.width ≤ storage.length := by
        rw [room]
        exact Nat.mul_le_mul_right _ (by omega)
      cases base.advance? (Word.capped (start + done) * h.encoding.width) with
      | none => rfl
      | some address =>
        obtain ⟨chunk, sliced, size⟩ := exists_slice_eq fits
        dsimp only
        rw [mul_eq (chunk_le_top h (by omega)), ok_bind, sliced, ok_bind, size]
        refine withValue_eq fun bytes read t => ?_
        have nonempty : bytes ≠ [] := by
          rw [← List.length_pos_iff, length_of_readBytes s read]
          exact Nat.mul_pos count_pos h.encoding.width_pos
        rw [refuses_eq nonempty, ok_bind]
        simp only [decide_eq_true_eq]
        split
        · rw [addText_eq]
          rfl
        · refine andThen_eq (by rw [units_eq, ok_bind, writeUnits_eq]) fun t => ?_
          rw [add_eq (by omega), ok_bind, ih (by omega), Nat.sub_add_eq]

def writeChars (h : HeapString) (base : Word) (start length : Nat) (t : Transcript) :
    Checked (Ending × Transcript) := do
  let bytes ← mul (min length (← div chunkBytes h.encoding.width)) h.encoding.width
  let size := UInt64.ofNat bytes
  withValue (.of (t.budget.book size h.policy)) t fun budget t => do
    let storage := List.replicate bytes 0
    let (ending, t) ←
      writeChunks s mode h base start length storage (length + 1) 0 { t with budget }
    return (ending, { t with budget := t.budget.release size })

theorem writeChars_eq (h : HeapString) (base : Word) (start : Nat) {length : Nat}
    (small : length ≤ Word.top) (t : Transcript) :
    writeChars s mode h base start length t = .ok (h.writeChars s mode base start length t) := by
  have bytes : mul (min length (chunkBytes / h.encoding.width)) h.encoding.width =
      .ok (min length h.chunkLength * h.encoding.width) :=
    mul_eq (chunk_le_top h (Nat.min_le_right _ _))
  rw [writeChars, div_eq h.encoding.width_pos, ok_bind, bytes, ok_bind, HeapString.writeChars]
  refine withValue_eq fun budget _ t => ?_
  have written : writeChunks s mode h base start length
      (List.replicate (min length h.chunkLength * h.encoding.width) 0) (length + 1) 0
      { t with budget } = .ok (h.writeChunks s mode base start 0 length { t with budget }) :=
    writeChunks_eq s mode small List.length_replicate (Nat.lt_succ_self _) _
  dsimp only
  rw [written]
  rfl

def writeExternal (h : HeapString) (base : Word) (start length : Nat) (t : Transcript) :
    Checked (Ending × Transcript) := do
  match ← writeChars s mode h base start length t with
  | (.failed (.nonAsciiData address), t) => return (.failed (.nonAsciiData address), t)
  | (.failed e, t) =>
    return (.failed e, ← addText t mode "<failed to read external string data>")
  | done => return done

theorem writeExternal_eq (h : HeapString) (base : Word) (start : Nat) {length : Nat}
    (small : length ≤ Word.top) (t : Transcript) :
    writeExternal s mode h base start length t =
      .ok (h.writeExternal s mode base start length t) := by
  rw [writeExternal, writeChars_eq s mode h base start small, ok_bind, HeapString.writeExternal]
  rcases h.writeChars s mode base start length t with ⟨ending, t⟩
  cases ending with
  | finished | full => rfl
  | failed e =>
    simp only [addText_eq, ok_bind]
    cases e <;> rfl

/-! ## Ranges -/

def writeRange : (levels : Nat) → HeapString → (depth start length : Nat) → Transcript →
    Checked (Ending × Transcript)
  | 0, _, depth, _, _, t => exceedDepth mode depth t
  | levels + 1, h, depth, start, length, t => do
    if t.buffer.left = 0 then return (.full, t)
    let start := min start h.length
    let length := min length (← sub h.length start)
    let t := t.log (.visited { string := h, depth, start, length })
    match h.representation with
    | .sequential =>
      withValue (.of (s.fieldAddress h.address h.encoding.charsField)) t fun base t =>
        writeChars s mode h base start length t
    | .concatenated first second =>
      withValue (loadString s first h.policy) t fun first t => do
        let split := first.length
        andThen
          (do
            if start < split then
              let room ← sub split start
              writeRange levels first (depth + 1) start (min length room) t
            else return (.finished, t))
          fun t => do
            let stop ← add start length
            if split < stop then
              withValue (loadString s second h.policy) t fun second t => do
                let rest ← sub stop (max split start)
                writeRange levels second (depth + 1) (start - split) rest t
            else return (.finished, t)
    | .sliced parent offset =>
      withValue (loadString s parent h.policy) t fun parent t =>
        writeRange levels parent (depth + 1) (Word.capped (offset + start)) length t
    | .external _ none => return (.finished, ← addText t mode "<external two-byte string>")
    | .external _ (some data) => writeExternal s mode h data start length t

theorem writeRange_eq (levels : Nat) {h : HeapString} (small : h.length ≤ Word.top)
    (depth start length : Nat) (t : Transcript) :
    writeRange s mode levels h depth start length t =
      .ok (HeapString.writeRange s mode levels h depth start length t) := by
  induction levels generalizing h depth start length t with
  | zero => exact exceedDepth_eq mode depth t
  | succ levels ih =>
    rw [writeRange, HeapString.writeRange]
    split
    · rfl
    · dsimp only
      rw [sub_eq (Nat.min_le_right _ _), ok_bind]
      -- the range inside of the string
      have inside : min start h.length + min length (h.length - min start h.length) ≤ h.length := by
        omega
      generalize min start h.length = start at inside ⊢
      generalize min length (h.length - start) = length at inside ⊢
      generalize t.log _ = t
      cases h.representation with
      | sequential =>
        exact withValue_eq fun base _ t => writeChars_eq s mode h base start (by omega) t
      | concatenated first second =>
        dsimp only
        rw [loadString_eq]
        refine withValue_eq fun first loaded t => ?_
        refine andThen_eq ?_ fun t => ?_
        · split
          · rename_i reaches
            rw [sub_eq (Nat.le_of_lt reaches), ok_bind, ih (HeapString.length_le_of_load loaded)]
          · rfl
        · rw [add_eq (by omega), ok_bind]
          split
          · rw [loadString_eq]
            refine withValue_eq fun second loaded t => ?_
            rw [sub_eq (by omega), ok_bind, ih (HeapString.length_le_of_load loaded)]
          · rfl
      | sliced parent offset =>
        dsimp only
        rw [loadString_eq]
        exact withValue_eq fun parent loaded t => ih (HeapString.length_le_of_load loaded) _ _ _ t
      | external resource data =>
        cases data with
        | none =>
          dsimp only
          rw [addText_eq]
          rfl
        | some data => exact writeExternal_eq s mode h data start (by omega) t

/-! ## Strings -/

def writeAll (h : HeapString) (depth : Nat) (t : Transcript) : Checked (Ending × Transcript) :=
  writeRange s mode (maxDepth + 1 - depth) h depth 0 h.length t

theorem writeAll_eq {h : HeapString} (small : h.length ≤ Word.top) (depth : Nat) (t : Transcript) :
    writeAll s mode h depth t = .ok (h.writeAll s mode depth t) :=
  writeRange_eq s mode _ small depth 0 h.length t

def write (h : HeapString) (o : WriteOptions) (t : Transcript) :
    Checked (Except DecodeError Unit × Transcript) := do
  if maxDepth < o.depth then
    let (ending, t) ← exceedDepth mode o.depth t
    return (ending.result, t)
  else if o.quoted then
    let opened ← addUnit t mode 0x22
    let (ending, t) ← writeAll s mode h o.depth (HeapString.reserve 1 opened)
    return (ending.result, ← addUnit (HeapString.reserve (-1) t) mode 0x22)
  else
    let (ending, t) ← writeAll s mode h o.depth t
    return (ending.result, t)

theorem write_eq {h : HeapString} (small : h.length ≤ Word.top) (o : WriteOptions)
    (t : Transcript) : write s mode h o t = .ok (h.write s mode o t) := by
  unfold write HeapString.write
  split
  · rw [exceedDepth_eq]
    rfl
  · split
    · rw [addUnit_eq, ok_bind, writeAll_eq s mode small, ok_bind]
      dsimp only
      rw [addUnit_eq]
      rfl
    · rw [writeAll_eq s mode small]
      rfl

def toText (h : HeapString) (capacity : Nat) (budget : Budget) :
    Checked (Except DecodeError String × Budget) := do
  match ← write s mode h {} { buffer := .ofCapacity capacity, budget } with
  | (.ok (), t) => return (.ok t.buffer.text, t.budget)
  | (.error e, t) => return (.error e, t.budget)

theorem toText_eq {h : HeapString} (small : h.length ≤ Word.top) (capacity : Nat)
    (budget : Budget) :
    toText s mode h capacity budget = .ok (h.toText s mode capacity budget) := by
  rw [toText, write_eq s mode small, ok_bind, HeapString.toText]
  rcases h.write s mode {} { buffer := .ofCapacity capacity, budget } with ⟨_ | _, t⟩ <;> rfl

def writeString (w : Word) (policy : AllocationPolicy) (o : WriteOptions) (t : Transcript) :
    Checked (Except DecodeError Unit × Transcript) := do
  match ← (loadString s w policy).run with
  | .ok h => write s mode h o t
  | .error e => return (.error e, t)

theorem writeString_eq (w : Word) (policy : AllocationPolicy) (o : WriteOptions) (t : Transcript) :
    writeString s mode w policy o t = .ok (Postmortem.writeString s w policy mode o t) := by
  rw [writeString, loadString_eq, Postmortem.writeString]
  cases loaded : HeapString.load s w policy with
  | ok h => exact write_eq s mode (HeapString.length_le_of_load loaded) o t
  | error e => rfl

/-! ## Names and paths of functions -/

def nameString (i : FunctionInfo) : CheckedResult HeapString := do
  let name ← loadString s i.name i.policy
  match i.inferredName with
  | some inferred => if name.length = 0 then loadString s inferred i.policy else return name
  | none => return name

theorem nameString_eq (i : FunctionInfo) : nameString s i = .of (i.nameString s) := by
  rw [nameString, loadString_eq]
  refine CheckedResult.of_bind fun name _ => ?_
  cases i.inferredName with
  | none => rfl
  | some inferred =>
    dsimp only
    split
    · exact loadString_eq s inferred i.policy
    · rfl

theorem length_le_of_nameString {s : Snapshot} {i : FunctionInfo} {h : HeapString}
    (named : i.nameString s = .ok h) : h.length ≤ Word.top := by
  unfold FunctionInfo.nameString at named
  cases declared : HeapString.load s i.name i.policy with
  | error e =>
    rw [declared] at named
    cases named
  | ok name =>
    rw [declared] at named
    have name_le := HeapString.length_le_of_load declared
    cases inferred : i.inferredName with
    | none =>
      rw [inferred] at named
      cases named
      exact name_le
    | some w =>
      rw [inferred] at named
      dsimp only [Bind.bind, Except.bind] at named
      split at named
      · exact HeapString.length_le_of_load named
      · cases named
        exact name_le

def writeLoaded (loaded : CheckedResult HeapString) (t : Transcript) :
    Checked (Except DecodeError Unit × Transcript) := do
  match ← loaded.run with
  | .ok h => write s mode h {} t
  | .error e => return (.error e, t)

theorem writeLoaded_eq {loaded : Except DecodeError HeapString}
    (small : ∀ h, loaded = .ok h → h.length ≤ Word.top) (t : Transcript) :
    writeLoaded s mode (.of loaded) t = .ok (FunctionInfo.writeLoaded s mode loaded t) := by
  cases loaded with
  | ok h => exact write_eq s mode (small h rfl) {} t
  | error e => rfl

def writeName (i : FunctionInfo) (t : Transcript) :
    Checked (Except DecodeError Unit × Transcript) :=
  writeLoaded s mode (nameString s i) t

theorem writeName_eq (i : FunctionInfo) (t : Transcript) :
    writeName s mode i t = .ok (i.writeName s mode t) := by
  rw [writeName, nameString_eq]
  exact writeLoaded_eq s mode (fun _ => length_le_of_nameString) t

def writeScriptPath (i : FunctionInfo) (t : Transcript) :
    Checked (Except DecodeError Unit × Transcript) :=
  writeLoaded s mode (loadString s i.scriptName i.policy) t

theorem writeScriptPath_eq (i : FunctionInfo) (t : Transcript) :
    writeScriptPath s mode i t = .ok (i.writeScriptPath s mode t) := by
  rw [writeScriptPath, loadString_eq]
  exact writeLoaded_eq s mode (fun _ loaded => HeapString.length_le_of_load loaded) t

end writing

end Postmortem.Checked
