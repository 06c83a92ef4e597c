import Postmortem.Proofs.HeapString.Script
import Postmortem.Proofs.HeapString.Tree

/-! # Reads of characters

The trace of a writing splits into visits to strings, each with the reads of that string's own
characters (`VisitRecord`). A string without character data of its own is not read. One with data is
read in chunks, one after the other from where the range begins that it is asked for, and that range
has been cut to the string's length (`VisitRecord.InLeaf`). So no length and no offset of the
strings around it makes a read leave the characters of a string.

The invariant is `Recorded`: a script's events are those of such records. It holds of the beginnings
of a list of events too, hence of a writing that stops early. -/

namespace Postmortem

/-- Where the characters of a string lie, if the string has any of its own. -/
def HeapString.dataAddress? (s : Snapshot) (h : HeapString) : Option Word :=
  match h.representation with
  | .sequential => (s.fieldAddress h.address h.encoding.charsField).toOption
  | .external _ data => data
  | .concatenated .. | .sliced .. => none

/-- A read of `length` bytes from `address` on. -/
structure CharRead where
  address : Word
  length : Nat
  deriving DecidableEq, Repr

/-- A visit to a string and the reads of its characters, the oldest first. -/
structure VisitRecord where
  visit : Visit
  reads : List CharRead
  deriving DecidableEq, Repr

/-- The event of a read of the characters of a string. -/
def CharRead.event (h : HeapString) (read : CharRead) : TraceEvent :=
  .read h read.address read.length

/-- The events of a visit, the oldest first. -/
def VisitRecord.events (r : VisitRecord) : List TraceEvent :=
  .visited r.visit :: r.reads.map (CharRead.event r.visit.string)

/-! ## Chunks -/

/-- Each read begins where the one before it ended, and the first one at `next`. -/
def Consecutive : (next : Nat) → List CharRead → Prop
  | _, [] => True
  | next, read :: rest => read.address.toNat = next ∧ Consecutive (next + read.length) rest

/-- Bytes that are read. -/
def bytesRead : List CharRead → Nat
  | [] => 0
  | read :: rest => read.length + bytesRead rest

theorem bytesRead_append (reads more : List CharRead) :
    bytesRead (reads ++ more) = bytesRead reads + bytesRead more := by
  induction reads with
  | nil => simp [bytesRead]
  | cons read reads ih => rw [List.cons_append, bytesRead, bytesRead, ih, Nat.add_assoc]

/-- Reads of at most `chunkBytes` bytes each, one after the other from `next` on, and of at most
`most` bytes altogether. -/
structure Chunked (next most : Nat) (reads : List CharRead) : Prop where
  consecutive : Consecutive next reads
  bytesRead_le : bytesRead reads ≤ most
  length_le : ∀ read ∈ reads, 0 < read.length ∧ read.length ≤ chunkBytes

theorem Consecutive.of_isPrefix {next : Nat} {first reads : List CharRead}
    (h : Consecutive next reads) (before : first <+: reads) : Consecutive next first := by
  induction first generalizing next reads with
  | nil => trivial
  | cons read first ih =>
    obtain ⟨rest, rfl⟩ := before
    exact ⟨h.1, ih h.2 (List.prefix_append first rest)⟩

theorem Consecutive.within {next : Nat} {reads : List CharRead} (h : Consecutive next reads)
    {read : CharRead} (mem : read ∈ reads) :
    next ≤ read.address.toNat ∧ read.address.toNat + read.length ≤ next + bytesRead reads := by
  induction reads generalizing next with
  | nil => cases mem
  | cons first reads ih =>
    obtain ⟨here, following⟩ := h
    have sum : bytesRead (first :: reads) = first.length + bytesRead reads := rfl
    rcases List.mem_cons.1 mem with rfl | mem
    · omega
    · have := ih following mem
      omega

namespace Chunked

variable {next most : Nat}

theorem nil : Chunked next most [] := ⟨trivial, Nat.zero_le most, by simp⟩

theorem cons {read : CharRead} {reads : List CharRead} (here : read.address.toNat = next)
    (pos : 0 < read.length) (small : read.length ≤ chunkBytes) (fits : read.length ≤ most)
    (h : Chunked (next + read.length) (most - read.length) reads) :
    Chunked next most (read :: reads) where
  consecutive := ⟨here, h.consecutive⟩
  bytesRead_le := by
    have := h.bytesRead_le
    have sum : bytesRead (read :: reads) = read.length + bytesRead reads := rfl
    omega
  length_le r mem := by
    rcases List.mem_cons.1 mem with rfl | mem
    · exact ⟨pos, small⟩
    · exact h.length_le r mem

theorem of_isPrefix {first reads : List CharRead} (h : Chunked next most reads)
    (before : first <+: reads) : Chunked next most first where
  consecutive := h.consecutive.of_isPrefix before
  bytesRead_le := by
    obtain ⟨rest, rfl⟩ := before
    have := h.bytesRead_le
    rw [bytesRead_append] at this
    omega
  length_le read mem := h.length_le read (before.subset mem)

end Chunked

/-! ## Records -/

/-- The reads of a visit stay in the range that was asked for, and that one in the string. -/
structure VisitRecord.InLeaf (s : Snapshot) (r : VisitRecord) : Prop where
  range_le : r.visit.start + r.visit.length ≤ r.visit.string.length
  reads_eq_nil : r.visit.string.dataAddress? s = none → r.reads = []
  chunked : ∀ base, r.visit.string.dataAddress? s = some base →
    Chunked (base.toNat + r.visit.start * r.visit.string.encoding.width)
      (r.visit.length * r.visit.string.encoding.width) r.reads

theorem VisitRecord.InLeaf.of_isPrefix {s : Snapshot} {r : VisitRecord} (h : r.InLeaf s)
    {first : List CharRead} (before : first <+: r.reads) :
    VisitRecord.InLeaf s { r with reads := first } where
  range_le := h.range_le
  reads_eq_nil noData := List.prefix_nil.1 (h.reads_eq_nil noData ▸ before)
  chunked base data := (h.chunked base data).of_isPrefix before

/-- A read covers characters of the string only. -/
theorem VisitRecord.InLeaf.read_within {s : Snapshot} {r : VisitRecord} (h : r.InLeaf s)
    {base : Word} (data : r.visit.string.dataAddress? s = some base) {read : CharRead}
    (mem : read ∈ r.reads) :
    base.toNat ≤ read.address.toNat ∧
      read.address.toNat + read.length ≤
        base.toNat + r.visit.string.length * r.visit.string.encoding.width := by
  have chunked := h.chunked base data
  have inRange := chunked.consecutive.within mem
  have most := chunked.bytesRead_le
  have range := Nat.mul_le_mul_right r.visit.string.encoding.width h.range_le
  rw [Nat.add_mul] at range
  omega

/-- The events are those of visits whose reads stay in the strings visited. -/
def Recorded (s : Snapshot) (events : List TraceEvent) : Prop :=
  ∃ records : List VisitRecord, events = records.flatMap VisitRecord.events ∧
    ∀ r ∈ records, r.InLeaf s

namespace Recorded

variable {s : Snapshot}

theorem nil : Recorded s [] := ⟨[], rfl, by simp⟩

theorem append {events more : List TraceEvent} (h : Recorded s events) (h' : Recorded s more) :
    Recorded s (events ++ more) := by
  obtain ⟨records, rfl, sound⟩ := h
  obtain ⟨records', rfl, sound'⟩ := h'
  refine ⟨records ++ records', List.flatMap_append.symm, fun r mem => ?_⟩
  exact (List.mem_append.1 mem).elim (sound r) (sound' r)

theorem of_inLeaf {r : VisitRecord} (h : r.InLeaf s) : Recorded s r.events :=
  ⟨[r], by simp, by simpa using h⟩

theorem of_isPrefix {first events : List TraceEvent} (h : Recorded s events)
    (before : first <+: events) : Recorded s first := by
  obtain ⟨records, rfl, sound⟩ := h
  induction records generalizing first with
  | nil => rw [List.prefix_nil.1 before]; exact nil
  | cons r records ih =>
    have here : r.InLeaf s := sound r List.mem_cons_self
    rw [List.flatMap_cons] at before
    -- The beginning stops within the events of the first visit or goes beyond them.
    rcases List.prefix_or_prefix_of_prefix before (List.prefix_append _ _) with inside | ⟨rest, rfl⟩
    · rcases List.prefix_cons_iff.1 inside with rfl | ⟨events, rfl, after⟩
      · exact nil
      · obtain ⟨reads, shorter, rfl⟩ := List.prefix_map_iff.1 after
        exact of_inLeaf (here.of_isPrefix shorter)
    · exact (of_inLeaf here).append (ih (fun r mem => sound r (List.mem_cons_of_mem _ mem))
        ((List.prefix_append_right_inj _).1 before))

end Recorded

/-! ## The events of a script -/

/-- The event of an action. -/
def Action.event? : Action → Option TraceEvent
  | .log event => some event
  | _ => none

/-- The events of a script, the oldest first. -/
def scriptEvents (script : List Action) : List TraceEvent := script.filterMap Action.event?

@[simp] theorem scriptEvents_append (script more : List Action) :
    scriptEvents (script ++ more) = scriptEvents script ++ scriptEvents more :=
  List.filterMap_append

/-- What goes to the trace are the first events of the script. -/
theorem events_play_isPrefix (mode : EscapeMode) (room : Nat) (script : List Action) :
    (play mode room script).events <+: scriptEvents script := by
  induction script generalizing room with
  | nil => exact List.prefix_rfl
  | cons action script ih =>
    have first : (action.perform mode room).events = scriptEvents [action] := by
      cases action with
      | gate | log event | placeholder p | fail e => rfl
      | write unit =>
        rw [Action.perform]
        split
        · rfl
        · rfl
    rw [← List.singleton_append, scriptEvents_append, ← first, List.singleton_append, play,
      Outcome.append]
    split
    · exact (List.prefix_append_right_inj _).2 (ih _)
    · exact List.prefix_append _ _

@[simp] theorem scriptEvents_units (units : List UInt16) :
    scriptEvents (units.map .write) = [] := by
  induction units with
  | nil => rfl
  | cons unit units ih => exact ih

theorem scriptEvents_excuse (script : List Action) :
    scriptEvents (script.flatMap excuse) = scriptEvents script := by
  induction script with
  | nil => rfl
  | cons action script ih =>
    have first : scriptEvents (excuse action) = scriptEvents [action] := by
      unfold excuse
      split <;> rfl
    rw [List.flatMap_cons, scriptEvents_append, first, ih, ← scriptEvents_append]
    rfl

namespace HeapString

variable (s : Snapshot) (h : HeapString)

/-- The chunks of a range are read one after the other. -/
theorem reads_chunkScript (base : Word) {start done remaining : Nat}
    (fits : start + done + remaining ≤ Word.top) :
    ∃ reads, scriptEvents (h.chunkScript s base start done remaining) =
        reads.map (CharRead.event h) ∧
      Chunked (base.toNat + (start + done) * h.encoding.width) (remaining * h.encoding.width)
        reads := by
  fun_induction h.chunkScript s base start done remaining with
  | case1 => exact ⟨[], rfl, .nil⟩
  | case2 => exact ⟨[], rfl, .nil⟩
  | case3 done remaining more count width address found ih =>
    have inWord : Word.capped (start + done) = start + done :=
      Word.capped_eq_self (by omega)
    have here := toNat_of_advance? found
    rw [inWord] at here
    have countPos : 0 < count := by
      have := h.chunkLength_pos
      omega
    have fitsHere : count * width ≤ remaining * width :=
      Nat.mul_le_mul_right width (Nat.min_le_left _ _)
    have small : count * width ≤ chunkBytes :=
      Nat.le_trans (Nat.mul_le_mul_right width (Nat.min_le_right _ _)) h.chunkLength_mul_width_le
    obtain ⟨reads, events, chunked⟩ : ∃ reads,
        scriptEvents (orFail (s.readBytes address (count * width)) fun bytes =>
          if h.isExternal ∧ done = 0 ∧ 0x80 ≤ bytes.headD 0 then
            [.placeholder .nonAscii, .fail (.nonAsciiData h.address)]
          else (h.encoding.units bytes).map .write ++
            h.chunkScript s base start (done + count) (remaining - count)) =
          reads.map (CharRead.event h) ∧
        Chunked (base.toNat + (start + done) * width + count * width)
          (remaining * width - count * width) reads := by
      cases s.readBytes address (count * width) with
      | error e => exact ⟨[], rfl, .nil⟩
      | ok bytes =>
        rw [orFail]
        split
        · exact ⟨[], rfl, .nil⟩
        · obtain ⟨reads, events, chunked⟩ := ih (by omega)
          have same := scriptEvents_units (h.encoding.units bytes)
          refine ⟨reads, by rw [scriptEvents_append, same, events, List.nil_append], ?_⟩
          rwa [Nat.sub_mul, ← Nat.add_assoc, Nat.add_mul _ count, ← Nat.add_assoc] at chunked
    refine ⟨⟨address, count * width⟩ :: reads, ?_, chunked.cons here ?_ small fitsHere⟩
    · rw [List.map_cons, ← events]
      rfl
    · exact Nat.mul_pos countPos h.encoding.width_pos

theorem reads_charsScript (budget : Budget) (base : Word) {start length : Nat}
    (fits : start + length ≤ Word.top) :
    ∃ reads, scriptEvents (h.charsScript s budget base start length) =
        reads.map (CharRead.event h) ∧
      Chunked (base.toNat + start * h.encoding.width) (length * h.encoding.width) reads := by
  rw [charsScript]
  cases budget.book (UInt64.ofNat (min length h.chunkLength * h.encoding.width)) h.policy with
  | error e => exact ⟨[], rfl, .nil⟩
  | ok booked => exact h.reads_chunkScript s base (by omega)

variable {h}

/-- A string with character data of its own, asked for a range of them. -/
theorem recorded_of_data {visit : Visit} {base : Word} {script : List Action}
    {reads : List CharRead} (range : visit.start + visit.length ≤ visit.string.length)
    (data : visit.string.dataAddress? s = some base)
    (events : scriptEvents script = reads.map (CharRead.event visit.string))
    (chunked : Chunked (base.toNat + visit.start * visit.string.encoding.width)
      (visit.length * visit.string.encoding.width) reads) :
    Recorded s (.visited visit :: scriptEvents script) := by
  have inLeaf : VisitRecord.InLeaf s ⟨visit, reads⟩ :=
    ⟨range, fun noData => by simp [data] at noData, fun base' data' => by
      cases Option.some.inj (data.symm.trans data')
      exact chunked⟩
  rw [events]
  exact .of_inLeaf inLeaf

/-- A string that is not read, and its components after it. -/
theorem recorded_of_components {visit : Visit} {events : List TraceEvent}
    (range : visit.start + visit.length ≤ visit.string.length) (components : Recorded s events) :
    Recorded s (.visited visit :: events) := by
  have inLeaf : VisitRecord.InLeaf s ⟨visit, []⟩ := ⟨range, fun _ => rfl, fun _ _ => .nil⟩
  exact (Recorded.of_inLeaf inLeaf).append components

theorem recorded_orFail {α : Type} {value : Except DecodeError α} {script : α → List Action}
    (recorded : ∀ a, value = .ok a → Recorded s (scriptEvents (script a))) :
    Recorded s (scriptEvents (orFail value script)) := by
  cases value with
  | ok a => exact recorded a rfl
  | error e => exact .nil

/-- The events of a range's script are visits and reads within the strings visited. -/
theorem recorded_rangeScript (budget : Budget) (levels : Nat) (word : h.length ≤ Word.top)
    (depth start length : Nat) :
    Recorded s (scriptEvents (rangeScript s budget levels h depth start length)) := by
  induction levels generalizing h depth start length with
  | zero => exact .nil
  | succ levels ih =>
    rw [rangeScript]
    have range : min start h.length + min length (h.length - min start h.length) ≤ h.length := by
      omega
    have fits := Nat.le_trans range word
    change Recorded s (.visited _ :: scriptEvents _)
    cases shown : h.representation with
    | sequential =>
      cases found : s.fieldAddress h.address h.encoding.charsField with
      | error e => exact recorded_of_components s range .nil
      | ok base =>
        obtain ⟨reads, events, chunked⟩ := h.reads_charsScript s budget base fits
        refine recorded_of_data s range ?_ events chunked
        simp only [dataAddress?, shown, found, Except.toOption]
    | concatenated first second =>
      refine recorded_of_components s range (recorded_orFail s fun first loaded => ?_)
      rw [scriptEvents_append]
      refine .append ?_ ?_
      · split
        · exact ih (length_le_of_load loaded) _ _ _
        · exact .nil
      · split
        · exact recorded_orFail s fun second loaded => ih (length_le_of_load loaded) _ _ _
        · exact .nil
    | sliced parent offset =>
      refine recorded_of_components s range (recorded_orFail s fun parent loaded => ?_)
      exact ih (length_le_of_load loaded) _ _ _
    | external resource data =>
      cases data with
      | none => exact recorded_of_components s range .nil
      | some base =>
        obtain ⟨reads, events, chunked⟩ := h.reads_charsScript s budget base fits
        refine recorded_of_data s range ?_ ?_ chunked
        · simp only [dataAddress?, shown]
        · rw [scriptEvents_excuse, events]

theorem recorded_run {script : List Action} (h : Recorded s (scriptEvents script))
    (mode : EscapeMode) (t : Transcript) :
    ∃ events, Recorded s events ∧ (run mode script t).2.trace = events.reverse ++ t.trace :=
  ⟨_, h.of_isPrefix (events_play_isPrefix mode t.buffer.left script), rfl⟩

/-- **Characters are read within their string.** The trace of the writing of a loaded string is that
of visits and, for each, reads of the visited string's own characters. The reads of a visit are of
at most `chunkBytes` bytes, each begins where the one before it ended, and they cover no more than
the range asked for (`VisitRecord.InLeaf`), so every read lies between the string's first character
and its last. -/
theorem reads_in_leaf {s : Snapshot} {w : Word} {policy : AllocationPolicy} {h : HeapString}
    (loaded : load s w policy = .ok h) (mode : EscapeMode) (o : WriteOptions) (t : Transcript) :
    ∃ records : List VisitRecord,
      (h.write s mode o t).2.trace = (records.flatMap VisitRecord.events).reverse ++ t.trace ∧
      (∀ r ∈ records, r.InLeaf s) ∧
      ∀ r ∈ records, ∀ base, r.visit.string.dataAddress? s = some base → ∀ read ∈ r.reads,
        base.toNat ≤ read.address.toNat ∧
        read.address.toNat + read.length ≤
          base.toNat + r.visit.string.length * r.visit.string.encoding.width := by
  have recorded (t : Transcript) : ∃ events, Recorded s events ∧
      (h.writeAll s mode o.depth t).2.trace = events.reverse ++ t.trace := by
    rw [writeAll_eq_run]
    exact recorded_run s (recorded_rangeScript s _ _ (length_le_of_load loaded) _ _ _) mode t
  obtain ⟨events, ⟨records, rfl, inLeaf⟩, same⟩ : ∃ events, Recorded s events ∧
      (h.write s mode o t).2.trace = events.reverse ++ t.trace := by
    rw [write]
    split
    · exact ⟨[], .nil, rfl⟩
    · split
      · exact recorded (reserve 1 (writeQuote mode t))
      · exact recorded t
  exact ⟨records, same, inLeaf, fun r mem base data read => (inLeaf r mem).read_within data⟩

/-- The visits and reads of the sample's concatenation. -/
theorem reads_of_joined :
    ∃ records : List VisitRecord,
      (Sample.joined.write Sample.heap .raw {} (Sample.transcript 20)).2.trace =
        (records.flatMap VisitRecord.events).reverse ++ [] ∧
      (∀ r ∈ records, r.InLeaf Sample.heap) ∧
      ∀ r ∈ records, ∀ base, r.visit.string.dataAddress? Sample.heap = some base →
        ∀ read ∈ r.reads,
          base.toNat ≤ read.address.toNat ∧
          read.address.toNat + read.length ≤
            base.toNat + r.visit.string.length * r.visit.string.encoding.width :=
  reads_in_leaf Sample.load_joined .raw {} (Sample.transcript 20)

end HeapString

end Postmortem
