import Postmortem.HeapString.Write
import Postmortem.Proofs.Text.Room

/-! # Scripts

What a string makes `HeapString.write` do is the same for every buffer, up to the point where the
writing stops for want of room. A script lists it: what would be done in a buffer without end.

* `play` gives the outcome of a script for a number of bytes left: how it ended, what was added and
  what went to the trace. Nothing else about the buffer matters.
* `HeapString.rangeScript` is the script of a range of a string, and `writeRange_eq_run` says that
  the range is written as its script is played. -/

namespace Postmortem

/-- What is written in place of characters. -/
inductive Placeholder where
  | tooDeep
  | twoByteExternal
  | unreadable
  | nonAscii
  deriving DecidableEq, Repr

/-- The wording of a placeholder. -/
def Placeholder.text : Placeholder → String
  | .tooDeep => "<maximum depth exceeded>"
  | .twoByteExternal => "<external two-byte string>"
  | .unreadable => "<failed to read external string data>"
  | .nonAscii => "<found non-ASCII external string data>"

theorem Placeholder.plain_text (p : Placeholder) : ∀ c ∈ p.text.toList, Plain c := by
  have all : p.text.toList.all (Plain ·) = true := by cases p <;> decide
  simpa using all

theorem plain_truncationMarker : ∀ c ∈ truncationMarker.toList, Plain c := by
  have all : truncationMarker.toList.all (Plain ·) = true := by decide
  simpa using all

/-- The visit of an event. -/
def TraceEvent.visit? : TraceEvent → Option Visit
  | .visited visit => some visit
  | .read .. => none

theorem visits_eq_filterMap (t : Transcript) :
    t.visits = t.trace.reverse.filterMap TraceEvent.visit? := rfl

theorem Ending.result_eq_error {ending : Ending} {e : DecodeError} :
    ending.result = .error e ↔ ending = .failed e := by
  cases ending <;> simp [Ending.result]

/-- One thing that is done while a string is written. -/
inductive Action where
  /-- The buffer has to have room left. -/
  | gate
  | log (event : TraceEvent)
  /-- A code unit is added, if there is more room than the truncation marker takes. -/
  | write (unit : UInt16)
  | placeholder (p : Placeholder)
  | fail (error : DecodeError)
  deriving DecidableEq, Repr

/-- What a stretch of writing did. -/
structure Outcome where
  ending : Ending
  /-- What was added to the buffer. -/
  text : List Char := []
  /-- What went to the trace, the oldest first. -/
  events : List TraceEvent := []
  deriving DecidableEq, Repr

namespace Outcome

/-- The end of a stretch of writing that did this, begun with the given transcript. -/
def applyTo (o : Outcome) (t : Transcript) : Ending × Transcript :=
  (o.ending, { t with buffer := t.buffer.add o.text, trace := o.events.reverse ++ t.trace })

/-- What the writing did that goes on with `more` unless it was broken off. -/
def append (o : Outcome) (more : Outcome) : Outcome :=
  if o.ending = .finished then
    { ending := more.ending, text := o.text ++ more.text, events := o.events ++ more.events }
  else o

theorem append_of_finished {o : Outcome} (h : o.ending = .finished) (more : Outcome) :
    o.append more =
      { ending := more.ending, text := o.text ++ more.text, events := o.events ++ more.events } :=
  if_pos h

theorem append_of_not_finished {o : Outcome} (h : o.ending ≠ .finished) (more : Outcome) :
    o.append more = o :=
  if_neg h

theorem append_assoc (o p q : Outcome) : (o.append p).append q = o.append (p.append q) := by
  by_cases ho : o.ending = .finished
  · by_cases hp : p.ending = .finished <;> simp [append, ho, hp]
  · simp [append, ho]

theorem applyTo_append (o : Outcome) (more : Nat → Outcome) (t : Transcript) :
    (o.append (more (t.buffer.left - utf8Length o.text))).applyTo t =
      Ending.andThen (o.applyTo t) fun t => (more t.buffer.left).applyTo t := by
  obtain ⟨ending, text, events⟩ := o
  cases ending with
  | finished => simp [append, applyTo]
  | full | failed e => simp [append, applyTo]

theorem visits_applyTo (o : Outcome) (t : Transcript) :
    (o.applyTo t).2.visits = t.visits ++ o.events.filterMap TraceEvent.visit? := by
  simp [applyTo, visits_eq_filterMap]

end Outcome

/-- What an action does in a buffer with `room` bytes left. -/
def Action.perform (mode : EscapeMode) (room : Nat) : Action → Outcome
  | .gate => { ending := if room = 0 then .full else .finished }
  | .log event => { ending := .finished, events := [event] }
  | .write unit =>
    if room ≤ truncationMarker.utf8ByteSize then
      { ending := .full, text := truncationMarker.toList.take room }
    else { ending := .finished, text := mode.escape unit }
  | .placeholder p => { ending := .finished, text := p.text.toList.take room }
  | .fail e => { ending := .failed e }

theorem Action.eq_fail_of_perform {mode : EscapeMode} {room : Nat} {action : Action}
    {e : DecodeError} (h : (action.perform mode room).ending = .failed e) : action = .fail e := by
  cases action with
  | fail e' => exact congrArg Action.fail (Ending.failed.inj h)
  | gate => by_cases noRoom : room = 0 <;> simp [perform, noRoom] at h
  | write unit =>
    by_cases short : room ≤ truncationMarker.utf8ByteSize <;> simp [perform, short] at h
  | log event | placeholder p => cases h

/-- What a script does in a buffer with `room` bytes left. -/
def play (mode : EscapeMode) : (room : Nat) → List Action → Outcome
  | _, [] => { ending := .finished }
  | room, action :: rest =>
    let first := action.perform mode room
    first.append (play mode (room - utf8Length first.text) rest)

theorem play_append (mode : EscapeMode) (room : Nat) (script more : List Action) :
    play mode room (script ++ more) =
      (play mode room script).append
        (play mode (room - utf8Length (play mode room script).text) more) := by
  induction script generalizing room with
  | nil => simp [play, Outcome.append]
  | cons action script ih =>
    simp only [List.cons_append, play]
    rw [Outcome.append_assoc, ih]
    by_cases h : (action.perform mode room).ending = .finished
    · simp [Outcome.append, h, Nat.sub_sub]
    · rw [Outcome.append_of_not_finished h, Outcome.append_of_not_finished h]

/-- Plays a script. -/
def run (mode : EscapeMode) (script : List Action) (t : Transcript) : Ending × Transcript :=
  (play mode t.buffer.left script).applyTo t

section run

variable (mode : EscapeMode)

@[simp] theorem run_nil (t : Transcript) : run mode [] t = (.finished, t) := by
  simp [run, play, Outcome.applyTo]

theorem run_cons (action : Action) (rest : List Action) (t : Transcript) :
    run mode (action :: rest) t =
      Ending.andThen ((action.perform mode t.buffer.left).applyTo t) (run mode rest) :=
  Outcome.applyTo_append _ (fun room => play mode room rest) t

theorem run_append (script more : List Action) (t : Transcript) :
    run mode (script ++ more) t = Ending.andThen (run mode script t) (run mode more) := by
  rw [run, play_append]
  exact Outcome.applyTo_append _ (fun room => play mode room more) t

theorem run_gate (rest : List Action) (t : Transcript) :
    run mode (.gate :: rest) t = if t.buffer.left = 0 then (.full, t) else run mode rest t := by
  rw [run_cons]
  split <;> rename_i h <;> simp [Action.perform, Outcome.applyTo, h]

@[simp] theorem run_log (event : TraceEvent) (rest : List Action) (t : Transcript) :
    run mode (.log event :: rest) t = run mode rest (t.log event) := by
  rw [run_cons]
  simp [Action.perform, Outcome.applyTo, Transcript.log]

theorem run_write (unit : UInt16) (rest : List Action) (t : Transcript) :
    run mode (.write unit :: rest) t =
      if t.buffer.left ≤ truncationMarker.utf8ByteSize then
        (.full, t.pushText .raw truncationMarker)
      else run mode rest { t with buffer := t.buffer.pushUnit mode unit } := by
  rw [run_cons]
  split
  · rename_i short
    simp [Action.perform, Outcome.applyTo, short, Transcript.pushText,
      t.buffer.pushText_eq_add .raw plain_truncationMarker]
  · rename_i room
    have enough : 3 ≤ t.buffer.left := Nat.le_trans (by decide) (Nat.lt_of_not_le room)
    simp [Action.perform, Outcome.applyTo, room, t.buffer.pushUnit_eq_add enough]

@[simp] theorem run_placeholder (p : Placeholder) (rest : List Action) (t : Transcript) :
    run mode (.placeholder p :: rest) t = run mode rest (t.pushText mode p.text) := by
  rw [run_cons]
  simp [Action.perform, Outcome.applyTo, Transcript.pushText,
    t.buffer.pushText_eq_add mode p.plain_text]

@[simp] theorem run_fail (e : DecodeError) (rest : List Action) (t : Transcript) :
    run mode (.fail e :: rest) t = (.failed e, t) := by
  rw [run_cons]
  simp [Action.perform, Outcome.applyTo]

theorem run_units (units : List UInt16) (t : Transcript) :
    run mode (units.map .write) t = writeUnits mode units t := by
  induction units generalizing t with
  | nil => exact run_nil mode t
  | cons unit units ih => rw [List.map_cons, run_write, writeUnits, ih]

@[simp] theorem budget_run (script : List Action) (t : Transcript) :
    (run mode script t).2.budget = t.budget := rfl

theorem run_withBudget (script : List Action) (t : Transcript) (budget : Budget) :
    run mode script { t with budget } =
      ((run mode script t).1, { (run mode script t).2 with budget }) := rfl

theorem withValue_congr {α : Type} {value : Except DecodeError α} {t : Transcript}
    {next next' : α → Transcript → Ending × Transcript}
    (h : ∀ a, value = .ok a → next a t = next' a t) :
    Ending.withValue value t next = Ending.withValue value t next' := by
  cases value with
  | ok a => exact h a rfl
  | error e => rfl

/-- More writing begins with the budget that the script began with. -/
theorem andThen_run_congr {script : List Action} {t : Transcript}
    {next next' : Transcript → Ending × Transcript}
    (h : ∀ t', t'.budget = t.budget → next t' = next' t') :
    Ending.andThen (run mode script t) next = Ending.andThen (run mode script t) next' := by
  rcases ended : run mode script t with ⟨ending, t'⟩
  cases ending with
  | finished => exact h t' (by rw [← budget_run mode script t, ended])
  | full | failed e => rfl

end run

/-! ## The script of a string -/

/-- The script that needs a value, or the failure to have it. -/
def orFail {α : Type} (value : Except DecodeError α) (script : α → List Action) : List Action :=
  match value with
  | .ok value => script value
  | .error e => [.fail e]

theorem run_orFail {α : Type} (mode : EscapeMode) (value : Except DecodeError α)
    (script : α → List Action) (t : Transcript) :
    run mode (orFail value script) t =
      Ending.withValue value t fun value t => run mode (script value) t := by
  cases value with
  | ok value => rfl
  | error e => exact run_fail mode e [] t

/-- What external characters add to a script: a placeholder before most failures. -/
def excuse : Action → List Action
  | .fail (.nonAsciiData address) => [.fail (.nonAsciiData address)]
  | .fail e => [.placeholder .unreadable, .fail e]
  | action => [action]

/-- The outcome with a failure to have external characters excused, begun with `room` bytes left. -/
def Outcome.excused (room : Nat) (o : Outcome) : Outcome :=
  match o.ending with
  | .failed (.nonAsciiData _) => o
  | .failed _ =>
    { o with
      text := o.text ++ Placeholder.unreadable.text.toList.take (room - utf8Length o.text) }
  | _ => o

theorem Outcome.excused_of_not_failed {o : Outcome} (h : ∀ e, o.ending ≠ .failed e) (room : Nat) :
    o.excused room = o := by
  obtain ⟨ending, text, events⟩ := o
  cases ending with
  | finished | full => rfl
  | failed e => exact absurd rfl (h e)

@[simp] theorem Outcome.ending_excused (o : Outcome) (room : Nat) :
    (o.excused room).ending = o.ending := by
  unfold excused
  split <;> rfl

theorem Outcome.excused_append {o : Outcome} (h : ∀ e, o.ending ≠ .failed e) (more : Outcome)
    (room : Nat) :
    (o.append more).excused room = o.append (more.excused (room - utf8Length o.text)) := by
  by_cases done : o.ending = .finished
  · obtain ⟨ending, text, events⟩ := more
    rw [append_of_finished done, append_of_finished done]
    cases ending with
    | finished | full => rfl
    | failed e => cases e <;> simp [excused, Nat.sub_sub]
  · rw [append_of_not_finished done, append_of_not_finished done, excused_of_not_failed h]

/-- Failures of external characters are excused at the end of their script. -/
theorem play_excuse (mode : EscapeMode) (room : Nat) (script : List Action) :
    play mode room (script.flatMap excuse) = (play mode room script).excused room := by
  induction script generalizing room with
  | nil => rfl
  | cons action script ih =>
    rw [List.flatMap_cons]
    by_cases failed : ∃ e, action = .fail e
    · obtain ⟨e, rfl⟩ := failed
      cases e <;> simp [excuse, play, Action.perform, Outcome.append, Outcome.excused]
    · have kept : excuse action = [action] := by
        cases action with
        | fail e => exact absurd ⟨e, rfl⟩ failed
        | gate | log | write | placeholder => rfl
      have goesOn (e : DecodeError) : (action.perform mode room).ending ≠ .failed e :=
        fun stopped => failed ⟨e, Action.eq_fail_of_perform stopped⟩
      rw [kept, List.singleton_append, play, play, ih, Outcome.excused_append goesOn]

namespace HeapString

variable (s : Snapshot) (mode : EscapeMode) (h : HeapString)

theorem chunkLength_mul_width_le : h.chunkLength * h.encoding.width ≤ chunkBytes :=
  Nat.div_mul_le_self _ _

/-- The script of `writeChunks`. -/
def chunkScript (base : Word) (start done remaining : Nat) : List Action :=
  if remaining = 0 then []
  else
    let count := min remaining h.chunkLength
    let width := h.encoding.width
    match base.advance? (Word.capped (start + done) * width) with
    | none => [.fail (.corruptField h.address ⟨"String", "length"⟩ .charactersOverflow)]
    | some address =>
      .log (.read h address (count * width)) ::
        orFail (s.readBytes address (count * width)) fun bytes =>
          if h.isExternal ∧ done = 0 ∧ 0x80 ≤ bytes.headD 0 then
            [.placeholder .nonAscii, .fail (.nonAsciiData h.address)]
          else
            (h.encoding.units bytes).map .write ++
              chunkScript base start (done + count) (remaining - count)
termination_by remaining
decreasing_by
  have := h.chunkLength_pos
  omega

/-- The script of `writeChars`. -/
def charsScript (budget : Budget) (base : Word) (start length : Nat) : List Action :=
  orFail (budget.book (UInt64.ofNat (min length h.chunkLength * h.encoding.width)) h.policy)
    fun _ => h.chunkScript s base start 0 length

/-- The script of `writeRange`. -/
def rangeScript (budget : Budget) : (levels : Nat) → HeapString → (depth start length : Nat) →
    List Action
  | 0, _, depth, _, _ => [.placeholder .tooDeep, .fail (.depthExceeded depth)]
  | levels + 1, h, depth, start, length =>
    let start := min start h.length
    let length := min length (h.length - start)
    .gate :: .log (.visited { string := h, depth, start, length }) ::
      match h.representation with
      | .sequential =>
        orFail (s.fieldAddress h.address h.encoding.charsField) fun base =>
          h.charsScript s budget base start length
      | .concatenated first second =>
        orFail (load s first h.policy) fun first =>
          let split := first.length
          let stop := start + length
          (if start < split then
            rangeScript budget levels first (depth + 1) start (min length (split - start))
          else []) ++
          (if split < stop then
            orFail (load s second h.policy) fun second =>
              rangeScript budget levels second (depth + 1) (start - split)
                (stop - max split start)
          else [])
      | .sliced parent offset =>
        orFail (load s parent h.policy) fun parent =>
          rangeScript budget levels parent (depth + 1) (Word.capped (offset + start)) length
      | .external _ none => [.placeholder .twoByteExternal]
      | .external _ (some data) => (h.charsScript s budget data start length).flatMap excuse

/-! ## Writing plays the script -/

theorem writeChunks_eq_run (base : Word) (start done remaining : Nat) (t : Transcript) :
    h.writeChunks s mode base start done remaining t =
      run mode (h.chunkScript s base start done remaining) t := by
  fun_induction h.writeChunks s mode base start done remaining t with
  | case1 done t => rw [chunkScript, if_pos rfl, run_nil]
  | case2 done remaining t more width overflow =>
    rw [chunkScript, if_neg more]
    simp only [width] at overflow
    simp only [overflow, run_fail]
  | case3 done remaining t more count width address found ih =>
    rw [chunkScript, if_neg more]
    simp only [width] at found
    simp only [found, run_log, run_orFail]
    congr 1
    funext bytes t
    split
    · simp [Placeholder.text]
    · rw [run_append, run_units]
      congr 1
      funext t
      exact ih t

theorem writeChars_eq_run (base : Word) (start length : Nat) (t : Transcript) :
    h.writeChars s mode base start length t =
      run mode (h.charsScript s t.budget base start length) t := by
  rw [writeChars, charsScript, run_orFail]
  rcases booked : t.budget.book (UInt64.ofNat (min length h.chunkLength * h.encoding.width))
      h.policy with e | budget
  · rfl
  · simp only [Ending.withValue_ok]
    rw [writeChunks_eq_run, run_withBudget]
    simp only [Budget.release_of_book booked]
    rfl

theorem run_excuse (script : List Action) (t : Transcript) :
    run mode (script.flatMap excuse) t =
      match run mode script t with
      | (.failed (.nonAsciiData address), t) => (.failed (.nonAsciiData address), t)
      | (.failed e, t) => (.failed e, t.pushText mode Placeholder.unreadable.text)
      | done => done := by
  rw [run, play_excuse, run]
  rcases play mode t.buffer.left script with ⟨ending, text, events⟩
  cases ending with
  | finished | full => rfl
  | failed e =>
    cases e <;> simp [Outcome.excused, Outcome.applyTo, Transcript.pushText,
      TextBuffer.pushText_eq_add _ mode Placeholder.unreadable.plain_text]

theorem writeExternal_eq_run (base : Word) (start length : Nat) (t : Transcript) :
    h.writeExternal s mode base start length t =
      run mode ((h.charsScript s t.budget base start length).flatMap excuse) t := by
  rw [writeExternal, writeChars_eq_run, run_excuse]
  rfl

/-- **A range of a string is written as its script is played.** -/
theorem writeRange_eq_run (levels depth start length : Nat) (t : Transcript) :
    writeRange s mode levels h depth start length t =
      run mode (rangeScript s t.budget levels h depth start length) t := by
  induction levels generalizing h depth start length t with
  | zero => simp [writeRange, rangeScript, exceedDepth, Placeholder.text]
  | succ levels ih =>
    rw [writeRange, rangeScript, run_gate, run_log]
    split
    · rfl
    · cases h.representation with
      | sequential =>
        simp only [run_orFail]
        exact withValue_congr fun base _ => writeChars_eq_run s mode h base _ _ _
      | concatenated first second =>
        simp only [run_orFail]
        refine withValue_congr fun first _ => ?_
        rw [run_append]
        refine (congrArg (Ending.andThen · _) ?_).trans
          (andThen_run_congr mode fun t' kept => ?_)
        · split
          · exact ih first _ _ _ _
          · exact (run_nil mode _).symm
        · split
          · rw [run_orFail]
            refine withValue_congr fun second _ => ?_
            rw [ih, kept]
            rfl
          · exact (run_nil mode _).symm
      | sliced parent offset =>
        simp only [run_orFail]
        exact withValue_congr fun parent _ => ih parent _ _ _ _
      | external resource data =>
        cases data with
        | none => simp [Placeholder.text]
        | some data => exact writeExternal_eq_run s mode h data _ _ _

/-- The script of a whole string nested `depth` deep. -/
def script (budget : Budget) (depth : Nat) : List Action :=
  rangeScript s budget (maxDepth + 1 - depth) h depth 0 h.length

theorem writeAll_eq_run (depth : Nat) (t : Transcript) :
    h.writeAll s mode depth t = run mode (h.script s t.budget depth) t :=
  writeRange_eq_run s mode h _ _ _ _ t

/-- Without quotes, writing plays the script. A string that is nested too deep to begin with has the
script of one that its components nest too deep. -/
theorem write_eq_run {o : WriteOptions} (unquoted : o.quoted = false) (t : Transcript) :
    h.write s mode o t =
      ((run mode (h.script s t.budget o.depth) t).1.result,
        (run mode (h.script s t.budget o.depth) t).2) := by
  rw [write]
  split
  · rename_i deep
    rw [script, Nat.sub_eq_zero_of_le deep, ← writeRange_eq_run]
    rfl
  · rw [unquoted, ← writeAll_eq_run]
    rfl

end HeapString

end Postmortem
