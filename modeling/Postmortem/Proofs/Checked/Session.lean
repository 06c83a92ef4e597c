import Postmortem.Proofs.Checked.Images
import Postmortem.Proofs.Checked.Scopes
import Postmortem.Proofs.Checked.Strings
import Postmortem.Proofs.Session.Effects

/-! # Sessions without traps

The checked version of a session's run of a command. Every object that a session keeps was loaded
(`Session.Sound`), which is all that the operations on it need. So no command traps in any session
that started without objects, whatever the memory, the layout and the commands before it
(`Session.runs_without_trap`). -/

namespace Postmortem

/-! ## Kept objects -/

namespace Object

variable {s : Snapshot} {object : Object}

theorem Loaded.sound_context {c : Context} (loaded : object.Loaded s)
    (picked : object.context? = some c) : c.Sound := by
  cases loaded with
  | context ran =>
    cases picked
    exact Context.sound_of_load ran
  | _ => cases picked

theorem Loaded.sound_scopeInfo {i : ScopeInfo} (loaded : object.Loaded s)
    (picked : object.scopeInfo? = some i) : i.Sound := by
  cases loaded with
  | scopeInfo ran =>
    cases picked
    exact ScopeInfo.sound_of_load ran
  | _ => cases picked

theorem Loaded.length_le {h : HeapString} (loaded : object.Loaded s)
    (picked : object.string? = some h) : h.length ≤ Word.top := by
  cases loaded with
  | string ran =>
    cases picked
    exact HeapString.length_le_of_load ran
  | _ => cases picked

end Object

namespace Checked

variable (s : Session) {α β : Type}

/-! ## Answers -/

def answer (result : CheckedResult α) : Checked (Except CommandError α × Session) := do
  return s.answer (← result.run)

theorem answer_of (result : Except DecodeError α) : answer s (.of result) = .ok (s.answer result) :=
  rfl

/-- An answer about the object under a name, picked out by its kind. -/
def withObject (pick : Object → Option α) (name : String)
    (next : α → Checked (Except CommandError β × Session)) :
    Checked (Except CommandError β × Session) :=
  match (s.objects.get? name).bind pick with
  | some object => next object
  | none => .ok (.error .unknownName, s)

/-- An answer that loads an object. -/
def answerLoad (name : Option String) (object : α → Object) (body : CheckedLoading α) :
    Checked (Except CommandError α × Session) := do
  match ← body s.budget with
  | (.ok value, budget) => return (.ok value, { s with budget }.keep name (object value))
  | (.error e, budget) => return (.error (.decoding e), { s with budget })

theorem answerLoad_of (name : Option String) (object : α → Object) (body : Loading α) :
    answerLoad s name object (.of body) = .ok (s.answerLoad name object body) := by
  have ran : (CheckedLoading.of body) s.budget = .ok (body.runFrom s.budget) := rfl
  rw [answerLoad, ran, ok_bind, Session.answerLoad, Session.load]
  rcases body.runFrom s.budget with ⟨_ | _, budget⟩ <;> rfl

/-- An answer that writes to a buffer. -/
def answerWrite (target : WriteTarget) (verbose : Bool)
    (body : Transcript → Checked (Except DecodeError Unit × Transcript)) :
    Checked (Except CommandError Written × Session) := do
  let written (result : Except DecodeError Unit) (t : Transcript) : Written :=
    { result, buffer := t.buffer, visits := if verbose then t.visits else [] }
  match target with
  | .fresh capacity =>
    let (result, t) ← body { buffer := .ofCapacity capacity, budget := s.budget }
    return (.ok (written result t), { s with budget := t.budget })
  | .kept name =>
    match s.buffers.get? name with
    | none => return (.error .unknownName, s)
    | some buffer =>
      let (result, t) ← body { buffer, budget := s.budget }
      return (.ok (written result t),
        { s with budget := t.budget, buffers := s.buffers.insert name t.buffer })

theorem answerWrite_eq {target : WriteTarget} {verbose : Bool}
    {body : Transcript → Except DecodeError Unit × Transcript}
    {body' : Transcript → Checked (Except DecodeError Unit × Transcript)}
    (each : ∀ t, body' t = .ok (body t)) :
    answerWrite s target verbose body' = .ok (s.answerWrite target verbose body) := by
  unfold answerWrite Session.answerWrite
  cases target with
  | fresh capacity =>
    dsimp only
    rw [each]
    rfl
  | kept name =>
    dsimp only
    cases s.buffers.get? name with
    | none => rfl
    | some buffer =>
      dsimp only
      rw [each]
      rfl

variable {s} in
theorem withObject_eq (sound : s.Sound) {pick : Object → Option α} {name : String}
    {next : α → Except CommandError β × Session}
    {next' : α → Checked (Except CommandError β × Session)}
    (each : ∀ object a, object.Loaded s.snapshot → pick object = some a → next' a = .ok (next a)) :
    withObject s pick name next' = .ok (s.withObject pick name next) := by
  unfold withObject Session.withObject
  cases found : s.objects.get? name with
  | none => rfl
  | some object =>
    dsimp only [Option.bind]
    cases picked : pick object with
    | none => rfl
    | some a => exact each object a (sound name object found) picked

/-! ## Commands -/

/-- Commands that compute nothing which may trap are carried out as they are. -/
def run (s : Session) {α : Type} : Command α → Checked (Except CommandError α × Session)
  | .classify w => answer s (classify s.snapshot.layout.tags w : Checked WordClass)
  | .objectAddress w => answer s (objectAddress s.snapshot w)
  | .readWord address => answer s (readWord s.snapshot address)
  | .readField object field => answer s (readField s.snapshot object field)
  | .readSmallInt object field => answer s (readSmallInt s.snapshot object field)
  | .readInteger object field => answer s (readInteger s.snapshot object field)
  | .typeByte object => answer s (typeByte s.snapshot object)
  | .expectType w expected accepted => answer s (expectType s.snapshot w expected accepted)
  | .readSlots address count policy name =>
    answerLoad s name .slots (readSlots s.snapshot address count policy)
  | .loadFixedArray w policy name =>
    answerLoad s name .fixedArray (loadFixedArray s.snapshot w policy)
  | .loadArray w policy name => answerLoad s name .array (loadArray s.snapshot w policy)
  | .loadContext w policy name => answerLoad s name .context (loadContext s.snapshot w policy)
  | .loadScopeInfo w policy name =>
    answerLoad s name .scopeInfo (loadScopeInfo s.snapshot w policy)
  | .loadFunction w policy name =>
    answerLoad s name .function (.ofResult (loadFunction s.snapshot w policy))
  | .loadString w policy name =>
    answerLoad s name .string (.ofResult (loadString s.snapshot w policy))
  | .functionContext function policy name =>
    withObject s Object.function? function fun f =>
      answerLoad s name .context (functionContext s.snapshot f policy)
  | .functionScopeInfo function policy name =>
    withObject s Object.function? function fun f =>
      answerLoad s name .scopeInfo (functionScopeInfo s.snapshot f policy)
  | .contextScopeInfo context policy name =>
    withObject s Object.context? context fun c =>
      answerLoad s name .scopeInfo (contextScopeInfo s.snapshot c policy)
  | .describe function policy name =>
    withObject s Object.function? function fun f =>
      answerLoad s name .functionInfo (.ofResult (describe s.snapshot f policy))
  | .variable context index =>
    withObject s Object.context? context fun c => answer s (valueAt c index)
  | .visitStatic context stop =>
    withObject s Object.context? context fun c => do
      let slots ← staticSlots c
      return s.answer (.ok (noted (visit (noteUntil stop) slots)))
  | .visitDynamic context stop =>
    withObject s Object.context? context fun c => do
      let slots ← dynamicSlots c
      return s.answer (.ok (noted (visit (noteUntil stop) slots)))
  | .visitVars info kind stop =>
    withObject s Object.scopeInfo? info fun i => do
      let (flow, visited) := noted (← visitVars i kind fun v => noteUntil stop (v.ordinal, v.slot))
      return s.answer (.ok (flow, visited.map Prod.fst))
  | .stepVars info kind n =>
    withObject s Object.scopeInfo? info fun i => do
      let cursor ← vars i kind
      return s.answer (.ok (← bound cursor, ← steps cursor n))
  | .valueOf info context v =>
    withObject s Object.scopeInfo? info fun _ =>
      withObject s Object.context? context fun c => answer s (valueOf c v)
  | .write string mode options target =>
    withObject s Object.string? string fun h =>
      answerWrite s target options.verbose (write s.snapshot mode h options)
  | .writeString w policy mode options target =>
    answerWrite s target options.verbose (writeString s.snapshot mode w policy options)
  | .toText string capacity mode =>
    withObject s Object.string? string fun h => do
      let (result, budget) ← toText s.snapshot mode h capacity s.budget
      return { s with budget }.answer result
  | .writeName info mode target =>
    withObject s Object.functionInfo? info fun i =>
      answerWrite s target false (writeName s.snapshot mode i)
  | .writeScriptPath info mode target =>
    withObject s Object.functionInfo? info fun i =>
      answerWrite s target false (writeScriptPath s.snapshot mode i)
  | .editBuffer name change =>
    match s.buffers.get? name with
    | none => .ok (.error .unknownName, s)
    | some buffer => do
      let buffer ← edit buffer change
      return (.ok buffer, { s with buffers := s.buffers.insert name buffer })
  | c => .ok (s.run c)

variable {s} in
/-- **No command traps** in a session whose objects were loaded. -/
theorem run_eq (sound : s.Sound) (c : Command α) : run s c = .ok (s.run c) := by
  cases c with
  | readBytes | fieldAddress | reserve | drop | slot | visitElements | newBuffer => rfl
  | classify w =>
    simp only [run, classify_eq]
    exact answer_of ..
  | objectAddress | readWord | readField | readSmallInt | readInteger | typeByte | expectType =>
    simp only [run, objectAddress_eq, readWord_eq, readField_eq, readSmallInt_eq, readInteger_eq,
      typeByte_eq, expectType_eq]
    exact answer_of ..
  | readSlots | loadFixedArray | loadArray | loadContext | loadScopeInfo | loadFunction
  | loadString =>
    simp only [run, readSlots_eq, loadFixedArray_eq, loadArray_eq, loadContext_eq,
      loadScopeInfo_eq, loadFunction_eq, loadString_eq, CheckedLoading.ofResult_of]
    exact answerLoad_of ..
  | functionContext function policy name =>
    refine withObject_eq sound fun _ f _ _ => ?_
    rw [functionContext_eq]
    exact answerLoad_of ..
  | functionScopeInfo function policy name =>
    refine withObject_eq sound fun _ f _ _ => ?_
    rw [functionScopeInfo_eq]
    exact answerLoad_of ..
  | contextScopeInfo context policy name =>
    refine withObject_eq sound fun _ c loaded picked => ?_
    rw [contextScopeInfo_eq s.snapshot (loaded.sound_context picked)]
    exact answerLoad_of ..
  | describe function policy name =>
    refine withObject_eq sound fun _ f _ _ => ?_
    rw [describe_eq]
    exact answerLoad_of ..
  | «variable» context index =>
    refine withObject_eq sound fun _ c loaded picked => ?_
    rw [valueAt_eq (loaded.sound_context picked)]
    exact answer_of ..
  | visitStatic context stop =>
    refine withObject_eq sound fun _ c loaded picked => ?_
    rw [staticSlots_eq (loaded.sound_context picked)]
    rfl
  | visitDynamic context stop =>
    refine withObject_eq sound fun _ c loaded picked => ?_
    rw [dynamicSlots_eq (loaded.sound_context picked)]
    rfl
  | visitVars info kind stop =>
    refine withObject_eq sound fun _ i loaded picked => ?_
    rw [visitVars_eq (loaded.sound_scopeInfo picked)]
    rfl
  | stepVars info kind n =>
    refine withObject_eq sound fun _ i loaded picked => ?_
    have sound := loaded.sound_scopeInfo picked
    have cursor := sound_vars sound kind
    rw [vars_eq sound, ok_bind, bound_eq cursor, ok_bind, steps_eq cursor]
    rfl
  | valueOf info context v =>
    refine withObject_eq sound fun _ _ _ _ => withObject_eq sound fun _ c loaded picked => ?_
    rw [valueOf_eq (loaded.sound_context picked)]
    exact answer_of ..
  | write string mode options target =>
    exact withObject_eq sound fun _ h loaded picked =>
      answerWrite_eq s (write_eq s.snapshot mode (loaded.length_le picked) options)
  | writeString w policy mode options target =>
    exact answerWrite_eq s (writeString_eq s.snapshot mode w policy options)
  | toText string capacity mode =>
    refine withObject_eq sound fun _ h loaded picked => ?_
    rw [toText_eq s.snapshot mode (loaded.length_le picked)]
    rfl
  | writeName info mode target =>
    exact withObject_eq sound fun _ i _ _ => answerWrite_eq s (writeName_eq s.snapshot mode i)
  | writeScriptPath info mode target =>
    exact withObject_eq sound fun _ i _ _ => answerWrite_eq s (writeScriptPath_eq s.snapshot mode i)
  | editBuffer name change =>
    simp only [run, Session.run, edit_eq]
    cases s.buffers.get? name <;> rfl

/-- Commands carried out one after the other. -/
def runAll (s : Session) : List ((α : Type) × Command α) → Checked Session
  | [] => .ok s
  | ⟨_, c⟩ :: rest => do
    let (_, s) ← run s c
    runAll s rest

variable {s} in
theorem runAll_eq (sound : s.Sound) (commands : List ((α : Type) × Command α)) :
    runAll s commands = .ok (s.runAll commands) := by
  induction commands generalizing s with
  | nil => rfl
  | cons c rest ih =>
    have next : (s.run c.2).2.Sound := Session.sound_runAll sound [c]
    rw [runAll, run_eq sound, ok_bind]
    exact ih next

end Checked

/-! ## Everything else -/

/-- No operation on the tags of a scheme traps. -/
def TagScheme.TrapFree (t : TagScheme) : Prop :=
  (∀ w, Checked.decode t w = .ok (t.decode w)) ∧
    (∀ w, Checked.classify t w = .ok (t.classify w)) ∧
    (∀ n, Checked.encode t n = .ok (t.encode n)) ∧
    Checked.smallIntRange t = .ok t.smallIntRange

theorem TagScheme.trapFree (t : TagScheme) : t.TrapFree :=
  ⟨Checked.decode_eq t, Checked.classify_eq t, Checked.encode_eq t, Checked.smallIntRange_eq t⟩

/-- No operation on the object traps, whatever snapshot it is used with. -/
def Object.TrapFree : Object → Prop
  | .reservation _ | .slots _ | .fixedArray _ | .array _ => True
  | .context c =>
    Checked.staticSlots c = .ok c.staticSlots ∧
      Checked.dynamicSlots c = .ok c.dynamicSlots ∧
      (∀ index, Checked.valueAt c index = .of (c.valueAt index)) ∧
      (∀ v, Checked.valueOf c v = .of (c.valueOf v)) ∧
      ∀ s policy, Checked.contextScopeInfo s c policy = .of (c.scopeInfo s policy)
  | .scopeInfo i => ∀ kind,
    Checked.count i kind = .ok (i.count kind) ∧
      Checked.regionStart i kind = .ok (i.start kind) ∧
      Checked.vars i kind = .ok (i.vars kind) ∧
      (∀ n, Checked.steps (i.vars kind) n = .ok ((i.vars kind).steps n)) ∧
      ∀ v ∈ i.delivered kind, Checked.nameOf i v = .ok (i.nameOf v)
  | .function f => ∀ s policy,
    Checked.functionContext s f policy = .of (f.context s policy) ∧
      Checked.functionScopeInfo s f policy = .of (f.scopeInfo s policy) ∧
      Checked.describe s f policy = .of (f.describe s policy)
  | .functionInfo i => ∀ s mode t,
    Checked.writeName s mode i t = .ok (i.writeName s mode t) ∧
      Checked.writeScriptPath s mode i t = .ok (i.writeScriptPath s mode t)
  | .string h => ∀ s mode,
    (∀ o t, Checked.write s mode h o t = .ok (h.write s mode o t)) ∧
      ∀ capacity budget,
        Checked.toText s mode h capacity budget = .ok (h.toText s mode capacity budget)

theorem Object.Loaded.trapFree {s : Snapshot} {object : Object} (loaded : object.Loaded s) :
    object.TrapFree := by
  cases object with
  | reservation | slots | fixedArray | array => trivial
  | context c =>
    have sound := loaded.sound_context rfl
    exact ⟨Checked.staticSlots_eq sound, Checked.dynamicSlots_eq sound, Checked.valueAt_eq sound,
      Checked.valueOf_eq sound, fun s => Checked.contextScopeInfo_eq s sound⟩
  | scopeInfo i =>
    have sound := loaded.sound_scopeInfo rfl
    exact fun kind => ⟨Checked.count_eq sound kind, Checked.regionStart_eq sound kind,
      Checked.vars_eq sound kind, Checked.steps_eq (Checked.sound_vars sound kind),
      fun _ delivered => Checked.nameOf_eq sound delivered⟩
  | function f =>
    exact fun s policy => ⟨Checked.functionContext_eq s f policy,
      Checked.functionScopeInfo_eq s f policy, Checked.describe_eq s f policy⟩
  | functionInfo i =>
    exact fun s mode t => ⟨Checked.writeName_eq s mode i t, Checked.writeScriptPath_eq s mode i t⟩
  | string h =>
    have small := loaded.length_le rfl
    exact fun s mode => ⟨Checked.write_eq s mode small, Checked.toText_eq s mode small⟩

/-- **Nothing traps.** In a session that starts without objects, no command traps, whatever the
memory, the layout, the budget, the buffers and the commands before it. No operation traps on the
objects that the session keeps in the end, on tags, or on an image of the memory. -/
theorem Session.runs_without_trap (snapshot : Snapshot) (budget : Budget)
    (buffers : NameMap TextBuffer) (commands : List ((α : Type) × Command α)) :
    let start : Session := { snapshot, budget, buffers }
    Checked.runAll start commands = .ok (start.runAll commands) ∧
      (∀ name object, (start.runAll commands).objects.get? name = some object → object.TrapFree) ∧
      (∀ t : TagScheme, t.TrapFree) ∧
      ∀ (image : Image) address buffer,
        Checked.read image address buffer = .ok (image.read address buffer.length) := by
  intro start
  have sound : start.Sound := fun _ _ found => by cases found
  refine ⟨Checked.runAll_eq sound commands, fun name object found => ?_, TagScheme.trapFree,
    fun _ => Checked.read_eq⟩
  exact (sound_runAll sound commands name object found).trapFree

end Postmortem
