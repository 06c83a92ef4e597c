import Postmortem.Proofs.Checked.Objects
import Postmortem.Proofs.ScopeInfo.Regions

/-! # Scope infos and closures without traps

The checked versions of the loads of scope infos and closures, of the counts and the cursors of a
scope info, and of what leads from closures and contexts to other objects. The count slots of a
scope info were found to hold small integers when it was loaded (`ScopeInfo.Sound`), and a cursor
never goes past its count (`VarCursor.Sound`). -/

namespace Postmortem

/-- What holds of every scope info that was loaded. -/
structure ScopeInfo.Sound (i : ScopeInfo) : Prop where
  flawless : ScopeInfo.flaw? i.tags i.header i.array = none
  size_le : i.size ≤ Word.signedTop

theorem ScopeInfo.sound_of_load {s : Snapshot} {w : Word} {policy : AllocationPolicy}
    {i : ScopeInfo} {b b' : Budget} (loaded : (load s w policy).runFrom b = (.ok i, b')) :
    i.Sound := by
  refine ⟨?_, (isLoaded_of_load loaded).size_le⟩
  obtain ⟨header, -, rest⟩ := Loading.exists_of_runFrom_ofExcept_bind loaded
  obtain ⟨array, mid, -, rest⟩ := Loading.exists_of_runFrom_bind rest
  split at rest
  · rename_i flawless
    cases rest
    exact flawless
  · obtain ⟨_, left, -, failed⟩ := Loading.exists_of_runFrom_bind rest
    cases failed

/-- The slot that counts the variables of a kind holds a small integer. -/
theorem ScopeInfo.Sound.isSmallInt {i : ScopeInfo} (sound : i.Sound) (kind : VarKind) :
    i.tags.isSmallInt ((i.array.get? (i.header.countSlot kind)).getD 0) = true := by
  have counted := (flaw?_eq_none.1 sound.flawless).2 kind
  simp only [isCount] at counted
  split at counted
  · rename_i n classified
    unfold TagScheme.classify at classified
    split at classified
    · assumption
    · split at classified <;> cases classified
  · cases counted.2

/-- What holds of the cursors of a loaded scope info. -/
structure VarCursor.Sound (c : VarCursor) : Prop where
  size_le : c.info.size ≤ Word.top
  next_le : c.next ≤ c.count

namespace Checked

/-! ## Scope infos -/

def isCount (tags : TagScheme) (array : FixedArray) (slot : Nat) : Checked Bool := do
  match ← classify tags ((array.get? slot).getD 0) with
  | .smallInt n => return decide (0 ≤ n)
  | _ => return false

theorem isCount_eq (tags : TagScheme) (array : FixedArray) (slot : Nat) :
    isCount tags array slot = .ok (ScopeInfo.isCount tags array slot) := by
  rw [isCount, classify_eq, ok_bind, ScopeInfo.isCount]
  cases tags.classify ((array.get? slot).getD 0) <;> rfl

def flaw? (tags : TagScheme) (header : ScopeInfoHeader) (array : FixedArray) :
    Checked (Option ArrayFlaw) := do
  let slots := VarKind.all.map header.countSlot
  if array.size < header.firstName ∨ slots.any (array.size ≤ ·) then return some .headerTooShort
  else if ← slots.allM (isCount tags array) then return none
  else return some .countsUnreadable

theorem flaw?_eq (tags : TagScheme) (header : ScopeInfoHeader) (array : FixedArray) :
    flaw? tags header array = .ok (ScopeInfo.flaw? tags header array) := by
  unfold flaw? ScopeInfo.flaw?
  dsimp only
  split
  · rfl
  · rw [allM_eq fun slot _ => isCount_eq tags array slot, ok_bind]
    split <;> rfl

def loadScopeInfo (s : Snapshot) (w : Word) (policy : AllocationPolicy) :
    CheckedLoading ScopeInfo := do
  let header ← .of (Loading.ofExcept (ScopeInfoHeader.ofLayout s.layout))
  let array ← loadArrayAs s w "ScopeInfo" s.layout.types.scopeInfo policy
  match ← .ofResult (flaw? s.layout.tags header array : Checked _) with
  | none => return { array, header, tags := s.layout.tags }
  | some flaw =>
    .of (Loading.release array.booked)
    throw (.corruptArray array.address flaw)

theorem loadScopeInfo_eq (s : Snapshot) (w : Word) (policy : AllocationPolicy) :
    loadScopeInfo s w policy = .of (ScopeInfo.load s w policy) := by
  unfold loadScopeInfo
  refine CheckedLoading.of_bind fun header _ _ _ => ?_
  rw [loadArrayAs_eq]
  refine CheckedLoading.of_bind fun array _ _ _ => ?_
  rw [flaw?_eq, CheckedResult.lift_ok, CheckedLoading.ofResult_ok_bind]
  cases ScopeInfo.flaw? s.layout.tags header array with
  | none => rfl
  | some flaw => exact CheckedLoading.of_bind fun _ _ _ _ => rfl

section scopeInfos

variable {i : ScopeInfo}

/-- The slot has to hold a small integer. -/
def count (i : ScopeInfo) (kind : VarKind) : Checked Nat := do
  let slot := (i.array.get? (i.header.countSlot kind)).getD 0
  assert (i.tags.isSmallInt slot)
  return (← decode i.tags slot).toNat

theorem count_eq (sound : i.Sound) (kind : VarKind) : count i kind = .ok (i.count kind) := by
  unfold count
  dsimp only
  rw [assert_eq (sound.isSmallInt kind), ok_bind, decode_eq]
  rfl

def regionStart (i : ScopeInfo) (kind : VarKind) : Checked Nat := do
  let before := VarKind.all.takeWhile (· ≠ kind)
  let start ← before.foldlM (fun start other => do
    return Word.capped (Word.capped (start + i.header.gap other) + (← count i other)))
    i.header.firstName
  return Word.capped (start + i.header.gap kind)

theorem regionStart_eq (sound : i.Sound) (kind : VarKind) :
    regionStart i kind = .ok (i.start kind) := by
  unfold regionStart
  dsimp only
  rw [foldlM_eq i.header.firstName fun start other _ => by rw [count_eq sound other]; rfl]
  rfl

def vars (i : ScopeInfo) (kind : VarKind) : Checked VarCursor := do
  return { info := i, kind, start := ← regionStart i kind, count := ← count i kind }

theorem vars_eq (sound : i.Sound) (kind : VarKind) : vars i kind = .ok (i.vars kind) := by
  rw [vars, regionStart_eq sound, ok_bind, count_eq sound]
  rfl

theorem sound_vars (sound : i.Sound) (kind : VarKind) : (i.vars kind).Sound :=
  ⟨Nat.le_trans sound.size_le (by decide), Nat.zero_le _⟩

/-- The slot has to be one that the scope info has. -/
def nameOf (i : ScopeInfo) (v : ScopeVar) : Checked Word := do
  assert (v.slot < i.size)
  return i.nameOf v

theorem nameOf_eq (sound : i.Sound) {kind : VarKind} {v : ScopeVar}
    (delivered : v ∈ i.delivered kind) : nameOf i v = .ok (i.nameOf v) := by
  have inWord : i.size ≤ Word.top := Nat.le_trans sound.size_le (by decide)
  rw [ScopeInfo.delivered_eq inWord] at delivered
  rw [nameOf, assert_eq (decide_eq_true (ScopeInfo.slot_of_mem_present delivered).2.2)]
  rfl

end scopeInfos

/-! ## Cursors -/

section cursors

variable {c : VarCursor}

def step? (c : VarCursor) : Checked (Option (Except DecodeError ScopeVar × VarCursor)) :=
  if c.count ≤ c.next then .ok none
  else
    let slot := Word.capped (c.start + c.next)
    if c.info.size ≤ slot then
      .ok (some (.error (.corruptArray c.info.address .namesMissing), { c with next := c.count }))
    else do
      let next ← add c.next 1
      return some (.ok { kind := c.kind, ordinal := c.next, slot }, { c with next })

theorem step?_eq (sound : c.Sound) : step? c = .ok c.step? := by
  unfold step? VarCursor.step?
  split
  · rfl
  · dsimp only
    split
    · rfl
    · rename_i present
      have inWord : c.next + 1 ≤ Word.top := by
        have := sound.size_le
        unfold Word.capped at present
        omega
      rw [add_eq inWord]
      rfl

theorem sound_of_step? (sound : c.Sound) {item : Except DecodeError ScopeVar} {next : VarCursor}
    (stepped : c.step? = some (item, next)) : next.Sound := by
  unfold VarCursor.step? at stepped
  split at stepped
  · cases stepped
  · dsimp only at stepped
    split at stepped
    · cases stepped
      exact ⟨sound.size_le, Nat.le_refl _⟩
    · cases stepped
      exact ⟨sound.size_le, by dsimp only; omega⟩

def bound (c : VarCursor) : Checked Nat := sub c.count c.next

theorem bound_eq (sound : c.Sound) : bound c = .ok c.bound := sub_eq sound.next_le

def steps (c : VarCursor) : Nat → Checked (List (Option (Except DecodeError ScopeVar) × Nat))
  | 0 => .ok []
  | n + 1 => do
    match ← step? c with
    | some (item, next) => return (some item, ← bound next) :: (← steps next n)
    | none => return (none, ← bound c) :: (← steps c n)

theorem steps_eq (sound : c.Sound) (n : Nat) : steps c n = .ok (c.steps n) := by
  induction n generalizing c with
  | zero => rfl
  | succ n ih =>
    rw [steps, step?_eq sound, ok_bind, VarCursor.steps]
    cases stepped : c.step? with
    | none =>
      dsimp only
      rw [bound_eq sound, ok_bind, ih sound]
      rfl
    | some result =>
      have sound' := sound_of_step? sound stepped
      dsimp only
      rw [bound_eq sound', ok_bind, ih sound']
      rfl

def items (c : VarCursor) : (rounds : Nat) → Checked (List (Except DecodeError ScopeVar))
  | 0 => .error .endless
  | rounds + 1 => do
    match ← step? c with
    | some (item, next) => return item :: (← items next rounds)
    | none => return []

theorem items_eq (sound : c.Sound) {rounds : Nat} (enough : c.bound < rounds) :
    items c rounds = .ok c.items := by
  induction rounds generalizing c with
  | zero => omega
  | succ rounds ih =>
    rw [items, step?_eq sound, ok_bind]
    cases stepped : c.step? with
    | none =>
      rw [VarCursor.items_of_step?_eq_none stepped]
      rfl
    | some result =>
      have less := VarCursor.bound_lt_of_step? stepped
      have rest := ih (sound_of_step? sound stepped) (by omega)
      rw [VarCursor.items_of_step?_eq_some stepped]
      dsimp only
      rw [rest]
      rfl

/-- A visit to the variables of a kind. Every step is made, also those that a visit which breaks off
leaves out. -/
def visitVars {m : Type → Type} [Monad m] {β : Type} (i : ScopeInfo) (kind : VarKind)
    (visitor : ScopeVar → m (Flow β)) : Checked (m (Except DecodeError (Flow β))) := do
  let cursor ← vars i kind
  let items ← items cursor ((← bound cursor) + 1)
  return do
    let flow ← visit (fun item =>
      match item with
      | .ok v => do
        match ← visitor v with
        | .goOn => return .goOn
        | .broke value => return .broke (Except.ok (.broke value))
      | .error e => return .broke (Except.error e)) items
    match flow with
    | .goOn => return .ok .goOn
    | .broke result => return result

theorem visitVars_eq {m : Type → Type} [Monad m] {β : Type} {i : ScopeInfo} (sound : i.Sound)
    (kind : VarKind) (visitor : ScopeVar → m (Flow β)) :
    visitVars i kind visitor = .ok (i.visitVars kind visitor) := by
  have cursor := sound_vars sound kind
  rw [visitVars, vars_eq sound, ok_bind, bound_eq cursor, ok_bind,
    items_eq cursor (Nat.lt_succ_self _)]
  rfl

end cursors

/-! ## Closures -/

section closures

variable (s : Snapshot)

def loadFunction (w : Word) (policy : AllocationPolicy) : CheckedResult JSFunction := do
  if s.layout.types.function.isNone then
    throw (.missingConfiguration ⟨"types", "js_function"⟩)
  let (address, _) ← expectType s w "JSFunction" [s.layout.types.function]
  let shared ← readField s address ⟨"JSFunction", "shared"⟩
  return { address, shared, policy }

theorem loadFunction_eq (w : Word) (policy : AllocationPolicy) :
    loadFunction s w policy = .of (JSFunction.load s w policy) := by
  unfold loadFunction JSFunction.load
  split
  · rfl
  · dsimp only
    rw [expectType_eq]
    refine CheckedResult.of_bind fun (address, found) _ => ?_
    dsimp only
    rw [readField_eq]
    exact CheckedResult.of_bind fun shared _ => rfl

variable (f : JSFunction)

def functionContext (policy : AllocationPolicy) : CheckedLoading Context := do
  let w ← .ofResult (readField s f.address ⟨"JSFunction", "context"⟩)
  loadContext s w policy

theorem functionContext_eq (policy : AllocationPolicy) :
    functionContext s f policy = .of (f.context s policy) := by
  rw [functionContext, readField_eq]
  exact CheckedLoading.of_bind fun w _ _ _ => loadContext_eq s w policy

def scopeInfoWord : CheckedResult Word := do
  if (s.layout.offset? JSFunction.scopeInfoField).isNone then
    throw (.missingConfiguration JSFunction.scopeInfoField)
  readField s (← objectAddress s f.shared) JSFunction.scopeInfoField

theorem scopeInfoWord_eq :
    scopeInfoWord s f = .of (do
      if (s.layout.offset? JSFunction.scopeInfoField).isNone then
        throw (.missingConfiguration JSFunction.scopeInfoField)
      s.readField (← s.objectAddress f.shared) JSFunction.scopeInfoField) := by
  unfold scopeInfoWord
  split
  · rfl
  · dsimp only
    rw [objectAddress_eq]
    exact CheckedResult.of_bind fun address _ => readField_eq s address _

def functionScopeInfo (policy : AllocationPolicy) : CheckedLoading ScopeInfo := do
  let w ← .ofResult (scopeInfoWord s f)
  loadScopeInfo s w policy

theorem functionScopeInfo_eq (policy : AllocationPolicy) :
    functionScopeInfo s f policy = .of (f.scopeInfo s policy) := by
  rw [functionScopeInfo, scopeInfoWord_eq]
  exact CheckedLoading.of_bind fun w _ _ _ => loadScopeInfo_eq s w policy

def describe (policy : AllocationPolicy) : CheckedResult FunctionInfo := do
  let shared ← objectAddress s f.shared
  let token ← readInteger s shared ⟨"SharedFunctionInfo", "function_token_position"⟩
  let name ← readField s shared ⟨"SharedFunctionInfo", "name"⟩
  let script ← readField s shared ⟨"SharedFunctionInfo", "script"⟩
  let scriptAddress ← objectAddress s script
  let scriptName ← readField s scriptAddress ⟨"Script", "name"⟩
  let lineEnds ← readField s scriptAddress ⟨"Script", "line_ends"⟩
  let inferredName : Except DecodeError Word ←
    liftM (readField s shared JSFunction.inferredNameField).run
  let tokenPosition ← (encode s.layout.tags token : Checked _)
  let inferredName := inferredName.toOption
  return { script, name, inferredName, scriptName, lineEnds, tokenPosition, policy }

theorem describe_eq (policy : AllocationPolicy) :
    describe s f policy = .of (f.describe s policy) := by
  unfold describe
  simp only [objectAddress_eq, readInteger_eq, readField_eq, encode_eq]
  exact CheckedResult.of_bind fun shared _ => CheckedResult.of_bind fun token _ =>
    CheckedResult.of_bind fun name _ => CheckedResult.of_bind fun script _ =>
    CheckedResult.of_bind fun scriptAddress _ => CheckedResult.of_bind fun scriptName _ =>
    CheckedResult.of_bind fun lineEnds _ => rfl

def contextScopeInfo (c : Context) (policy : AllocationPolicy) : CheckedLoading ScopeInfo := do
  let closure ← .ofResult (contextSlot c c.header.closure : Checked _)
  let f ← .ofResult (loadFunction s closure policy)
  functionScopeInfo s f policy

theorem contextScopeInfo_eq {c : Context} (sound : c.Sound) (policy : AllocationPolicy) :
    contextScopeInfo s c policy = .of (c.scopeInfo s policy) := by
  have inside : c.header.closure < c.size :=
    sound.labelled_lt ("closure function", c.header.closure) List.mem_cons_self
  rw [contextScopeInfo, contextSlot_eq inside, CheckedResult.lift_ok,
    CheckedLoading.ofResult_ok_bind, loadFunction_eq]
  exact CheckedLoading.of_bind fun f _ _ _ => functionScopeInfo_eq s f policy

end closures

end Checked

end Postmortem
