import Postmortem.Proofs.Accounting
import Postmortem.Session.Command

/-! # What commands do to a session

`Session.Effect` lists all that a command can do to the objects and the budget of a session:
nothing, keeping one more object, or dropping one. An object that is kept was loaded from the
snapshot (`Object.Loaded`), and what it holds has been booked. A command that fails leaves the
session as it is (`Session.follows_run`). Every invariant of sessions is derived from these
cases. -/

namespace Postmortem

/-- The object was loaded from the snapshot. -/
inductive Object.Loaded (s : Snapshot) : Object → Prop where
  | reservation (size : UInt64) : Loaded s (.reservation size)
  | slots {address : Word} {count : Nat} {policy : AllocationPolicy} {b b' : Budget} {slots : Slots}
      (loaded : (s.readSlots address count policy).runFrom b = (.ok slots, b')) :
      Loaded s (.slots slots)
  | fixedArray {w : Word} {policy : AllocationPolicy} {b b' : Budget} {a : FixedArray}
      (loaded : (FixedArray.load s w policy).runFrom b = (.ok a, b')) : Loaded s (.fixedArray a)
  | array {w : Word} {policy : AllocationPolicy} {b b' : Budget} {a : JSArray}
      (loaded : (JSArray.load s w policy).runFrom b = (.ok a, b')) : Loaded s (.array a)
  | context {w : Word} {policy : AllocationPolicy} {b b' : Budget} {c : Context}
      (loaded : (Context.load s w policy).runFrom b = (.ok c, b')) : Loaded s (.context c)
  | scopeInfo {w : Word} {policy : AllocationPolicy} {b b' : Budget} {i : ScopeInfo}
      (loaded : (ScopeInfo.load s w policy).runFrom b = (.ok i, b')) : Loaded s (.scopeInfo i)
  | function {w : Word} {policy : AllocationPolicy} {f : JSFunction}
      (loaded : JSFunction.load s w policy = .ok f) : Loaded s (.function f)
  | functionInfo {f : JSFunction} {policy : AllocationPolicy} {i : FunctionInfo}
      (described : f.describe s policy = .ok i) : Loaded s (.functionInfo i)
  | string {w : Word} {policy : AllocationPolicy} {h : HeapString}
      (loaded : HeapString.load s w policy = .ok h) : Loaded s (.string h)

/-- The name that a command keeps an object under. -/
def Command.keepsUnder {α : Type} : Command α → Option String
  | .reserve _ _ name | .readSlots _ _ _ name | .loadFixedArray _ _ name | .loadArray _ _ name
  | .loadContext _ _ name | .loadScopeInfo _ _ name | .loadFunction _ _ name
  | .loadString _ _ name | .functionContext _ _ name | .functionScopeInfo _ _ name
  | .contextScopeInfo _ _ name | .describe _ _ name => name
  | _ => none

namespace Session

/-- What a successful command does to the objects and the budget: the name is the one that it keeps
an object under. -/
inductive Effect (s : Session) : Option String → Session → Prop where
  | nothing (buffers : NameMap TextBuffer) : Effect s none { s with buffers }
  | kept {object : Object} (loaded : object.Loaded s.snapshot) (name : Option String) :
      Effect s name ({ s with budget := s.budget.booking object.booked }.keep name object)
  | dropped {name : String} {object : Object} (found : s.objects.get? name = some object) :
      Effect s none
        { s with budget := s.budget.release object.booked, objects := s.objects.erase name }

/-- A failure leaves the session as it is, and a success has an effect. -/
def Follows (s : Session) (name : Option String) {α : Type}
    (after : Except CommandError α × Session) : Prop :=
  (∃ e, after = (.error e, s)) ∨ ∃ value s', after = (.ok value, s') ∧ s.Effect name s'

variable {s : Session} {α β : Type}

/-! ## Answers -/

theorem follows_answer (result : Except DecodeError α) : s.Follows none (s.answer result) := by
  cases result with
  | ok value => exact .inr ⟨value, s, rfl, .nothing s.buffers⟩
  | error e => exact .inl ⟨.decoding e, rfl⟩

theorem follows_withObject {pick : Object → Option α} {name : String} {keep : Option String}
    {next : α → Except CommandError β × Session} (rest : ∀ a, s.Follows keep (next a)) :
    s.Follows keep (s.withObject pick name next) := by
  unfold withObject
  split
  · exact rest _
  · exact .inl ⟨.unknownName, rfl⟩

theorem follows_answerLoad {name : Option String} {object : α → Object} {body : Loading α}
    {exact : α → UInt64 → Prop}
    (accounts : body.Accounts 0 exact)
    (booked : ∀ a held, exact a held → held = (object a).booked)
    (loaded : ∀ {b b' a}, body.runFrom b = (.ok a, b') → (object a).Loaded s.snapshot) :
    s.Follows name (s.answerLoad name object body) := by
  unfold answerLoad load
  rcases ran : body.runFrom s.budget with ⟨e | a, b⟩
  · refine .inl ⟨.decoding e, ?_⟩
    rw [accounts.of_eq_error ran]
    rfl
  · obtain ⟨held, rfl, kept⟩ := accounts.of_eq_ok ran
    rw [booked a held kept]
    exact .inr ⟨a, _, rfl, .kept (loaded ran) name⟩

theorem follows_answerWrite {target : WriteTarget} {verbose : Bool}
    {body : Transcript → Except DecodeError Unit × Transcript}
    (kept : ∀ t, (body t).2.budget = t.budget) :
    s.Follows none (s.answerWrite target verbose body) := by
  unfold answerWrite
  cases target with
  | fresh capacity =>
    refine .inr ⟨_, _, rfl, ?_⟩
    rw [kept]
    exact .nothing s.buffers
  | kept name =>
    dsimp only
    split
    · exact .inl ⟨.unknownName, rfl⟩
    · refine .inr ⟨_, _, rfl, ?_⟩
      rw [kept]
      exact .nothing _

/-! ## Commands -/

/-- **A command that fails leaves the session as it is, and one that succeeds has one of the
effects.** -/
theorem follows_run (s : Session) {α : Type} (c : Command α) :
    s.Follows c.keepsUnder (s.run c) := by
  cases c with
  | classify | objectAddress | readBytes | readWord | fieldAddress | readField | readSmallInt
  | readInteger | typeByte | expectType => exact follows_answer _
  | slot | visitElements | «variable» | visitStatic | visitDynamic | visitVars | stepVars =>
    exact follows_withObject fun _ => follows_answer _
  | valueOf =>
    exact follows_withObject fun _ => follows_withObject fun _ => follows_answer _
  | reserve size policy name =>
    have accounts : Loading.Accounts 0 (do Loading.book size policy; return size)
        fun value held => held = value :=
      .bind (.book size policy) fun _ _ booked => .pure booked
    exact follows_answerLoad accounts (fun _ _ exact => exact) fun _ => .reservation _
  | readSlots address count policy name =>
    exact follows_answerLoad (s.snapshot.accounts_readSlots address count policy)
      (fun _ _ exact => exact.1) .slots
  | loadFixedArray w policy name =>
    exact follows_answerLoad (FixedArray.accounts_load s.snapshot w policy)
      (fun _ _ exact => exact.1) .fixedArray
  | loadArray w policy name =>
    exact follows_answerLoad (JSArray.accounts_load s.snapshot w policy)
      (fun _ _ exact => exact.1) .array
  | loadContext w policy name =>
    exact follows_answerLoad (Context.accounts_load s.snapshot policy w)
      (fun _ _ exact => exact.1) .context
  | loadScopeInfo w policy name =>
    exact follows_answerLoad (ScopeInfo.accounts_load s.snapshot w policy)
      (fun _ _ exact => exact.1) .scopeInfo
  | loadFunction w policy name =>
    exact follows_answerLoad (.ofExcept _) (fun _ _ idle => idle)
      fun ran => .function (congrArg Prod.fst ran)
  | loadString w policy name =>
    exact follows_answerLoad (.ofExcept _) (fun _ _ idle => idle)
      fun ran => .string (congrArg Prod.fst ran)
  | functionContext function policy name =>
    refine follows_withObject fun f => follows_answerLoad (f.accounts_context s.snapshot policy)
      (fun _ _ exact => exact.1) fun ran => ?_
    obtain ⟨w, -, ran⟩ := Loading.exists_of_runFrom_ofExcept_bind ran
    exact .context ran
  | functionScopeInfo function policy name =>
    refine follows_withObject fun f => follows_answerLoad (f.accounts_scopeInfo s.snapshot policy)
      (fun _ _ exact => exact.1) fun ran => ?_
    obtain ⟨w, -, ran⟩ := Loading.exists_of_runFrom_ofExcept_bind ran
    exact .scopeInfo ran
  | contextScopeInfo context policy name =>
    refine follows_withObject fun c => follows_answerLoad (c.accounts_scopeInfo s.snapshot policy)
      (fun _ _ exact => exact.1) fun ran => ?_
    obtain ⟨f, -, ran⟩ := Loading.exists_of_runFrom_ofExcept_bind ran
    obtain ⟨w, -, ran⟩ := Loading.exists_of_runFrom_ofExcept_bind ran
    exact .scopeInfo ran
  | describe function policy name =>
    exact follows_withObject fun f => follows_answerLoad (.ofExcept _) (fun _ _ idle => idle)
      fun ran => .functionInfo (congrArg Prod.fst ran)
  | drop name =>
    simp only [run, drop?]
    cases found : s.objects.get? name with
    | none => exact .inl ⟨.unknownName, rfl⟩
    | some object => exact .inr ⟨object.booked, _, rfl, .dropped found⟩
  | write string mode options target =>
    exact follows_withObject fun h => follows_answerWrite (h.budget_write s.snapshot mode options)
  | writeString w policy mode options target =>
    exact follows_answerWrite (budget_writeString s.snapshot w policy mode options)
  | toText string capacity mode =>
    refine follows_withObject fun h => ?_
    dsimp only
    rw [h.budget_toText s.snapshot mode capacity s.budget]
    exact follows_answer _
  | writeName info mode target =>
    exact follows_withObject fun i => follows_answerWrite (i.budget_writeName s.snapshot mode)
  | writeScriptPath info mode target =>
    exact follows_withObject fun i => follows_answerWrite (i.budget_writeScriptPath s.snapshot mode)
  | newBuffer name capacity => exact .inr ⟨(), _, rfl, .nothing _⟩
  | editBuffer name edit =>
    simp only [run]
    split
    · exact .inl ⟨.unknownName, rfl⟩
    · exact .inr ⟨_, _, rfl, .nothing _⟩

/-! ## Runs -/

/-- The session after commands are carried out one after the other, whatever their answers. -/
def runAll (s : Session) : List ((α : Type) × Command α) → Session
  | [] => s
  | ⟨_, c⟩ :: rest => (s.run c).2.runAll rest

/-- What every effect preserves holds after any number of commands. -/
theorem runAll_induction (invariant : Session → Prop) {s : Session} (start : invariant s)
    (step : ∀ {s s' : Session} {name}, invariant s → s.Effect name s' → invariant s')
    (commands : List ((α : Type) × Command α)) : invariant (s.runAll commands) := by
  induction commands generalizing s with
  | nil => exact start
  | cons c rest ih =>
    refine ih ?_
    rcases s.follows_run c.2 with ⟨e, failed⟩ | ⟨value, s', ended, effect⟩
    · rw [failed]
      exact start
    · rw [ended]
      exact step start effect

/-- Every object that the session keeps was loaded from the snapshot. -/
def Sound (s : Session) : Prop :=
  ∀ name object, s.objects.get? name = some object → object.Loaded s.snapshot

theorem Effect.sound {s s' : Session} {name : Option String} (effect : s.Effect name s')
    (sound : s.Sound) : s'.Sound := by
  cases effect with
  | nothing buffers => exact sound
  | kept loaded name =>
    cases name with
    | none => exact sound
    | some name =>
      intro other object found
      rw [keep, NameMap.get?_insert] at found
      split at found
      · cases found
        exact loaded
      · exact sound other object found
  | dropped found =>
    intro other object found
    rw [NameMap.get?_erase] at found
    split at found
    · cases found
    · exact sound other object found

theorem sound_runAll {s : Session} (sound : s.Sound) (commands : List ((α : Type) × Command α)) :
    (s.runAll commands).Sound :=
  runAll_induction Sound sound (fun sound effect => effect.sound sound) commands

end Session

end Postmortem
