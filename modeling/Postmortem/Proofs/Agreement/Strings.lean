import Postmortem.Proofs.Agreement.Objects
import Postmortem.Proofs.HeapString.Script

/-! # Writings that agree

Two writings of the same string agree unless the first gives up. It is enough to compare the
scripts: `ScriptsAgree` says that they do the same in every buffer, or the first ends with an error
of the kind. It holds along the recursion of `HeapString.rangeScript`
(`HeapString.scriptsAgree_rangeScript`), for a failure in one place of a script ends all of it; what
is written in place of external characters leaves a failure a failure.

The strings of the first writing may remember another policy than those of the second; then so do
the strings in its trace. -/

namespace Postmortem

/-! ## Policies in traces -/

/-- The visit to the string with another policy. -/
def Visit.mapPolicy (g : AllocationPolicy → AllocationPolicy) (v : Visit) : Visit :=
  { v with string := v.string.mapPolicy g }

/-- The event at the string with another policy. -/
def TraceEvent.mapPolicy (g : AllocationPolicy → AllocationPolicy) : TraceEvent → TraceEvent
  | .visited visit => .visited (visit.mapPolicy g)
  | .read string address length => .read (string.mapPolicy g) address length

/-- The action at the string with another policy. -/
def Action.mapPolicy (g : AllocationPolicy → AllocationPolicy) : Action → Action
  | .log event => .log (event.mapPolicy g)
  | action => action

/-- The outcome for strings with another policy. -/
def Outcome.mapPolicy (g : AllocationPolicy → AllocationPolicy) (o : Outcome) : Outcome :=
  { o with events := o.events.map (TraceEvent.mapPolicy g) }

variable {kind : DecodeError → Prop} {g : AllocationPolicy → AllocationPolicy}

@[simp] theorem Outcome.ending_mapPolicy (o : Outcome) : (o.mapPolicy g).ending = o.ending := rfl

@[simp] theorem Outcome.text_mapPolicy (o : Outcome) : (o.mapPolicy g).text = o.text := rfl

theorem Outcome.excused_mapPolicy (o : Outcome) (room : Nat) :
    (o.mapPolicy g).excused room = (o.excused room).mapPolicy g := by
  obtain ⟨ending, text, events⟩ := o
  cases ending with
  | finished | full => rfl
  | failed e => cases e <;> rfl

theorem Outcome.mapPolicy_append (o more : Outcome) :
    (o.append more).mapPolicy g = (o.mapPolicy g).append (more.mapPolicy g) := by
  by_cases done : o.ending = .finished
  · simp [append, mapPolicy, done]
  · simp [append, mapPolicy, done]

theorem Action.perform_mapPolicy (mode : EscapeMode) (room : Nat) (action : Action) :
    (action.mapPolicy g).perform mode room = (action.perform mode room).mapPolicy g := by
  cases action with
  | write unit =>
    simp only [mapPolicy, perform]
    split <;> rfl
  | gate | log | placeholder | fail => rfl

theorem play_mapPolicy (mode : EscapeMode) (room : Nat) (script : List Action) :
    play mode room (script.map (Action.mapPolicy g)) = (play mode room script).mapPolicy g := by
  induction script generalizing room with
  | nil => rfl
  | cons action script ih =>
    rw [List.map_cons, play, play, Outcome.mapPolicy_append, ← ih, Action.perform_mapPolicy]
    rfl

/-! ## Scripts that agree -/

theorem orFail_map {α β : Type} (f : α → β) (value : Except DecodeError α)
    (script : β → List Action) :
    orFail (value.map f) script = orFail value fun a => script (f a) := by
  cases value <;> rfl

theorem orFail_const {α : Type} (value : Except DecodeError α) (script : List Action) :
    (orFail value fun _ => script) = orFail (value.map fun _ => ()) fun _ => script := by
  cases value <;> rfl

/-- In every buffer the first script does what the second does, unless it ends with an error of the
given kind. -/
def ScriptsAgree (kind : DecodeError → Prop) (g : AllocationPolicy → AllocationPolicy)
    (script script' : List Action) : Prop :=
  ∀ mode room, play mode room script = (play mode room script').mapPolicy g ∨
    ∃ e, kind e ∧ (play mode room script).ending = .failed e

namespace ScriptsAgree

variable {script script' more more' : List Action}

theorem map (script : List Action) :
    ScriptsAgree kind g (script.map (Action.mapPolicy g)) script :=
  fun mode room => .inl (play_mapPolicy mode room script)

theorem fail {e : DecodeError} (h : kind e) (script' : List Action) :
    ScriptsAgree kind g [.fail e] script' :=
  fun _ _ => .inr ⟨e, h, rfl⟩

theorem append (first : ScriptsAgree kind g script script')
    (rest : ScriptsAgree kind g more more') :
    ScriptsAgree kind g (script ++ more) (script' ++ more') := by
  intro mode room
  rw [play_append, play_append]
  rcases first mode room with same | ⟨e, h, failed⟩
  · rw [same, Outcome.mapPolicy_append, Outcome.text_mapPolicy]
    generalize play mode room script' = o
    by_cases done : (o.mapPolicy g).ending = .finished
    · rcases rest mode (room - utf8Length o.text) with same | ⟨e, h, failed⟩
      · exact .inl (congrArg _ same)
      · refine .inr ⟨e, h, ?_⟩
        rw [Outcome.append_of_finished done]
        exact failed
    · rw [Outcome.append_of_not_finished done, Outcome.append_of_not_finished done]
      exact .inl rfl
  · refine .inr ⟨e, h, ?_⟩
    rw [Outcome.append_of_not_finished (by simp [failed])]
    exact failed

theorem visit (v : Visit) (rest : ScriptsAgree kind g script script') :
    ScriptsAgree kind g (.gate :: .log (.visited (v.mapPolicy g)) :: script)
      (.gate :: .log (.visited v) :: script') :=
  append (map [.gate, .log (.visited v)]) rest

theorem when {p : Prop} [Decidable p] (h : ScriptsAgree kind g script script') :
    ScriptsAgree kind g (if p then script else []) (if p then script' else []) := by
  split
  · exact h
  · exact map []

theorem orFail {α : Type} {value value' : Except DecodeError α} {script script' : α → List Action}
    (agrees : AgreesUnless kind value value')
    (rest : ∀ a, value' = .ok a → ScriptsAgree kind g (script a) (script' a)) :
    ScriptsAgree kind g (orFail value script) (Postmortem.orFail value' script') := by
  rcases agrees with rfl | ⟨e, h, rfl⟩
  · cases value with
    | ok a => exact rest a rfl
    | error e => exact map [.fail e]
  · exact fail h _

/-- An excused failure is a failure all the same. -/
theorem excuse (h : ScriptsAgree kind g script script') :
    ScriptsAgree kind g (script.flatMap excuse) (script'.flatMap Postmortem.excuse) := by
  intro mode room
  rw [play_excuse, play_excuse]
  rcases h mode room with same | ⟨e, h, failed⟩
  · rw [same, Outcome.excused_mapPolicy]
    exact .inl rfl
  · exact .inr ⟨e, h, (Outcome.ending_excused _ _).trans failed⟩

end ScriptsAgree

/-! ## The script of a string -/

namespace HeapString

@[simp] theorem chunkLength_mapPolicy (g : AllocationPolicy → AllocationPolicy) (h : HeapString) :
    (h.mapPolicy g).chunkLength = h.chunkLength := rfl

variable {like : Budget → Budget → Prop} {policy : AllocationPolicy} {s s' : Snapshot}
variable (alike : s.ReadsAlike kind s')

include alike

/-- Characters are read without regard to policies and offsets. -/
theorem chunkScript_mapPolicy (h : HeapString) (base : Word) (start done remaining : Nat) :
    (h.mapPolicy g).chunkScript s base start done remaining =
      (h.chunkScript s' base start done remaining).map (Action.mapPolicy g) := by
  fun_induction h.chunkScript s' base start done remaining with
  | case1 done => rw [chunkScript, if_pos rfl, List.map_nil]
  | case2 done remaining more width overflow =>
    rw [chunkScript, if_neg more]
    simp only [width] at overflow
    simp only [encoding_mapPolicy, overflow]
    rfl
  | case3 done remaining more count width address found ih =>
    rw [chunkScript, if_neg more]
    simp only [width] at found
    simp only [encoding_mapPolicy, chunkLength_mapPolicy, isExternal_mapPolicy, address_mapPolicy,
      found, alike.readBytes]
    refine congrArg (List.cons _) ?_
    cases s'.readBytes address (count * width) with
    | error e => rfl
    | ok bytes =>
      by_cases foreign : h.isExternal ∧ done = 0 ∧ 0x80 ≤ bytes.headD 0
      · simp only [orFail, foreign]
        rfl
      · simp only [orFail, foreign, if_false, List.map_append, List.map_map, ← ih]
        rfl

variable (books : BooksAlike kind like (g policy) policy)

include books

theorem scriptsAgree_charsScript {b b' : Budget} (same : like b b') {h : HeapString}
    (remembered : h.policy = policy) (base : Word) (start length : Nat) :
    ScriptsAgree kind g ((h.mapPolicy g).charsScript s b base start length)
      (h.charsScript s' b' base start length) := by
  subst remembered
  rw [charsScript, charsScript, orFail_const, orFail_const (b'.book _ _)]
  refine .orFail (books.budgetBook same _) fun _ _ => ?_
  rw [chunkScript_mapPolicy alike]
  exact .map _

omit books in
/-- A component remembers the policy that the string around it does. -/
theorem scriptsAgree_load (w : Word) {script script' : HeapString → List Action}
    (rest : ∀ h, h.policy = policy → ScriptsAgree kind g (script (h.mapPolicy g)) (script' h)) :
    ScriptsAgree kind g (orFail (load s w (g policy)) script)
      (orFail (load s' w policy) script') := by
  rw [load_mapPolicy, orFail_map]
  exact .orFail (agrees_load alike w policy) fun h loaded => rest h (policy_of_load loaded)

/-- **The scripts of a range agree.** -/
theorem scriptsAgree_rangeScript {b b' : Budget} (same : like b b') (levels : Nat) {h : HeapString}
    (remembered : h.policy = policy) (depth start length : Nat) :
    ScriptsAgree kind g (rangeScript s b levels (h.mapPolicy g) depth start length)
      (rangeScript s' b' levels h depth start length) := by
  induction levels generalizing h depth start length with
  | zero => exact .map [.placeholder .tooDeep, .fail (.depthExceeded depth)]
  | succ levels ih =>
    rw [rangeScript, rangeScript]
    refine .visit { string := h, depth, start := min start h.length, length := _ } ?_
    have chars (base : Word) := h.scriptsAgree_charsScript alike books same remembered base
    obtain ⟨address, size, typeByte, encoding, representation, own⟩ := h
    obtain rfl : own = policy := remembered
    cases representation with
    | sequential => exact .orFail (alike.fieldAddress _ _) fun base _ => chars base _ _
    | concatenated first second =>
      refine scriptsAgree_load alike first fun first remembered => .append (.when ?_) (.when ?_)
      · exact ih remembered _ _ _
      · exact scriptsAgree_load alike second fun second remembered => ih remembered _ _ _
    | sliced parent offset =>
      exact scriptsAgree_load alike parent fun parent remembered => ih remembered _ _ _
    | external resource data =>
      cases data with
      | none => exact .map [.placeholder .twoByteExternal]
      | some base => exact .excuse (chars base _ _)

end HeapString

/-! ## Writing -/

/-- Transcripts that show the same, apart from the policies that strings remember. -/
structure Transcript.Mirrors (g : AllocationPolicy → AllocationPolicy) (t t' : Transcript) :
    Prop where
  buffer : t.buffer = t'.buffer
  trace : t.trace = t'.trace.map (TraceEvent.mapPolicy g)

theorem Transcript.Mirrors.begun (buffer : TextBuffer) (b b' : Budget) :
    Mirrors g { buffer, budget := b } { buffer, budget := b' } :=
  ⟨rfl, rfl⟩

/-- The buffers of both may be changed in the same way. -/
theorem Transcript.Mirrors.edit {t t' : Transcript} (mirrors : t.Mirrors g t')
    (f : TextBuffer → TextBuffer) :
    Mirrors g { t with buffer := f t.buffer } { t' with buffer := f t'.buffer } :=
  ⟨congrArg f mirrors.buffer, mirrors.trace⟩

/-- The writings end with the same result and show the same, unless the first fails with an error of
the given kind. -/
def WritingsAgree (kind : DecodeError → Prop) (g : AllocationPolicy → AllocationPolicy)
    (ended ended' : Except DecodeError Unit × Transcript) : Prop :=
  (ended.1 = ended'.1 ∧ ended.2.Mirrors g ended'.2) ∨ ∃ e, kind e ∧ ended.1 = .error e

theorem ScriptsAgree.run {script script' : List Action} (h : ScriptsAgree kind g script script')
    {t t' : Transcript} (mirrors : t.Mirrors g t') (mode : EscapeMode) :
    ((run mode script t).1 = (Postmortem.run mode script' t').1 ∧
      (Postmortem.run mode script t).2.Mirrors g (Postmortem.run mode script' t').2) ∨
    ∃ e, kind e ∧ (Postmortem.run mode script t).1 = .failed e := by
  have same := h mode t.buffer.left
  rw [Postmortem.run, Postmortem.run, ← mirrors.buffer]
  rcases same with same | failed
  · rw [same]
    refine .inl ⟨rfl, ?_, ?_⟩
    · simp [Outcome.applyTo, mirrors.buffer]
    · simp [Outcome.applyTo, Outcome.mapPolicy, mirrors.trace]
  · exact .inr failed

namespace HeapString

variable {like : Budget → Budget → Prop} {policy : AllocationPolicy} {s s' : Snapshot}
variable (alike : s.ReadsAlike kind s') (books : BooksAlike kind like (g policy) policy)
variable {t t' : Transcript} (mirrors : t.Mirrors g t') (budgets : like t.budget t'.budget)

include alike books mirrors budgets

theorem writeAll_agrees {h : HeapString} (remembered : h.policy = policy) (mode : EscapeMode)
    (depth : Nat) :
    WritingsAgree kind g
      (((h.mapPolicy g).writeAll s mode depth t).1.result,
        ((h.mapPolicy g).writeAll s mode depth t).2)
      ((h.writeAll s' mode depth t').1.result, (h.writeAll s' mode depth t').2) := by
  rw [writeAll_eq_run, writeAll_eq_run]
  have agree := scriptsAgree_rangeScript alike books budgets (maxDepth + 1 - depth) remembered depth
    0 h.length
  rcases agree.run mirrors mode with ⟨ended, shown⟩ | ⟨e, given, failed⟩
  · exact .inl ⟨congrArg Ending.result ended, shown⟩
  · exact .inr ⟨e, given, Ending.result_eq_error.2 failed⟩

theorem write_agrees {h : HeapString} (remembered : h.policy = policy) (mode : EscapeMode)
    (o : WriteOptions) :
    WritingsAgree kind g ((h.mapPolicy g).write s mode o t) (h.write s' mode o t') := by
  rw [write, write]
  split
  · exact .inl ⟨rfl, mirrors.edit (·.pushText mode _)⟩
  · split
    · have opened := mirrors.edit fun b => (b.pushUnit mode 0x22).reserve 1
      rcases writeAll_agrees alike books opened budgets remembered mode o.depth with
        ⟨ended, shown⟩ | failed
      · exact .inl ⟨ended, shown.edit fun b => (b.reserve (-1)).pushUnit mode 0x22⟩
      · exact .inr failed
    · exact writeAll_agrees alike books mirrors budgets remembered mode o.depth

end HeapString

theorem HeapString.result_toText (s : Snapshot) (mode : EscapeMode) (h : HeapString)
    (capacity : Nat) (budget : Budget) :
    (h.toText s mode capacity budget).1 =
      let ended := h.write s mode {} { buffer := .ofCapacity capacity, budget }
      ended.1.map fun _ => ended.2.buffer.text := by
  rw [toText]
  rcases h.write s mode {} _ with ⟨ended | ended, t⟩ <;> rfl

section

variable {like : Budget → Budget → Prop} {policy : AllocationPolicy} {s s' : Snapshot}
variable (alike : s.ReadsAlike kind s') (books : BooksAlike kind like (g policy) policy)

include alike books

theorem HeapString.toText_agrees {b b' : Budget} (same : like b b') {h : HeapString}
    (remembered : h.policy = policy) (mode : EscapeMode) (capacity : Nat) :
    AgreesUnless kind ((h.mapPolicy g).toText s mode capacity b).1
      (h.toText s' mode capacity b').1 := by
  have begun := Transcript.Mirrors.begun (g := g) (.ofCapacity capacity) b b'
  rw [result_toText, result_toText]
  dsimp only
  rcases write_agrees alike books begun same remembered mode {} with
    ⟨ended, shown⟩ | ⟨e, given, failed⟩
  · rw [ended, shown.buffer]
    exact .refl _
  · rw [failed]
    exact .of_kind given _

variable {t t' : Transcript} (mirrors : t.Mirrors g t') (budgets : like t.budget t'.budget)

include mirrors budgets

theorem writeString_agrees (w : Word) (mode : EscapeMode) (o : WriteOptions) :
    WritingsAgree kind g (writeString s w (g policy) mode o t)
      (writeString s' w policy mode o t') := by
  rw [writeString, writeString, HeapString.load_mapPolicy]
  rcases HeapString.agrees_load alike w policy with same | ⟨e, given, failed⟩
  · rw [same]
    cases loaded : HeapString.load s' w policy with
    | ok h =>
      exact HeapString.write_agrees alike books mirrors budgets (HeapString.policy_of_load loaded)
        mode o
    | error e => exact .inl ⟨rfl, mirrors⟩
  · rw [failed]
    exact .inr ⟨e, given, rfl⟩

end

/-! ## Names of functions -/

namespace FunctionInfo

theorem nameString_mapPolicy (s : Snapshot) (i : FunctionInfo) :
    (i.mapPolicy g).nameString s = (i.nameString s).map (HeapString.mapPolicy g) := by
  obtain ⟨script, name, inferredName, scriptName, lineEnds, tokenPosition, policy⟩ := i
  simp only [nameString, mapPolicy, HeapString.load_mapPolicy, map_bind, map_then]
  refine bind_congr fun name => ?_
  cases inferredName with
  | none => rfl
  | some inferred =>
    simp only [HeapString.length_mapPolicy, apply_ite (Except.map (HeapString.mapPolicy g))]
    rfl

theorem policy_of_nameString {s : Snapshot} {i : FunctionInfo} {h : HeapString}
    (loaded : i.nameString s = .ok h) : h.policy = i.policy := by
  obtain ⟨name, declared, loaded⟩ := exists_of_bind_eq_ok loaded
  have remembered := HeapString.policy_of_load declared
  split at loaded
  · split at loaded
    · exact HeapString.policy_of_load loaded
    · cases loaded
      exact remembered
  · cases loaded
    exact remembered

variable {like : Budget → Budget → Prop} {policy : AllocationPolicy} {s s' : Snapshot}
variable (alike : s.ReadsAlike kind s')

include alike

theorem agrees_nameString (i : FunctionInfo) :
    AgreesUnless kind (i.nameString s) (i.nameString s') := by
  refine .bind (HeapString.agrees_load alike i.name i.policy) fun name => ?_
  cases i.inferredName with
  | none => exact .refl _
  | some inferred =>
    dsimp only
    split
    · exact HeapString.agrees_load alike inferred i.policy
    · exact .refl _

variable (books : BooksAlike kind like (g policy) policy)
variable {t t' : Transcript} (mirrors : t.Mirrors g t') (budgets : like t.budget t'.budget)

include books mirrors budgets

theorem writeLoaded_agrees {loaded loaded' : Except DecodeError HeapString}
    (agrees : AgreesUnless kind loaded loaded')
    (remembered : ∀ h, loaded' = .ok h → h.policy = policy) (mode : EscapeMode) :
    WritingsAgree kind g (writeLoaded s mode (loaded.map (HeapString.mapPolicy g)) t)
      (writeLoaded s' mode loaded' t') := by
  rcases agrees with rfl | ⟨e, given, rfl⟩
  · cases loaded with
    | ok h => exact h.write_agrees alike books mirrors budgets (remembered h rfl) mode {}
    | error e => exact .inl ⟨rfl, mirrors⟩
  · exact .inr ⟨e, given, rfl⟩

theorem writeName_agrees {i : FunctionInfo} (remembered : i.policy = policy) (mode : EscapeMode) :
    WritingsAgree kind g ((i.mapPolicy g).writeName s mode t) (i.writeName s' mode t') := by
  rw [writeName, writeName, nameString_mapPolicy]
  exact writeLoaded_agrees alike books mirrors budgets (agrees_nameString alike i)
    (fun h loaded => (policy_of_nameString loaded).trans remembered) mode

theorem writeScriptPath_agrees {i : FunctionInfo} (remembered : i.policy = policy)
    (mode : EscapeMode) :
    WritingsAgree kind g ((i.mapPolicy g).writeScriptPath s mode t)
      (i.writeScriptPath s' mode t') := by
  subst remembered
  rw [writeScriptPath, writeScriptPath]
  show WritingsAgree kind g (writeLoaded s mode (HeapString.load s i.scriptName (g i.policy)) t) _
  rw [HeapString.load_mapPolicy]
  exact writeLoaded_agrees alike books mirrors budgets
    (HeapString.agrees_load alike i.scriptName i.policy)
    (fun h loaded => HeapString.policy_of_load loaded) mode

end FunctionInfo

end Postmortem
