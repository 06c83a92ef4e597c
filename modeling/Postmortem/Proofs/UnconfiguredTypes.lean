import Postmortem.Proofs.Contexts
import Postmortem.Session.Basic

/-! # Types that a layout does not have

An object is told by its type byte, and a layout may lack the bytes of its kind. Every load fails
then, and leaves the budget as it was (`ObjectKind.load_of_unconfigured`). How it fails depends on
the way in which it comes to the type:

* The load of a function looks at the entry before anything else, and that of a string once the type
  byte is known. Both report the entry that is missing.
* Arrays, and what is laid out as one, compare the type byte with the entries as they are. An absent
  one equals no byte, so the object is said to be of the wrong type, whatever it is. -/

namespace Postmortem

/-! ## Reads that compare no types -/

/-- The computation does not fail because an object is of the wrong type. -/
def NeverWrongType {α : Type} (result : Except DecodeError α) : Prop :=
  ∀ address expected found, result ≠ .error (.wrongTypeTag address expected found)

namespace NeverWrongType

variable {α β : Type}

theorem ok (a : α) : NeverWrongType (.ok a) := by
  intro address expected found failed
  cases failed

theorem bind {result : Except DecodeError α} {next : α → Except DecodeError β}
    (first : NeverWrongType result) (rest : ∀ a, NeverWrongType (next a)) :
    NeverWrongType (result >>= next) := by
  intro address expected found failed
  rcases exists_of_bind_eq_error failed with failed | ⟨a, -, failed⟩
  · exact first _ _ _ failed
  · exact rest a _ _ _ failed

end NeverWrongType

theorem neverWrongType_requireIndex (entry : FieldName) (index : Option UInt64) :
    NeverWrongType (requireIndex entry index) := by
  intro address expected found failed
  obtain ⟨_, missing⟩ := exists_of_requireIndex_eq_error failed
  cases missing

theorem ContextHeader.neverWrongType_ofLayout (l : Layout) : NeverWrongType (ofLayout l) := by
  intro address expected found failed
  obtain ⟨_, missing⟩ := exists_of_ofLayout_eq_error failed
  cases missing

theorem ScopeInfoHeader.neverWrongType_ofLayout (l : Layout) : NeverWrongType (ofLayout l) :=
  .bind (neverWrongType_requireIndex _ _) fun _ =>
    .bind (neverWrongType_requireIndex _ _) fun _ =>
      .bind (neverWrongType_requireIndex _ _) fun _ =>
        .bind (neverWrongType_requireIndex _ _) fun _ => .ok _

namespace Snapshot

variable (s : Snapshot)

theorem neverWrongType_objectAddress (w : Word) : NeverWrongType (s.objectAddress w) := by
  intro address expected found failed
  unfold objectAddress at failed
  split at failed <;> cases failed

theorem neverWrongType_readBytes (address : Word) (length : Nat) :
    NeverWrongType (s.readBytes address length) := by
  intro address expected found failed
  unfold readBytes at failed
  split at failed <;> cases failed

theorem neverWrongType_fieldAddress (object : Word) (field : FieldName) :
    NeverWrongType (s.fieldAddress object field) := by
  intro address expected found failed
  unfold fieldAddress at failed
  split at failed
  · cases failed
  · split at failed <;> cases failed

theorem neverWrongType_readField (object : Word) (field : FieldName) :
    NeverWrongType (s.readField object field) := by
  refine .bind (s.neverWrongType_fieldAddress object field) fun address => ?_
  unfold readWord
  exact .bind (s.neverWrongType_readBytes address _) fun bytes => .ok (Word.ofBytes bytes)

theorem neverWrongType_typeByte (object : Word) : NeverWrongType (s.typeByte object) :=
  .bind (s.neverWrongType_readField object _) fun w =>
    .bind (s.neverWrongType_objectAddress w) fun map =>
      .bind (s.neverWrongType_fieldAddress map _) fun place =>
        .bind (s.neverWrongType_readBytes place 1) fun _ => .ok _

/-- The address of the object that a word points to, and its type byte. -/
def identify (w : Word) : Except DecodeError (Word × UInt8) := do
  let address ← s.objectAddress w
  let found ← s.typeByte address
  return (address, found)

theorem neverWrongType_identify (w : Word) : NeverWrongType (s.identify w) :=
  .bind (s.neverWrongType_objectAddress w) fun address =>
    .bind (s.neverWrongType_typeByte address) fun found => .ok (address, found)

/-- Absent entries equal no type byte. -/
theorem expectType_of_absent {w : Word} {expected : String} {accepted : List (Option UInt8)}
    (absent : ∀ entry ∈ accepted, entry = none) :
    s.expectType w expected accepted =
      match s.identify w with
      | .ok (address, found) => .error (.wrongTypeTag address expected found)
      | .error e => .error e := by
  have none_accepted (found : UInt8) : ¬ accepted.contains (some found) := by
    rw [List.contains_iff_mem]
    exact fun mem => Option.some_ne_none found (absent _ mem)
  unfold expectType identify
  cases s.objectAddress w with
  | error e => rfl
  | ok address =>
    cases typed : s.typeByte address with
    | error e => simp only [bind_of_eq_ok rfl, typed]; rfl
    | ok found => simp only [bind_of_eq_ok rfl, typed, if_neg (none_accepted found)]; rfl

end Snapshot

theorem HeapString.load_of_absent {s : Snapshot} (absent : s.layout.types.strings = none)
    (w : Word) (policy : AllocationPolicy) :
    load s w policy =
      s.identify w >>= fun _ => .error (.missingConfiguration ⟨"types", "strings"⟩) := by
  unfold load Snapshot.identify
  rw [absent]
  cases s.objectAddress w with
  | error e => rfl
  | ok address => cases typed : s.typeByte address <;> simp only [bind_of_eq_ok rfl, typed] <;> rfl

/-! ## Kinds of objects -/

/-- The kinds of objects that a load tells by their types. -/
inductive ObjectKind where
  | fixedArray
  | array
  | context
  | scopeInfo
  | function
  | string
  deriving DecidableEq, Repr

namespace ObjectKind

/-- What errors call an object of the kind. -/
def label : ObjectKind → String
  | .fixedArray => "FixedArray"
  | .array => "JSArray"
  | .context => "Context"
  | .scopeInfo => "ScopeInfo"
  | .function => "JSFunction"
  | .string => "String"

/-- The layout has no type for the kind. Contexts and scope infos may be plain fixed arrays. -/
def Unconfigured (l : Layout) : ObjectKind → Prop
  | .fixedArray => l.types.fixedArray = none
  | .array => l.types.array = none
  | .context => l.types.fixedArray = none ∧ l.types.context = none
  | .scopeInfo => l.types.fixedArray = none ∧ l.types.scopeInfo = none
  | .function => l.types.function = none
  | .string => l.types.strings = none

/-- Loads an object of the kind. -/
def load (s : Snapshot) (w : Word) (policy : AllocationPolicy) : ObjectKind → Loading Object
  | .fixedArray => .fixedArray <$> FixedArray.load s w policy
  | .array => .array <$> JSArray.load s w policy
  | .context => .context <$> Context.load s w policy
  | .scopeInfo => .scopeInfo <$> ScopeInfo.load s w policy
  | .function => .function <$> Loading.ofExcept (JSFunction.load s w policy)
  | .string => .string <$> Loading.ofExcept (HeapString.load s w policy)

/-- What the load of an object of the kind does before it looks at an entry for the type. -/
def prepare (s : Snapshot) (w : Word) : ObjectKind → Except DecodeError Unit
  | .fixedArray | .array | .string => do
    let _ ← s.identify w
  | .context => do
    let _ ← ContextHeader.ofLayout s.layout
    let _ ← s.identify w
  | .scopeInfo => do
    let _ ← ScopeInfoHeader.ofLayout s.layout
    let _ ← s.identify w
  | .function => return

/-- The entry for the type that the load of an object of the kind asks for. -/
def demanded : ObjectKind → Option FieldName
  | .function => some ⟨"types", "js_function"⟩
  | .string => some ⟨"types", "strings"⟩
  | _ => none

/-- The error says that configuration is missing, unless it comes from a step before the one that
looks at the type. -/
def ReportsMissing (s : Snapshot) (w : Word) (kind : ObjectKind) (e : DecodeError) : Prop :=
  NeverWrongType (.error e : Except DecodeError Unit) ∧
    (kind.prepare s w = .error e ∨ ∃ entry, e = .missingConfiguration entry)

/-- How the load of an object fails whose kind has no type in the layout. -/
inductive Refusal (s : Snapshot) (w : Word) (kind : ObjectKind) : DecodeError → Prop where
  /-- A step before the one that looks at the type fails. -/
  | earlier {e : DecodeError} (failed : kind.prepare s w = .error e) : Refusal s w kind e
  /-- The entry is asked for and absent. -/
  | missing {entry : FieldName} (done : kind.prepare s w = .ok ())
    (demanded : kind.demanded = some entry) : Refusal s w kind (.missingConfiguration entry)
  /-- The type byte is compared with nothing. -/
  | mistaken {address : Word} {found : UInt8} (done : kind.prepare s w = .ok ())
    (demanded : kind.demanded = none) (identified : s.identify w = .ok (address, found)) :
    Refusal s w kind (.wrongTypeTag address kind.label found)

section loads

variable {s : Snapshot} {w : Word} {kind : ObjectKind} {policy : AllocationPolicy} {b : Budget}
  {e : DecodeError}

theorem neverWrongType_prepare (s : Snapshot) (w : Word) (kind : ObjectKind) :
    NeverWrongType (kind.prepare s w) := by
  have identified := s.neverWrongType_identify w
  cases kind with
  | fixedArray | array | string => exact identified.bind fun _ => .ok _
  | context =>
    exact (ContextHeader.neverWrongType_ofLayout _).bind fun _ => identified.bind fun _ => .ok _
  | scopeInfo =>
    exact (ScopeInfoHeader.neverWrongType_ofLayout _).bind fun _ => identified.bind fun _ => .ok _
  | function => exact .ok _

/-- There is one way to fail only. -/
theorem Refusal.unique {e' : DecodeError} (refusal : Refusal s w kind e)
    (refusal' : Refusal s w kind e') : e = e' := by
  cases refusal with
  | earlier failed =>
    cases refusal' with
    | earlier failed' => exact Except.error.inj (failed.symm.trans failed')
    | missing done | mistaken done => cases failed.symm.trans done
  | missing done demanded =>
    cases refusal' with
    | earlier failed => cases failed.symm.trans done
    | missing _ demanded' =>
      cases demanded.symm.trans demanded'
      rfl
    | mistaken _ demanded' => cases demanded.symm.trans demanded'
  | mistaken done demanded identified =>
    cases refusal' with
    | earlier failed => cases failed.symm.trans done
    | missing _ demanded' => cases demanded.symm.trans demanded'
    | mistaken _ _ identified' =>
      cases identified.symm.trans identified'
      rfl

/-- Missing configuration is reported where the entry is asked for, and where it does not come to
that. -/
theorem Refusal.reportsMissing_iff (refusal : Refusal s w kind e) :
    kind.ReportsMissing s w e ↔
      kind.demanded.isSome ∨ ∃ earlier, kind.prepare s w = .error earlier := by
  cases refusal with
  | earlier failed =>
    have typeless := neverWrongType_prepare s w kind
    rw [failed] at typeless
    refine ⟨fun _ => .inr ⟨e, failed⟩, fun _ => ⟨?_, .inl failed⟩⟩
    intro address expected found mistaken
    exact typeless address expected found (congrArg _ (Except.error.inj mistaken))
  | @missing entry done demanded =>
    refine ⟨fun _ => .inl (by rw [demanded]; rfl), fun _ => ⟨?_, .inr ⟨entry, rfl⟩⟩⟩
    intro address expected found mistaken
    cases mistaken
  | mistaken done demanded identified =>
    rw [demanded, done]
    constructor
    · intro reports
      exact absurd rfl (reports.1 _ _ _)
    · rintro (required | ⟨_, failed⟩)
      · cases required
      · cases failed

/-- A type byte that is compared with absent entries is refused. -/
theorem exists_refusal_of_expectType (s : Snapshot) (w : Word) (kind : ObjectKind)
    {accepted : List (Option UInt8)} (absent : ∀ entry ∈ accepted, entry = none)
    (prepared : kind.prepare s w = s.identify w >>= fun _ => .ok ())
    (demanded : kind.demanded = none) :
    ∃ e, s.expectType w kind.label accepted = .error e ∧ Refusal s w kind e := by
  rw [s.expectType_of_absent absent]
  cases identified : s.identify w with
  | error e => exact ⟨e, rfl, .earlier (by rw [prepared, identified]; rfl)⟩
  | ok object =>
    have done : kind.prepare s w = .ok () := by rw [prepared, identified]; rfl
    exact ⟨_, rfl, .mistaken done demanded identified⟩

theorem absent_pair {first second : Option UInt8} (absent : first = none)
    (absent' : second = none) : ∀ entry ∈ [first, second], entry = none := by
  simp [absent, absent']

theorem runFrom_loadAs_of_expectType {expected : String} {alternative : Option UInt8}
    (failed : s.expectType w expected [s.layout.types.fixedArray, alternative] = .error e) :
    (FixedArray.loadAs s w expected alternative policy).runFrom b = (.error e, b) := by
  have header : FixedArray.header s w expected alternative = .error e := by
    rw [FixedArray.header, failed]
    rfl
  rw [FixedArray.loadAs, header]
  rfl

/-- Slot indices of the layout are taken before the array is looked at. -/
theorem exists_refusal_behind {α β : Type} (kind : ObjectKind) {header : Except DecodeError α}
    {alternative : Option UInt8} {next : α → FixedArray → Loading β} {object : β → Object}
    (absent : ∀ entry ∈ [s.layout.types.fixedArray, alternative], entry = none)
    (prepared : kind.prepare s w = header >>= fun _ => s.identify w >>= fun _ => .ok ())
    (demanded : kind.demanded = none)
    (loads : kind.load s w policy = object <$> (Loading.ofExcept header >>= fun h =>
      FixedArray.loadAs s w kind.label alternative policy >>= next h)) (b : Budget) :
    ∃ e, (kind.load s w policy).runFrom b = (.error e, b) ∧ Refusal s w kind e := by
  rw [loads]
  cases read : header with
  | error e => exact ⟨e, rfl, .earlier (by rw [prepared, read]; rfl)⟩
  | ok h =>
    have identifies : kind.prepare s w = s.identify w >>= fun _ => .ok () := by
      rw [prepared, bind_of_eq_ok read]
    obtain ⟨e, failed, refusal⟩ := exists_refusal_of_expectType s w kind absent identifies demanded
    refine ⟨e, Loading.runFrom_map_of_eq_error ?_, refusal⟩
    rw [Loading.runFrom_ofExcept_bind rfl]
    exact Loading.runFrom_bind_of_eq_error (runFrom_loadAs_of_expectType failed) _

/-- An object of a kind without a type is not loaded. -/
theorem exists_refusal (unconfigured : kind.Unconfigured s.layout) (w : Word)
    (policy : AllocationPolicy) (b : Budget) :
    ∃ e, (kind.load s w policy).runFrom b = (.error e, b) ∧ Refusal s w kind e := by
  cases kind with
  | fixedArray =>
    obtain ⟨e, failed, refusal⟩ := exists_refusal_of_expectType s w .fixedArray
      (absent_pair unconfigured rfl) rfl rfl
    exact ⟨e, Loading.runFrom_map_of_eq_error (runFrom_loadAs_of_expectType failed), refusal⟩
  | array =>
    have absent : ∀ entry ∈ [s.layout.types.array], entry = none :=
      List.forall_mem_singleton.2 unconfigured
    obtain ⟨e, failed, refusal⟩ :=
      exists_refusal_of_expectType s w .array absent rfl rfl
    refine ⟨e, Loading.runFrom_map_of_eq_error ?_, refusal⟩
    change s.expectType w "JSArray" _ = _ at failed
    rw [JSArray.load, failed]
    rfl
  | context =>
    exact exists_refusal_behind .context (absent_pair unconfigured.1 unconfigured.2) rfl rfl rfl b
  | scopeInfo =>
    exact exists_refusal_behind .scopeInfo (absent_pair unconfigured.1 unconfigured.2) rfl rfl rfl b
  | function =>
    -- The entry is looked at before the word is.
    refine ⟨_, Loading.runFrom_map_of_eq_error ?_, .missing rfl rfl⟩
    rw [JSFunction.load, unconfigured]
    rfl
  | string =>
    have compared := HeapString.load_of_absent unconfigured w policy
    cases identified : s.identify w with
    | error e =>
      refine ⟨e, Loading.runFrom_map_of_eq_error ?_, .earlier (by rw [prepare, identified]; rfl)⟩
      rw [compared, identified]
      rfl
    | ok object =>
      refine ⟨_, Loading.runFrom_map_of_eq_error ?_,
        .missing (by rw [prepare, identified]; rfl) rfl⟩
      rw [compared, identified]
      rfl

end loads

/-- **Nothing is loaded of a kind that the layout has no type for,** and nothing is booked for it.
If a step before the one that looks at the type fails, that is how the load fails. Otherwise it
reports the entry that is missing, if it is one that asks for the entry, and else that the object is
of the wrong type. So missing configuration is reported for every function and every string, and for
an array, a context or a scope info only where it does not come to the type. -/
theorem load_of_unconfigured {kind : ObjectKind} {s : Snapshot}
    (unconfigured : kind.Unconfigured s.layout) (w : Word) (policy : AllocationPolicy)
    (b : Budget) :
    ∃ e, (kind.load s w policy).runFrom b = (.error e, b) ∧ Refusal s w kind e ∧
      (kind.ReportsMissing s w e ↔
        kind = .function ∨ kind = .string ∨ ∃ earlier, kind.prepare s w = .error earlier) := by
  obtain ⟨e, ran, refusal⟩ := exists_refusal unconfigured w policy b
  refine ⟨e, ran, refusal, ?_⟩
  rw [refusal.reportsMissing_iff]
  cases kind <;> simp [demanded]

end ObjectKind

/-! ## A sample -/

/-- The heap of strings under a layout without types. The slots of contexts are known. -/
def Sample.untypedHeap : Snapshot :=
  { heap with
    layout :=
      { layout with
        types := ⟨none, none, none, none, none, none⟩
        context := ⟨some 0, some 1, some 2, some 3, some 4⟩ } }

theorem Sample.identify_untypedHeap : untypedHeap.identify 0x1051 = .ok (0x1050, 0) :=
  ok_of_toOption (by decide +kernel)

/-- A string whose type is asked for and one that is taken for an array or a context, a scope info
without its slots, and a small integer in the place of an array or a function. -/
theorem ObjectKind.load_untyped :
    let loads (kind : ObjectKind) (w : Word) :=
      (kind.load Sample.untypedHeap w .blocking).runFrom .unlimited
    loads .string 0x1051 = (.error (.missingConfiguration ⟨"types", "strings"⟩), .unlimited) ∧
    loads .fixedArray 0x1051 = (.error (.wrongTypeTag 0x1050 "FixedArray" 0), .unlimited) ∧
    loads .context 0x1051 = (.error (.wrongTypeTag 0x1050 "Context" 0), .unlimited) ∧
    loads .scopeInfo 0x1051 =
      (.error (.missingConfiguration ⟨"scope_info", "idx_nparams"⟩), .unlimited) ∧
    loads .array 0 = (.error (.notHeapPointer 0), .unlimited) ∧
    loads .function 0 =
      (.error (.missingConfiguration ⟨"types", "js_function"⟩), .unlimited) := by
  intro loads
  have done {kind : ObjectKind}
      (prepared : (kind.prepare Sample.untypedHeap 0x1051).toOption = some ()) :
      kind.prepare Sample.untypedHeap 0x1051 = .ok () := Sample.ok_of_toOption prepared
  have fails (kind : ObjectKind) (unconfigured : kind.Unconfigured Sample.untypedHeap.layout)
      (w : Word) {e : DecodeError} (expected : Refusal Sample.untypedHeap w kind e) :
      loads kind w = (.error e, .unlimited) := by
    obtain ⟨e', ran, refusal, -⟩ := load_of_unconfigured unconfigured w .blocking .unlimited
    rw [expected.unique refusal]
    exact ran
  refine ⟨?string, ?fixedArray, ?context, ?scopeInfo, ?array, ?function⟩
  case string => exact fails .string rfl _ (.missing (done (by decide +kernel)) rfl)
  case fixedArray =>
    exact fails .fixedArray rfl _
      (.mistaken (done (by decide +kernel)) rfl Sample.identify_untypedHeap)
  case context =>
    exact fails .context ⟨rfl, rfl⟩ _
      (.mistaken (done (by decide +kernel)) rfl Sample.identify_untypedHeap)
  case scopeInfo => exact fails .scopeInfo ⟨rfl, rfl⟩ _ (.earlier rfl)
  case array => exact fails .array rfl _ (.earlier rfl)
  case function => exact fails .function rfl _ (.missing rfl rfl)

/-- Missing configuration is not always reported. -/
theorem ObjectKind.not_reportsMissing :
    ¬ ∀ (kind : ObjectKind) (s : Snapshot) (w : Word) (policy : AllocationPolicy) (b : Budget),
      kind.Unconfigured s.layout →
        ∃ e b', (kind.load s w policy).runFrom b = (.error e, b') ∧ kind.ReportsMissing s w e := by
  intro always
  have unconfigured : ObjectKind.fixedArray.Unconfigured Sample.untypedHeap.layout := rfl
  obtain ⟨e, b', ran, typeless, -⟩ := always _ _ 0x1051 .blocking .unlimited unconfigured
  obtain ⟨e', ran', refusal⟩ := exists_refusal (s := Sample.untypedHeap) unconfigured 0x1051
    .blocking .unlimited
  have done : ObjectKind.fixedArray.prepare Sample.untypedHeap 0x1051 = .ok () :=
    Sample.ok_of_toOption (by decide +kernel)
  cases ran'.symm.trans ran
  cases refusal.unique (.mistaken done rfl Sample.identify_untypedHeap)
  exact typeless _ _ _ rfl

end Postmortem
