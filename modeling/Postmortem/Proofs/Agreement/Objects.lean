import Postmortem.Proofs.Agreement.Basic

/-! # Loads that agree

Two loads of the same object agree unless the first gives up, if their snapshots and their bookings
are alike (`FixedArray.agrees_load` and the rest).

Loading a string or a function and describing a function book nothing, so the policy is only
remembered there: under another one the same is loaded, with that one remembered
(`HeapString.load_mapPolicy`, `JSFunction.load_mapPolicy`, `JSFunction.describe_mapPolicy`). -/

namespace Postmortem

/-! ## Remembered policies -/

/-- The string with another policy. -/
def HeapString.mapPolicy (g : AllocationPolicy → AllocationPolicy) (h : HeapString) : HeapString :=
  { h with policy := g h.policy }

namespace HeapString

variable (g : AllocationPolicy → AllocationPolicy) (h : HeapString)

@[simp] theorem address_mapPolicy : (h.mapPolicy g).address = h.address := rfl

@[simp] theorem length_mapPolicy : (h.mapPolicy g).length = h.length := rfl

@[simp] theorem encoding_mapPolicy : (h.mapPolicy g).encoding = h.encoding := rfl

@[simp] theorem isExternal_mapPolicy : (h.mapPolicy g).isExternal = h.isExternal := rfl

end HeapString

/-- The function with another policy. -/
def JSFunction.mapPolicy (g : AllocationPolicy → AllocationPolicy) (f : JSFunction) : JSFunction :=
  { f with policy := g f.policy }

/-- The description with another policy. -/
def FunctionInfo.mapPolicy (g : AllocationPolicy → AllocationPolicy) (i : FunctionInfo) :
    FunctionInfo :=
  { i with policy := g i.policy }

variable {kind : DecodeError → Prop} {like : Budget → Budget → Prop}
variable {policy policy' : AllocationPolicy} {s s' : Snapshot}

/-! ## Arrays -/

section

variable (alike : s.ReadsAlike kind s') (books : BooksAlike kind like policy policy')

include alike books

theorem Snapshot.agrees_readSlots (address : Word) (count : Nat) :
    Loading.AgreesUnless kind like (s.readSlots address count policy)
      (s'.readSlots address count policy') := by
  unfold Snapshot.readSlots
  rw [alike.tags]
  refine books.holding ?_
  rw [alike.readBytes]
  exact .bind (.ofExcept (.refl _)) fun bytes => .bind (books.storage ..) fun _ => .pure _

namespace FixedArray

omit books in
theorem agrees_header (w : Word) (expected : String) (alternative : Option UInt8) :
    AgreesUnless kind (header s w expected alternative) (header s' w expected alternative) := by
  unfold header
  rw [alike.types]
  refine .bind (alike.expectType ..) fun (address, _) => ?_
  exact .bind (alike.readSmallInt address _) fun _ => .refl _

theorem agrees_loadAs (w : Word) (expected : String) (alternative : Option UInt8) :
    Loading.AgreesUnless kind like (loadAs s w expected alternative policy)
      (loadAs s' w expected alternative policy') := by
  refine .bind (.ofExcept (agrees_header alike ..)) fun (address, length) => ?_
  refine .bind (.ofExcept (alike.fieldAddress address _)) fun data => ?_
  exact .bind (Snapshot.agrees_readSlots alike books data length) fun _ => .pure _

theorem agrees_load (w : Word) :
    Loading.AgreesUnless kind like (load s w policy) (load s' w policy') :=
  agrees_loadAs alike books w _ _

end FixedArray

theorem JSArray.agrees_load (w : Word) :
    Loading.AgreesUnless kind like (load s w policy) (load s' w policy') := by
  unfold JSArray.load
  rw [alike.types]
  refine .bind (.ofExcept ?_) fun (address, length) => ?_
  · refine .bind (alike.expectType ..) fun (address, _) => ?_
    exact .bind (alike.readSmallInt address _) fun _ => .refl _
  · dsimp only
    split
    · exact .pure _
    · refine .bind (.ofExcept (alike.readField address _)) fun elements => ?_
      exact .bind (FixedArray.agrees_load alike books elements) fun _ => .pure _

/-! ## Contexts and scope infos -/

theorem Context.agrees_load (w : Word) :
    Loading.AgreesUnless kind like (load s w policy) (load s' w policy') := by
  have indices : s.layout.context = s'.layout.context :=
    (congrArg Layout.context alike.layout :)
  unfold Context.load ContextHeader.ofLayout
  rw [indices, alike.types]
  refine .bind (.ofExcept (.refl _)) fun header => ?_
  refine .bind (FixedArray.agrees_loadAs alike books ..) fun array => ?_
  split
  · exact .pure _
  · exact books.release_throw _ _

theorem ScopeInfo.agrees_load (w : Word) :
    Loading.AgreesUnless kind like (load s w policy) (load s' w policy') := by
  have indices : s.layout.scopeInfo = s'.layout.scopeInfo :=
    (congrArg Layout.scopeInfo alike.layout :)
  unfold ScopeInfo.load ScopeInfoHeader.ofLayout
  rw [indices, alike.types, alike.tags]
  refine .bind (.ofExcept (.refl _)) fun header => ?_
  refine .bind (FixedArray.agrees_loadAs alike books ..) fun array => ?_
  split
  · exact .pure _
  · exact books.release_throw _ _

end

/-! ## Functions -/

namespace JSFunction

/-- Another policy makes no difference but in what is remembered. -/
theorem load_mapPolicy (g : AllocationPolicy → AllocationPolicy) (s : Snapshot) (w : Word)
    (policy : AllocationPolicy) :
    load s w (g policy) = (load s w policy).map (mapPolicy g) := by
  unfold load
  split
  · rfl
  · simp only [map_bind]
    rfl

theorem describe_mapPolicy (g : AllocationPolicy → AllocationPolicy) (s : Snapshot)
    (f : JSFunction) (policy : AllocationPolicy) :
    f.describe s (g policy) = (f.describe s policy).map (FunctionInfo.mapPolicy g) := by
  unfold describe
  simp only [map_bind]
  rfl

section

variable (alike : s.ReadsAlike kind s')

include alike

theorem agrees_load (w : Word) (policy : AllocationPolicy) :
    AgreesUnless kind (load s w policy) (load s' w policy) := by
  unfold load
  rw [alike.types]
  split
  · exact .refl _
  · refine .bind (alike.expectType ..) fun (address, _) => ?_
    exact .bind (alike.readField address _) fun _ => .refl _

theorem agrees_describe (f : JSFunction) (policy : AllocationPolicy) :
    AgreesUnless kind (f.describe s policy) (f.describe s' policy) := by
  unfold describe
  rw [alike.objectAddress, alike.tags]
  refine .bind (.refl _) fun shared => ?_
  refine .bind (alike.readInteger shared _) fun token => ?_
  refine .bind (alike.readField shared _) fun name => ?_
  refine .bind (alike.readField shared _) fun script => ?_
  rw [alike.objectAddress]
  refine .bind (.refl _) fun scriptAddress => ?_
  refine .bind (alike.readField scriptAddress _) fun scriptName => ?_
  refine .bind (alike.readField scriptAddress _) fun lineEnds => ?_
  rw [alike.readInferredName]
  exact .refl _

variable (books : BooksAlike kind like policy policy')

include books

theorem agrees_context (f : JSFunction) :
    Loading.AgreesUnless kind like (f.context s policy) (f.context s' policy') :=
  .bind (.ofExcept (alike.readField f.address _)) fun w => Context.agrees_load alike books w

theorem agrees_scopeInfo (f : JSFunction) :
    Loading.AgreesUnless kind like (f.scopeInfo s policy) (f.scopeInfo s' policy') := by
  refine .bind (.ofExcept ?_) fun w => ScopeInfo.agrees_load alike books w
  rcases alike.offset scopeInfoField with same | ⟨-, lacking, h⟩
  · rw [same]
    split
    · exact .refl _
    · rw [alike.objectAddress]
      exact .bind (.refl _) fun shared => alike.readField shared _
  · rw [lacking]
    exact .of_kind h _

end

end JSFunction

/-- The closure in between is loaded with a policy of its own, which nothing asks for. -/
theorem Context.agrees_scopeInfo {g : AllocationPolicy → AllocationPolicy}
    (alike : s.ReadsAlike kind s') (books : BooksAlike kind like (g policy) policy) (c : Context) :
    Loading.AgreesUnless kind like (c.scopeInfo s (g policy)) (c.scopeInfo s' policy) := by
  rw [Context.scopeInfo, JSFunction.load_mapPolicy, Loading.ofExcept_map_bind]
  refine .bind (.ofExcept (JSFunction.agrees_load alike c.closure policy)) fun f => ?_
  exact f.agrees_scopeInfo alike books

/-! ## Strings -/

namespace HeapString

theorem load_mapPolicy (g : AllocationPolicy → AllocationPolicy) (s : Snapshot) (w : Word)
    (policy : AllocationPolicy) :
    load s w (g policy) = (load s w policy).map (mapPolicy g) := by
  unfold load
  rw [map_bind]
  refine bind_congr fun address => ?_
  rw [map_bind]
  refine bind_congr fun typeByte => ?_
  cases s.layout.types.strings with
  | none => rfl
  | some tags =>
    dsimp only
    split
    · rfl
    · simp only [map_bind]
      rfl

variable (alike : s.ReadsAlike kind s')

include alike

theorem agrees_readRepresentation (tags : StringTags) (address : Word) (typeByte : UInt8)
    (encoding : Encoding) :
    AgreesUnless kind (readRepresentation s tags address typeByte encoding)
      (readRepresentation s' tags address typeByte encoding) := by
  unfold readRepresentation
  dsimp only
  split
  · exact .refl _
  · split
    · refine .bind (alike.readField address _) fun first => ?_
      exact .bind (alike.readField address _) fun second => .refl _
    · split
      · refine .bind (alike.readField address _) fun parent => ?_
        exact .bind (alike.readNatural address _ _) fun offset => .refl _
      · split
        · refine .bind (alike.readField address _) fun resource => ?_
          cases encoding with
          | oneByte =>
            refine .bind (alike.fieldAddress resource _) fun field => ?_
            rw [alike.readWord]
            exact .refl _
          | twoByte => exact .refl _
        · exact .refl _

theorem agrees_load (w : Word) (policy : AllocationPolicy) :
    AgreesUnless kind (load s w policy) (load s' w policy) := by
  unfold load
  rw [alike.objectAddress, alike.types]
  refine .bind (.refl _) fun address => .bind (alike.typeByte address) fun typeByte => ?_
  cases s'.layout.types.strings with
  | none => exact .refl _
  | some tags =>
    dsimp only
    split
    · exact .refl _
    · refine .bind (alike.readNatural address _ _) fun length => ?_
      exact .bind (agrees_readRepresentation alike ..) fun _ => .refl _

end HeapString

end Postmortem
