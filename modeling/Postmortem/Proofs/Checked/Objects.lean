import Postmortem.Context
import Postmortem.Proofs.Checked.Words

/-! # Arrays and contexts without traps

The checked versions of the loads of arrays and contexts and of what is looked up in contexts. The
bytes of a copy are cut into chunks of the size of a word, each of which fits the storage for one
(`Checked.readSlots_eq`). A context has passed the check for its length (`Context.Sound`), so its
static slots and its variables lie inside it (`Checked.staticSlots_eq`, `Checked.valueAt_eq`,
`Checked.dynamicSlots_eq`). -/

namespace Postmortem

/-! ## Loaded objects -/

/-- What holds of every context that was loaded. -/
structure Context.Sound (c : Context) : Prop where
  fits : c.header.fits c.size = true
  size_le : c.size ≤ Word.signedTop

theorem Context.sound_of_load {s : Snapshot} {w : Word} {policy : AllocationPolicy} {c : Context}
    {b b' : Budget} (loaded : (load s w policy).runFrom b = (.ok c, b')) : c.Sound := by
  obtain ⟨header, -, rest⟩ := Loading.exists_of_runFrom_ofExcept_bind loaded
  obtain ⟨array, mid, read, rest⟩ := Loading.exists_of_runFrom_bind rest
  split at rest
  · rename_i fits
    cases rest
    exact ⟨fits, FixedArray.size_le_of_loadAs read⟩
  · obtain ⟨_, left, -, failed⟩ := Loading.exists_of_runFrom_bind rest
    cases failed

namespace Context.Sound

variable {c : Context}

theorem common_le (sound : c.Sound) : c.header.common ≤ c.size := by
  have fits := sound.fits
  simp only [ContextHeader.fits, Bool.and_eq_true, decide_eq_true_eq] at fits
  exact fits.1

theorem labelled_lt (sound : c.Sound) : ∀ slot ∈ c.header.labelled, slot.2 < c.size := by
  have fits := sound.fits
  simp only [ContextHeader.fits, Bool.and_eq_true, List.all_eq_true, decide_eq_true_eq] at fits
  exact fits.2

end Context.Sound

namespace Checked

/-! ## Slots -/

theorem mapM_chunks {size : Nat} (small : size ≤ 8) (count : Nat)
    {bytes : List UInt8} (length : bytes.length = count * size) :
    (chunks size count bytes).mapM (wordOfPrefix size) = .ok (wordsOfBytes size count bytes) := by
  induction count generalizing bytes with
  | zero => rfl
  | succ count ih =>
    rw [Nat.succ_mul] at length
    have first : (bytes.take size).length = size := by
      rw [List.length_take]
      omega
    have rest : (bytes.drop size).length = count * size := by
      rw [List.length_drop]
      omega
    rw [chunks, List.mapM_cons, wordOfPrefix_eq small first, ok_bind, ih rest, ok_bind]
    rfl

/-- Storage is held while the body runs, and given back however it ends. -/
def holding {α : Type} (count width : Nat) (policy : AllocationPolicy) (body : CheckedLoading α) :
    CheckedLoading α := do
  let size ← .of (Loading.storage count width policy)
  ExceptT.mk fun b => do
    let (result, b) ← body b
    return (result, b.release size)

theorem holding_of {α : Type} (count width : Nat) (policy : AllocationPolicy) (body : Loading α) :
    holding count width policy (.of body) = .of (Loading.holding count width policy body) :=
  CheckedLoading.of_bind fun _ _ _ _ => rfl

section loads

variable (s : Snapshot)

def readSlots (address : Word) (count : Nat) (policy : AllocationPolicy) : CheckedLoading Slots :=
  let size := s.layout.tags.wordSize
  holding count size policy do
    let bytes ← .ofResult (.of (s.readBytes address (count * size)))
    let booked ← .of (Loading.storage count slotWidth policy)
    let words ← .ofResult (do (← chunksExact size bytes).mapM (wordOfPrefix size) : Checked _)
    return { words := words.toArray, booked }

theorem readSlots_eq (address : Word) (count : Nat) (policy : AllocationPolicy) :
    readSlots s address count policy = .of (s.readSlots address count policy) := by
  refine (congrArg (holding count s.layout.tags.wordSize policy) ?_).trans (holding_of ..)
  refine CheckedLoading.of_bind fun bytes b b' ran => CheckedLoading.of_bind fun booked _ _ _ => ?_
  have read : s.readBytes address (count * s.layout.tags.wordSize) = .ok bytes :=
    congrArg Prod.fst ran
  have length := length_of_readBytes s read
  have pos := s.layout.tags.wordSize_pos
  rw [chunksExact, if_neg (Nat.ne_of_gt pos), length, Nat.mul_div_cancel _ pos, ok_bind,
    mapM_chunks s.layout.tags.wordSize_le count length]
  rfl

/-! ## Arrays -/

def arrayHeader (w : Word) (expected : String) (alternative : Option UInt8) :
    CheckedResult (Word × Nat) := do
  let (address, _) ← expectType s w expected [s.layout.types.fixedArray, alternative]
  let length ← readSmallInt s address ⟨"FixedArray", "length"⟩
  if length < 0 then throw (.corruptArray address (.negativeLength length))
  return (address, length.toNat)

theorem arrayHeader_eq (w : Word) (expected : String) (alternative : Option UInt8) :
    arrayHeader s w expected alternative = .of (FixedArray.header s w expected alternative) := by
  rw [arrayHeader, expectType_eq]
  refine CheckedResult.of_bind fun (address, found) _ => ?_
  dsimp only
  rw [readSmallInt_eq]
  refine CheckedResult.of_bind fun length _ => ?_
  split <;> rfl

def loadArrayAs (w : Word) (expected : String) (alternative : Option UInt8)
    (policy : AllocationPolicy) : CheckedLoading FixedArray := do
  let (address, length) ← .ofResult (arrayHeader s w expected alternative)
  let data ← .ofResult (.of (s.fieldAddress address ⟨"FixedArray", "data"⟩))
  let slots ← readSlots s data length policy
  return { slots with address }

theorem loadArrayAs_eq (w : Word) (expected : String) (alternative : Option UInt8)
    (policy : AllocationPolicy) :
    loadArrayAs s w expected alternative policy =
      .of (FixedArray.loadAs s w expected alternative policy) := by
  rw [loadArrayAs, arrayHeader_eq]
  refine CheckedLoading.of_bind fun (address, length) _ _ _ => CheckedLoading.of_bind
    fun data _ _ _ => ?_
  rw [readSlots_eq]
  exact CheckedLoading.of_bind fun slots _ _ _ => rfl

def loadFixedArray (w : Word) (policy : AllocationPolicy) : CheckedLoading FixedArray :=
  loadArrayAs s w "FixedArray" none policy

theorem loadFixedArray_eq (w : Word) (policy : AllocationPolicy) :
    loadFixedArray s w policy = .of (FixedArray.load s w policy) :=
  loadArrayAs_eq s w _ _ policy

def jsArrayHeader (w : Word) : CheckedResult (Word × Nat) := do
  let (address, _) ← expectType s w "JSArray" [s.layout.types.array]
  let length ← readSmallInt s address ⟨"JSArray", "length"⟩
  if length < 0 then throw (.corruptArray address (.negativeLength length))
  return (address, length.toNat)

theorem jsArrayHeader_eq (w : Word) :
    jsArrayHeader s w = .of do
      let (address, _) ← s.expectType w "JSArray" [s.layout.types.array]
      let length ← s.readSmallInt address ⟨"JSArray", "length"⟩
      if length < 0 then throw (.corruptArray address (.negativeLength length))
      return (address, length.toNat) := by
  rw [jsArrayHeader, expectType_eq]
  refine CheckedResult.of_bind fun (address, found) _ => ?_
  dsimp only
  rw [readSmallInt_eq]
  refine CheckedResult.of_bind fun length _ => ?_
  split <;> rfl

def loadArray (w : Word) (policy : AllocationPolicy) : CheckedLoading JSArray := do
  let (address, length) ← .ofResult (jsArrayHeader s w)
  if length = 0 then return { address, length, store := none }
  let elements ← .ofResult (readField s address ⟨"JSObject", "elements"⟩)
  let store ← loadFixedArray s elements policy
  return { address, length, store := some store }

theorem loadArray_eq (w : Word) (policy : AllocationPolicy) :
    loadArray s w policy = .of (JSArray.load s w policy) := by
  rw [loadArray, jsArrayHeader_eq]
  refine CheckedLoading.of_bind fun (address, length) _ _ _ => ?_
  dsimp only
  split
  · rfl
  · rw [readField_eq]
    refine CheckedLoading.of_bind fun elements _ _ _ => ?_
    rw [loadFixedArray_eq]
    exact CheckedLoading.of_bind fun store _ _ _ => rfl

/-! ## Contexts -/

def loadContext (w : Word) (policy : AllocationPolicy) : CheckedLoading Context := do
  let header ← .of (Loading.ofExcept (ContextHeader.ofLayout s.layout))
  let array ← loadArrayAs s w "Context" s.layout.types.context policy
  if header.fits array.size then return { array, header }
  else
    .of (Loading.release array.booked)
    throw (.corruptArray array.address .contextTooShort)

theorem loadContext_eq (w : Word) (policy : AllocationPolicy) :
    loadContext s w policy = .of (Context.load s w policy) := by
  unfold loadContext
  refine CheckedLoading.of_bind fun header _ _ _ => ?_
  rw [loadArrayAs_eq]
  refine CheckedLoading.of_bind fun array _ _ _ => ?_
  split
  · rfl
  · exact CheckedLoading.of_bind fun _ _ _ _ => rfl

end loads

/-! ## Looking at contexts -/

section contexts

variable {c : Context}

/-- The slot has to be one that the context has. -/
def contextSlot (c : Context) (index : Nat) : Checked Word := do
  assert (index < c.size)
  return c.slot index

theorem contextSlot_eq {index : Nat} (inside : index < c.size) :
    contextSlot c index = .ok (c.slot index) := by
  rw [contextSlot, assert_eq (decide_eq_true inside)]
  rfl

def staticSlots (c : Context) : Checked (List (String × Word)) :=
  c.header.labelled.mapM fun (label, index) => do return (label, ← contextSlot c index)

theorem staticSlots_eq (sound : c.Sound) : staticSlots c = .ok c.staticSlots := by
  refine mapM_eq fun (label, index) mem => ?_
  dsimp only
  rw [contextSlot_eq (sound.labelled_lt _ mem)]
  rfl

def valueAt (c : Context) (index : Nat) : CheckedResult Word := do
  if index < c.variableCount then
    let position ← (add index c.header.common : Checked Nat)
    let value ← contextSlot c position
    return value
  else throw (.indexOutOfRange index c.variableCount)

theorem valueAt_eq (sound : c.Sound) (index : Nat) : valueAt c index = .of (c.valueAt index) := by
  unfold valueAt Context.valueAt
  split
  · rename_i counted
    have inside : index + c.header.common < c.size := by
      unfold Context.variableCount at counted
      omega
    have inWord : index + c.header.common ≤ Word.top := by
      have := sound.size_le
      simp only [Word.signedTop, Word.top] at *
      omega
    rw [add_eq inWord, CheckedResult.lift_ok, CheckedResult.of_ok_bind, contextSlot_eq inside]
    rfl
  · rfl

def dynamicSlots (c : Context) : Checked (List (Nat × Word)) := do
  let values ← slice c.array.words.toList c.header.common c.size
  return values.zipIdx.map Prod.swap

theorem dynamicSlots_eq (sound : c.Sound) : dynamicSlots c = .ok c.dynamicSlots := by
  have whole : c.size = c.array.words.toList.length := Array.length_toList.symm
  rw [dynamicSlots, slice_eq sound.common_le (Nat.le_of_eq whole), ok_bind, Context.dynamicSlots,
    Array.toList_extract, List.extract_eq_take_drop, List.drop_take]
  rfl

/-- A context that no load has checked can end before its variables begin. -/
example : dynamicSlots
    { array := { address := 0, words := #[0], booked := 8 }
      header := { closure := 0, previous := 0, extension := 0, global := 0, common := 2 } } =
    .error .outOfRange := rfl

def valueOf (c : Context) (v : ScopeVar) : CheckedResult Word :=
  match v.contextIndex? with
  | some index => valueAt c index
  | none => throw (.indexOutOfRange v.ordinal 0)

theorem valueOf_eq (sound : c.Sound) (v : ScopeVar) : valueOf c v = .of (c.valueOf v) := by
  unfold valueOf Context.valueOf
  cases v.contextIndex? with
  | none => rfl
  | some index => exact valueAt_eq sound index

end contexts

end Checked

end Postmortem
