import Postmortem.Proofs.Checked.Objects
import Postmortem.Proofs.Closure

/-! # Contexts and their arrays

A context is loaded exactly where its array is and has all the slots that the layout's indices speak
of (`Context.load_eq_ok_iff`). Looking at a slot gives a word also where the array has none, so the
check at the load is what makes every look at a context one at its array: `Context.Faithful` says
what each look gives, and `Context.Sound.faithful` derives it from the check.

The slots are shown one by one as well. A visit calls the visitor on the items in order and on none
after the first at which it breaks off (`visit_calls`). -/

namespace Postmortem

/-! ## Visits -/

section visits

variable {α β σ : Type}

/-- The visitor goes on at each of the items, called in order. -/
def Passes (visitor : α → StateM σ (Flow β)) (items : List α) (before after : σ) : Prop :=
  (items.mapM visitor).run before = (List.replicate items.length .goOn, after)

/-- The visitor is called on the items in order, up to and including the first at which it breaks
off, and the outcome is that of the last call. -/
def CallsUpToBreak (visitor : α → StateM σ (Flow β)) (items : List α) (before : σ) :
    Flow β × σ → Prop
  | (.goOn, after) => Passes visitor items before after
  | (.broke value, after) => ∃ passed item rest between, items = passed ++ item :: rest ∧
      Passes visitor passed before between ∧
      (visitor item).run between = (.broke value, after)

variable {visitor : α → StateM σ (Flow β)} {item : α} {items : List α} {before between : σ}

theorem Passes.cons {after : σ} (first : (visitor item).run before = (.goOn, between))
    (passes : Passes visitor items between after) :
    Passes visitor (item :: items) before after := by
  unfold Passes at passes ⊢
  rw [List.mapM_cons, StateT.run_bind, first]
  change (items.mapM visitor >>= fun flows => pure (.goOn :: flows)).run between = _
  rw [StateT.run_bind, passes]
  rfl

theorem CallsUpToBreak.cons {outcome : Flow β × σ}
    (first : (visitor item).run before = (.goOn, between))
    (calls : CallsUpToBreak visitor items between outcome) :
    CallsUpToBreak visitor (item :: items) before outcome := by
  obtain ⟨flow, after⟩ := outcome
  cases flow with
  | goOn => exact Passes.cons first calls
  | broke value =>
    obtain ⟨passed, last, rest, mid, rfl, passes, breaks⟩ := calls
    exact ⟨item :: passed, last, rest, mid, rfl, passes.cons first, breaks⟩

/-- **A visit calls the visitor up to the first break,** and gives what that gave. -/
theorem visit_calls (visitor : α → StateM σ (Flow β)) (items : List α) (before : σ) :
    CallsUpToBreak visitor items before ((visit visitor items).run before) := by
  induction items generalizing before with
  | nil => rfl
  | cons item rest ih =>
    rw [visit, StateT.run_bind]
    rcases called : (visitor item).run before with ⟨flow, between⟩
    cases flow with
    | goOn => exact (ih between).cons called
    | broke value => exact ⟨[], item, rest, before, rfl, rfl, called⟩

end visits

/-! ## Headers -/

theorem requireIndex_eq_ok_iff {entry : FieldName} {index : Option UInt64} {n : Nat} :
    requireIndex entry index = .ok n ↔ index.map UInt64.toNat = some n := by
  cases index <;> simp [requireIndex]

theorem exists_of_requireIndex_eq_error {entry : FieldName} {index : Option UInt64}
    {e : DecodeError} (missing : requireIndex entry index = .error e) :
    ∃ entry, e = .missingConfiguration entry := by
  cases index with
  | none => exact ⟨entry, (Except.error.inj missing).symm⟩
  | some i => cases missing

namespace ContextHeader

/-- The header has the indices that the layout gives, and the layout gives all of them. -/
structure Configured (h : ContextHeader) (indices : ContextIndices) : Prop where
  closure : indices.closure.map UInt64.toNat = some h.closure
  previous : indices.previous.map UInt64.toNat = some h.previous
  extension : indices.extension.map UInt64.toNat = some h.extension
  global : indices.global.map UInt64.toNat = some h.global
  common : indices.common.map UInt64.toNat = some h.common

theorem ofLayout_eq_ok_iff {l : Layout} {h : ContextHeader} :
    ofLayout l = .ok h ↔ h.Configured l.context := by
  unfold ofLayout
  constructor
  · intro read
    obtain ⟨closure, isClosure, read⟩ := exists_of_bind_eq_ok read
    obtain ⟨previous, isPrevious, read⟩ := exists_of_bind_eq_ok read
    obtain ⟨extension, isExtension, read⟩ := exists_of_bind_eq_ok read
    obtain ⟨global, isGlobal, read⟩ := exists_of_bind_eq_ok read
    obtain ⟨common, isCommon, read⟩ := exists_of_bind_eq_ok read
    cases read
    exact ⟨requireIndex_eq_ok_iff.1 isClosure, requireIndex_eq_ok_iff.1 isPrevious,
      requireIndex_eq_ok_iff.1 isExtension, requireIndex_eq_ok_iff.1 isGlobal,
      requireIndex_eq_ok_iff.1 isCommon⟩
  · intro configured
    rw [bind_of_eq_ok (requireIndex_eq_ok_iff.2 configured.closure),
      bind_of_eq_ok (requireIndex_eq_ok_iff.2 configured.previous),
      bind_of_eq_ok (requireIndex_eq_ok_iff.2 configured.extension),
      bind_of_eq_ok (requireIndex_eq_ok_iff.2 configured.global),
      bind_of_eq_ok (requireIndex_eq_ok_iff.2 configured.common)]
    rfl

theorem exists_of_ofLayout_eq_error {l : Layout} {e : DecodeError} (failed : ofLayout l = .error e) :
    ∃ entry, e = .missingConfiguration entry := by
  unfold ofLayout at failed
  -- One after the other, the five indices.
  iterate 5
    rcases exists_of_bind_eq_error failed with missing | ⟨_, -, failed⟩
    · exact exists_of_requireIndex_eq_error missing
  cases failed

theorem not_fits_iff {h : ContextHeader} {size : Nat} :
    ¬ h.fits size ↔
      size < h.common ∨ ∃ index ∈ [h.closure, h.previous, h.extension, h.global], size ≤ index := by
  simp only [fits, labelled, List.all_cons, List.all_nil, Bool.and_true, Bool.and_eq_true,
    decide_eq_true_eq, List.mem_cons, List.not_mem_nil, or_false, exists_eq_or_imp,
    exists_eq_left]
  omega

end ContextHeader

namespace Context

/-- What is looked up in the context is in its array. -/
structure Faithful (c : Context) : Prop where
  closure : c.array.get? c.header.closure = some c.closure
  previous : c.array.get? c.header.previous = some c.previous
  extension : c.array.get? c.header.extension = some c.extension
  global : c.array.get? c.header.global = some c.global
  staticSlots : c.staticSlots = [("closure function", c.closure), ("previous context", c.previous),
    ("extension", c.extension), ("global object", c.global)]
  variableCount : c.header.common + c.variableCount = c.array.size
  valueAt : ∀ i < c.variableCount, ∃ value, c.array.get? (c.header.common + i) = some value ∧
    c.valueAt i = .ok value
  valueAt_beyond : ∀ i, c.variableCount ≤ i →
    c.valueAt i = .error (.indexOutOfRange i c.variableCount)
  dynamicSlots : c.dynamicSlots.map (fun (i, value) => (i, .ok value)) =
    (List.range c.variableCount).map fun i => (i, c.valueAt i)

theorem get?_eq_some_slot {c : Context} {index : Nat} (inside : index < c.size) :
    c.array.get? index = some (c.slot index) := by
  have here : c.array.get? index = some c.array.words[index] := Array.getElem?_eq_getElem inside
  rw [slot, here]
  rfl

namespace Sound

variable {c : Context}

theorem get?_of_mem (sound : c.Sound) {label : String} {index : Nat}
    (mem : (label, index) ∈ c.header.labelled) : c.array.get? index = some (c.slot index) :=
  get?_eq_some_slot (sound.labelled_lt _ mem)

theorem common_add_variableCount (sound : c.Sound) :
    c.header.common + c.variableCount = c.array.size :=
  Nat.add_sub_cancel' sound.common_le

theorem valueAt (sound : c.Sound) {i : Nat} (inside : i < c.variableCount) :
    ∃ value, c.array.get? (c.header.common + i) = some value ∧ c.valueAt i = .ok value := by
  have here : c.header.common + i < c.size := by
    have whole := sound.common_add_variableCount
    unfold Context.size
    omega
  exact ⟨_, get?_eq_some_slot here, by rw [Context.valueAt, if_pos inside, Nat.add_comm]⟩

theorem dynamicSlots (sound : c.Sound) :
    c.dynamicSlots.map (fun (i, value) => (i, .ok value)) =
      (List.range c.variableCount).map fun i => (i, c.valueAt i) := by
  have counted : min c.size c.array.words.size - c.header.common = c.variableCount := by
    have same : c.array.words.size = c.size := rfl
    rw [same, Nat.min_self, Context.variableCount]
  refine List.ext_getElem? fun i => ?_
  simp only [Context.dynamicSlots, List.map_map, List.getElem?_map, List.getElem?_zipIdx,
    Array.getElem?_toList, Array.getElem?_extract, counted]
  by_cases inside : i < c.variableCount
  · obtain ⟨value, here, found⟩ := sound.valueAt inside
    have slot : c.array.words[c.header.common + i]? = some value := here
    simp [found, slot, inside]
  · simp [inside]

/-- **Every look at a loaded context is one at its array.** -/
theorem faithful (sound : c.Sound) : c.Faithful where
  closure := sound.get?_of_mem (.head _)
  previous := sound.get?_of_mem (.tail _ (.head _))
  extension := sound.get?_of_mem (.tail _ (.tail _ (.head _)))
  global := sound.get?_of_mem (.tail _ (.tail _ (.tail _ (.head _))))
  staticSlots := rfl
  variableCount := sound.common_add_variableCount
  valueAt _ inside := sound.valueAt inside
  valueAt_beyond _ beyond := if_neg (Nat.not_lt.2 beyond)
  dynamicSlots := sound.dynamicSlots

end Sound

/-! ## Loads -/

section loads

variable {s : Snapshot} {w : Word} {policy : AllocationPolicy} {b b' mid : Budget}
  {h : ContextHeader} {a : FixedArray}

/-- Where the array is loaded, the check for its length decides. -/
theorem load_of_loadAs (configured : h.Configured s.layout.context)
    (loaded : (FixedArray.loadAs s w "Context" s.layout.types.context policy).runFrom b =
      (.ok a, mid)) :
    (load s w policy).runFrom b =
      if h.fits a.size then (.ok ⟨a, h⟩, mid)
      else (.error (.corruptArray a.address .contextTooShort), mid.release a.booked) := by
  rw [load, Loading.runFrom_ofExcept_bind (ContextHeader.ofLayout_eq_ok_iff.2 configured),
    Loading.runFrom_bind_of_eq_ok loaded]
  split <;> rfl

/-- Where the array is not loaded, neither is the context. -/
theorem load_of_loadAs_error (configured : h.Configured s.layout.context) {e : DecodeError}
    (failed : (FixedArray.loadAs s w "Context" s.layout.types.context policy).runFrom b =
      (.error e, mid)) :
    (load s w policy).runFrom b = (.error e, mid) := by
  rw [load, Loading.runFrom_ofExcept_bind (ContextHeader.ofLayout_eq_ok_iff.2 configured),
    Loading.runFrom_bind, failed]

/-- Where an index is missing, nothing is read. -/
theorem load_of_not_configured (missing : ¬ ∃ h : ContextHeader, h.Configured s.layout.context) :
    ∃ entry, (load s w policy).runFrom b = (.error (.missingConfiguration entry), b) := by
  cases read : ContextHeader.ofLayout s.layout with
  | ok h => exact absurd ⟨h, ContextHeader.ofLayout_eq_ok_iff.1 read⟩ missing
  | error e =>
    obtain ⟨entry, rfl⟩ := ContextHeader.exists_of_ofLayout_eq_error read
    exact ⟨entry, by rw [load, Loading.runFrom_bind, Loading.runFrom_ofExcept, read]⟩

/-- **A context is loaded exactly where** the layout has its indices, its array is loaded and the
array has all of its slots. -/
theorem load_eq_ok_iff {c : Context} :
    (load s w policy).runFrom b = (.ok c, b') ↔
      c.header.Configured s.layout.context ∧
      (FixedArray.loadAs s w "Context" s.layout.types.context policy).runFrom b =
        (.ok c.array, b') ∧
      c.header.fits c.size := by
  constructor
  · intro loaded
    obtain ⟨header, read, rest⟩ := Loading.exists_of_runFrom_ofExcept_bind loaded
    obtain ⟨array, mid, there, rest⟩ := Loading.exists_of_runFrom_bind rest
    split at rest
    · rename_i fits
      cases rest
      exact ⟨ContextHeader.ofLayout_eq_ok_iff.1 read, there, fits⟩
    · obtain ⟨_, left, -, failed⟩ := Loading.exists_of_runFrom_bind rest
      cases failed
  · rintro ⟨configured, there, fits⟩
    exact (load_of_loadAs configured there).trans (if_pos fits)

end loads

/-- **No context invents a slot.** Whatever the layout's indices are, a loaded context is the array
that the word points to, and every look at it is one at its array: the static slots are those at the
layout's indices, and the variables are the slots from `common` on, each once and in order. A visit
calls the visitor on these up to the first break. And where the array is loaded, the context is
refused as too short if and only if the array lacks a slot that an index speaks of or has fewer than
`common`; the storage is given back then. Any other failure is that of the array, or an index is
missing. -/
theorem load_faithful (s : Snapshot) (w : Word) (policy : AllocationPolicy) (b : Budget) :
    let array := (FixedArray.loadAs s w "Context" s.layout.types.context policy).runFrom b
    let outcome := (load s w policy).runFrom b
    (∀ c b', outcome = (.ok c, b') →
      array = (.ok c.array, b') ∧ c.header.Configured s.layout.context ∧ c.Faithful ∧
      ∀ (σ β : Type) (before : σ),
        (∀ visitor : String × Word → StateM σ (Flow β),
          CallsUpToBreak visitor c.staticSlots before ((c.visitStatic visitor).run before)) ∧
        (∀ visitor : Nat × Word → StateM σ (Flow β),
          CallsUpToBreak visitor c.dynamicSlots before ((c.visitDynamic visitor).run before))) ∧
    (∀ h : ContextHeader, h.Configured s.layout.context →
      (∀ a mid, array = (.ok a, mid) →
        let short := a.size < h.common ∨
          ∃ index ∈ [h.closure, h.previous, h.extension, h.global], a.size ≤ index
        ((∃ address flaw b', outcome = (.error (.corruptArray address flaw), b')) ↔ short) ∧
        (short → outcome =
          (.error (.corruptArray a.address .contextTooShort), mid.release a.booked)) ∧
        (¬ short → outcome = (.ok ⟨a, h⟩, mid))) ∧
      (∀ e mid, array = (.error e, mid) → outcome = (.error e, mid))) ∧
    ((¬ ∃ h : ContextHeader, h.Configured s.layout.context) →
      ∃ entry, outcome = (.error (.missingConfiguration entry), b)) := by
  intro array outcome
  refine ⟨fun c b' loaded => ?looks, fun h configured => ⟨fun a mid there => ?lengths,
    fun e mid failed => load_of_loadAs_error configured failed⟩, load_of_not_configured⟩
  case looks =>
    obtain ⟨configured, there, -⟩ := load_eq_ok_iff.1 loaded
    exact ⟨there, configured, (sound_of_load loaded).faithful, fun σ β before =>
      ⟨fun visitor => visit_calls visitor _ before, fun visitor => visit_calls visitor _ before⟩⟩
  case lengths =>
    intro short
    have decided : outcome = _ := load_of_loadAs configured there
    have refused (isShort : short) : outcome =
        (.error (.corruptArray a.address .contextTooShort), mid.release a.booked) :=
      decided.trans (if_neg (ContextHeader.not_fits_iff.2 isShort))
    have accepted (whole : ¬ short) : outcome = (.ok ⟨a, h⟩, mid) :=
      decided.trans (if_pos (Decidable.byContradiction fun unfit =>
        whole (ContextHeader.not_fits_iff.1 unfit)))
    refine ⟨⟨?_, fun isShort => ⟨_, _, _, refused isShort⟩⟩, refused, accepted⟩
    rintro ⟨address, flaw, b', failed⟩
    refine Decidable.byContradiction fun whole => ?_
    rw [accepted whole] at failed
    cases failed

end Context

/-! ## A sample

The context of the sample's closure, under other indices. -/

/-- Arrays are loaded alike whatever the indices of contexts are. -/
theorem FixedArray.loadAs_withContext (s : Snapshot) (indices : ContextIndices) (w : Word)
    (expected : String) (alternative : Option UInt8) (policy : AllocationPolicy) :
    loadAs { s with layout := { s.layout with context := indices } } w expected
      alternative policy = loadAs s w expected alternative policy := rfl

namespace Sample

/-- The heap of the closure under other indices for its contexts. -/
def contextHeap (indices : ContextIndices) : Snapshot :=
  { closureHeap 1 with layout := { (closureHeap 1).layout with context := indices } }

theorem loadAs_contextHeap (indices : ContextIndices) :
    (FixedArray.loadAs (contextHeap indices) 0x10a1 "Context" none .blocking).runFrom .unlimited =
      (.ok (.copy 0x10a0 closure.contextSlots),
        Budget.unlimited.booking (FixedArray.copy 0x10a0 closure.contextSlots).booked) := by
  have loaded := holds_contextSlots.loadAs (w := 0x10a1) rfl (by decide)
    (b := .unlimited) ⟨by decide, by decide⟩ "Context"
  rwa [← FixedArray.loadAs_withContext _ indices] at loaded

end Sample

/-- Indices that are out of order, that share a slot or that name a variable's slot give that slot,
and a context of six slots has none at index six. Without an index nothing is loaded, and no small
integer is a context. -/
theorem Context.load_rearranged :
    let loads (indices : ContextIndices) (w : Word) :=
      (load (Sample.contextHeap indices) w .blocking).runFrom .unlimited
    (∃ c b', loads ⟨some 5, some 0, some 0, some 4, some 2⟩ 0x10a1 = (.ok c, b') ∧
      c.closure = 0x3001 ∧ c.previous = 0x1021 ∧ c.extension = 0x1021 ∧
      c.global = Sample.small 7 ∧ c.variableCount = 4 ∧ c.valueAt 3 = .ok 0x3001 ∧
      c.valueAt 4 = .error (.indexOutOfRange 4 4)) ∧
    (∃ b', loads ⟨some 6, some 1, some 2, some 3, some 4⟩ 0x10a1 =
      (.error (.corruptArray 0x10a0 .contextTooShort), b')) ∧
    loads ⟨some 6, some 1, some 2, some 3, some 4⟩ 0 = (.error (.notHeapPointer 0), .unlimited) ∧
    ∃ entry, loads ⟨some 0, none, some 2, some 3, some 4⟩ 0x10a1 =
      (.error (.missingConfiguration entry), .unlimited) := by
  intro loads
  refine ⟨?_, ?_, ?_, ?_⟩
  · obtain ⟨looks, lengths, -⟩ := load_faithful
      (Sample.contextHeap ⟨some 5, some 0, some 0, some 4, some 2⟩) 0x10a1 .blocking .unlimited
    obtain ⟨-, -, accepted⟩ := (lengths ⟨5, 0, 0, 4, 2⟩ ⟨rfl, rfl, rfl, rfl, rfl⟩).1 _ _
      (Sample.loadAs_contextHeap _)
    have loaded := accepted (by decide)
    obtain ⟨-, -, faithful, -⟩ := looks _ _ loaded
    -- Four variables come after the two slots that the layout calls common.
    obtain ⟨value, here, found⟩ := faithful.valueAt 3 (by decide)
    cases here
    exact ⟨_, _, loaded, Option.some.inj faithful.closure.symm,
      Option.some.inj faithful.previous.symm, Option.some.inj faithful.extension.symm,
      Option.some.inj faithful.global.symm, Nat.add_left_cancel faithful.variableCount, found,
      faithful.valueAt_beyond 4 (by decide)⟩
  · obtain ⟨-, lengths, -⟩ := load_faithful
      (Sample.contextHeap ⟨some 6, some 1, some 2, some 3, some 4⟩) 0x10a1 .blocking .unlimited
    obtain ⟨-, refused, -⟩ := (lengths ⟨6, 1, 2, 3, 4⟩ ⟨rfl, rfl, rfl, rfl, rfl⟩).1 _ _
      (Sample.loadAs_contextHeap _)
    exact ⟨_, refused (by decide)⟩
  · obtain ⟨-, lengths, -⟩ := load_faithful
      (Sample.contextHeap ⟨some 6, some 1, some 2, some 3, some 4⟩) 0 .blocking .unlimited
    exact (lengths ⟨6, 1, 2, 3, 4⟩ ⟨rfl, rfl, rfl, rfl, rfl⟩).2 _ _ rfl
  · obtain ⟨-, -, unconfigured⟩ := load_faithful
      (Sample.contextHeap ⟨some 0, none, some 2, some 3, some 4⟩) 0x10a1 .blocking .unlimited
    refine unconfigured ?_
    rintro ⟨h, configured⟩
    cases configured.previous

end Postmortem
