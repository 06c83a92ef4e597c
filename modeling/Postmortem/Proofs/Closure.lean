import Postmortem.JSFunction
import Postmortem.Layout.Validity
import Postmortem.Proofs.ScopeInfo.Regions

/-! # Closures in memory

A `StoredClosure` lists what the heap holds for a closure: the names of its variables, the values of
those that it captured, and the slots around them in the scope info and in the context.
`Snapshot.HoldsClosure` says that it lies in the target's memory: a function, what its closures
share, and the two arrays.

`HoldsClosure.reconstruct` reads it back. The regions of the scope info start where the names were
put (`StoredClosure.getElem?_scopeSlots`), so every variable gets its own name, and every context
local its own value. -/

namespace Postmortem

/-- What the heap holds for a closure. -/
structure StoredClosure where
  /-- The slots of the scope info before the first name. -/
  header : List Word
  names : VarKind → List Word
  /-- The slots of the scope info before the names of the stack locals. -/
  gap : List Word
  /-- The slots of the context before the first value. -/
  statics : List Word
  values : List Word

namespace StoredClosure

variable (e : StoredClosure)

/-- The slots of the scope info before the names of a kind. -/
def before : VarKind → List Word
  | .parameter => e.header
  | .stackLocal => e.header ++ e.names .parameter ++ e.gap
  | .contextLocal => e.header ++ e.names .parameter ++ e.gap ++ e.names .stackLocal

/-- The slots of the scope info. -/
def scopeSlots : List Word :=
  e.header ++ e.names .parameter ++ e.gap ++ e.names .stackLocal ++ e.names .contextLocal

/-- The slots of the context. -/
def contextSlots : List Word := e.statics ++ e.values

/-- The slots are as the headers and the tags say. -/
structure WellFormed (tags : TagScheme) (h : ScopeInfoHeader) (k : ContextHeader) : Prop where
  header_length : e.header.length = h.firstName
  gap_length : e.gap.length = h.stackLocalHeader
  /-- The header counts the names of each kind. -/
  counts : ∀ kind, ∃ w, e.header[h.countSlot kind]? = some w ∧
    tags.classify w = .smallInt (e.names kind).length
  statics_length : e.statics.length = k.common
  static_lt : ∀ slot ∈ k.labelled, slot.2 < k.common
  values_length : e.values.length = (e.names .contextLocal).length

theorem exists_scopeSlots_eq (kind : VarKind) :
    ∃ after, e.scopeSlots = e.before kind ++ (e.names kind ++ after) := by
  cases kind with
  | parameter => exact ⟨e.gap ++ e.names .stackLocal ++ e.names .contextLocal, by
      simp [scopeSlots, before]⟩
  | stackLocal => exact ⟨e.names .contextLocal, by simp [scopeSlots, before]⟩
  | contextLocal => exact ⟨[], by simp [scopeSlots, before]⟩

theorem getElem?_scopeSlots (kind : VarKind) {n : Nat} (inside : n < (e.names kind).length) :
    e.scopeSlots[(e.before kind).length + n]? = (e.names kind)[n]? := by
  obtain ⟨after, slots⟩ := e.exists_scopeSlots_eq kind
  rw [slots, List.getElem?_append_right (Nat.le_add_right _ _), Nat.add_sub_cancel_left,
    List.getElem?_append_left inside]

theorem before_le (kind : VarKind) :
    (e.before kind).length + (e.names kind).length ≤ e.scopeSlots.length := by
  obtain ⟨after, slots⟩ := e.exists_scopeSlots_eq kind
  rw [slots, List.length_append, List.length_append]
  omega

end StoredClosure

namespace Snapshot

/-- A field of an object points to the object at `target`. -/
def HoldsPointer (s : Snapshot) (object : Word) (field : FieldName) (target : Word) : Prop :=
  ∃ w, s.HoldsField object field w ∧ s.objectAddress w = .ok target

/-- A closure lies in memory: the function at `address`, what its closures share, the scope info and
the context. -/
structure HoldsClosure (s : Snapshot) (address : Word) (h : ScopeInfoHeader) (k : ContextHeader)
    (e : StoredClosure) : Prop where
  type : s.HoldsType address [s.layout.types.function]
  scopeInfo : ∃ shared target, s.HoldsPointer address ⟨"JSFunction", "shared"⟩ shared ∧
    s.HoldsPointer shared JSFunction.scopeInfoField target ∧
    s.HoldsArray target s.layout.types.scopeInfo e.scopeSlots
  context : ∃ target, s.HoldsPointer address ⟨"JSFunction", "context"⟩ target ∧
    s.HoldsArray target s.layout.types.context e.contextSlots
  scopeInfoHeader : ScopeInfoHeader.ofLayout s.layout = .ok h
  contextHeader : ContextHeader.ofLayout s.layout = .ok k
  wellFormed : e.WellFormed s.layout.tags h k
  /-- The context points back to the function. -/
  closure : ∃ w, e.statics[k.closure]? = some w ∧ s.objectAddress w = .ok address

theorem HoldsArray.length_le {s : Snapshot} {address : Word} {alternative : Option UInt8}
    {words : List Word} (held : s.HoldsArray address alternative words) :
    words.length ≤ Word.signedTop := by
  obtain ⟨w, -, classified⟩ := held.length
  have decoded := TagScheme.decode_of_classify _ classified
  have bound := s.layout.tags.decode_le w
  omega

theorem HoldsType.isNone_eq_false {s : Snapshot} {object : Word} {accepted : Option UInt8}
    (held : s.HoldsType object [accepted]) : accepted.isNone = false := by
  obtain ⟨typeByte, -, mem⟩ := typeByte_of_holds held
  rw [← List.mem_singleton.1 mem]
  rfl

theorem HoldsPointer.isNone_offset? {s : Snapshot} {object target : Word} {field : FieldName}
    (held : s.HoldsPointer object field target) : (s.layout.offset? field).isNone = false := by
  obtain ⟨w, ⟨address, found, -⟩, -⟩ := held
  unfold fieldAddress at found
  split at found
  · cases found
  · rename_i offset configured
    rw [configured]
    rfl

end Snapshot

/-! ## Loads -/

variable {s : Snapshot} {w address : Word} {words : List Word} {b : Budget}

theorem ScopeInfo.load_of_holds {h : ScopeInfoHeader}
    (described : ScopeInfoHeader.ofLayout s.layout = .ok h)
    (pointer : s.objectAddress w = .ok address)
    (held : s.HoldsArray address s.layout.types.scopeInfo words) (nonempty : words ≠ [])
    (flawless : flaw? s.layout.tags h (.copy address words) = none)
    (grants : b.Grants words.length) :
    (load s w .blocking).runFrom b =
      (.ok { array := .copy address words, header := h, tags := s.layout.tags },
        b.booking (FixedArray.copy address words).booked) := by
  rw [load, Loading.runFrom_ofExcept_bind described,
    Loading.runFrom_bind_of_eq_ok (held.loadAs pointer nonempty grants "ScopeInfo"), flawless]
  rfl

theorem Context.load_of_holds {k : ContextHeader}
    (described : ContextHeader.ofLayout s.layout = .ok k)
    (pointer : s.objectAddress w = .ok address)
    (held : s.HoldsArray address s.layout.types.context words) (nonempty : words ≠ [])
    (fits : k.fits words.length = true) (grants : b.Grants words.length) :
    (load s w .blocking).runFrom b =
      (.ok { array := .copy address words, header := k },
        b.booking (FixedArray.copy address words).booked) := by
  rw [load, Loading.runFrom_ofExcept_bind described,
    Loading.runFrom_bind_of_eq_ok (held.loadAs pointer nonempty grants "Context"),
    FixedArray.size_copy, if_pos fits]
  rfl

theorem JSFunction.load_of_holds {shared : Word}
    (type : s.HoldsType address [s.layout.types.function])
    (field : s.HoldsField address ⟨"JSFunction", "shared"⟩ shared)
    (pointer : s.objectAddress w = .ok address) (policy : AllocationPolicy) :
    load s w policy = .ok { address, shared, policy } := by
  obtain ⟨typeByte, typed⟩ := Snapshot.expectType_of_holds pointer type "JSFunction"
  rw [load, type.isNone_eq_false, if_neg Bool.false_ne_true, bind_of_eq_ok typed]
  dsimp only
  rw [bind_of_eq_ok (Snapshot.readField_of_holds field)]
  rfl

theorem JSFunction.scopeInfo_of_holds {f : JSFunction} {shared info : Word}
    (pointer : s.objectAddress f.shared = .ok shared)
    (held : s.HoldsPointer shared scopeInfoField info) :
    ∃ w, s.objectAddress w = .ok info ∧
      ∀ b, (f.scopeInfo s .blocking).runFrom b = (ScopeInfo.load s w .blocking).runFrom b := by
  have configured := held.isNone_offset?
  obtain ⟨w, field, target⟩ := held
  refine ⟨w, target, fun b => ?_⟩
  rw [scopeInfo]
  refine Loading.runFrom_ofExcept_bind ?_ _
  rw [configured, if_neg Bool.false_ne_true, bind_of_eq_ok pointer]
  exact Snapshot.readField_of_holds field

theorem JSFunction.context_of_holds {f : JSFunction} {target : Word}
    (held : s.HoldsPointer f.address ⟨"JSFunction", "context"⟩ target) :
    ∃ w, s.objectAddress w = .ok target ∧
      ∀ b, (f.context s .blocking).runFrom b = (Context.load s w .blocking).runFrom b := by
  obtain ⟨w, field, pointer⟩ := held
  refine ⟨w, pointer, fun b => ?_⟩
  rw [context, Loading.runFrom_ofExcept_bind (Snapshot.readField_of_holds field)]

/-! ## Reconstruction -/

namespace StoredClosure.WellFormed

variable {e : StoredClosure} {tags : TagScheme} {h : ScopeInfoHeader} {k : ContextHeader}

theorem countSlot (wf : e.WellFormed tags h k) (kind : VarKind) :
    ∃ w, e.scopeSlots[h.countSlot kind]? = some w ∧
      tags.classify w = .smallInt (e.names kind).length := by
  obtain ⟨w, found, classified⟩ := wf.counts kind
  obtain ⟨after, slots⟩ := e.exists_scopeSlots_eq .parameter
  have inside : h.countSlot kind < e.header.length := (List.getElem?_eq_some_iff.1 found).1
  refine ⟨w, ?_, classified⟩
  rw [slots, before, List.getElem?_append_left inside]
  exact found

theorem flaw?_eq_none (wf : e.WellFormed tags h k) (address : Word) :
    ScopeInfo.flaw? tags h (.copy address e.scopeSlots) = none := by
  refine ScopeInfo.flaw?_eq_none.2 ⟨?_, fun kind => ?_⟩
  · have first := e.before_le .parameter
    rw [before, wf.header_length] at first
    rw [FixedArray.size_copy]
    omega
  · obtain ⟨w, found, classified⟩ := wf.countSlot kind
    refine ⟨(List.getElem?_eq_some_iff.1 found).1, ?_⟩
    simp [ScopeInfo.isCount, found, classified]

theorem scopeSlots_ne_nil (wf : e.WellFormed tags h k) : e.scopeSlots ≠ [] := by
  obtain ⟨w, found, -⟩ := wf.countSlot .parameter
  intro empty
  rw [empty] at found
  cases found

theorem contextSlots_ne_nil (wf : e.WellFormed tags h k) : e.contextSlots ≠ [] := by
  have inside := wf.static_lt ("closure function", k.closure) List.mem_cons_self
  rw [← wf.statics_length] at inside
  have statics : e.statics ≠ [] := List.ne_nil_of_length_pos (by omega)
  exact List.append_ne_nil_of_left_ne_nil statics e.values

theorem fits (wf : e.WellFormed tags h k) : k.fits e.contextSlots.length = true := by
  have size : k.common ≤ e.contextSlots.length := by
    rw [contextSlots, List.length_append, wf.statics_length]
    omega
  have inside : k.labelled.all (·.2 < e.contextSlots.length) = true := by
    rw [List.all_eq_true]
    intro slot mem
    exact decide_eq_true (Nat.lt_of_lt_of_le (wf.static_lt slot mem) size)
  rw [ContextHeader.fits, inside, decide_eq_true size]
  rfl

end StoredClosure.WellFormed

namespace StoredClosure

variable (e : StoredClosure) (tags : TagScheme) (h : ScopeInfoHeader) (k : ContextHeader)

/-- The scope info of the closure, loaded from `address`. -/
def scopeInfo (address : Word) : ScopeInfo where
  array := .copy address e.scopeSlots
  header := h
  tags := tags

/-- The context of the closure, loaded from `address`. -/
def context (address : Word) : Context where
  array := .copy address e.contextSlots
  header := k

variable {e tags h k}

theorem count_scopeInfo (wf : e.WellFormed tags h k) (address : Word) (kind : VarKind) :
    (e.scopeInfo tags h address).count kind = (e.names kind).length := by
  obtain ⟨w, found, classified⟩ := wf.countSlot kind
  have decoded := TagScheme.decode_of_classify _ classified
  simp [ScopeInfo.count, scopeInfo, found, decoded]

theorem regionStart_scopeInfo (wf : e.WellFormed tags h k) (address : Word) (kind : VarKind) :
    (e.scopeInfo tags h address).regionStart kind = (e.before kind).length := by
  have first : (e.scopeInfo tags h address).header.firstName = e.header.length :=
    wf.header_length.symm
  have gap : (e.scopeInfo tags h address).header.stackLocalHeader = e.gap.length :=
    wf.gap_length.symm
  cases kind <;>
    simp only [ScopeInfo.regionStart, before, first, gap, count_scopeInfo wf, List.length_append]

theorem items_scopeInfo (wf : e.WellFormed tags h k) (inWord : e.scopeSlots.length ≤ Word.top)
    (address : Word) (kind : VarKind) :
    ((e.scopeInfo tags h address).vars kind).items = (List.range (e.names kind).length).map fun n =>
      .ok { kind, ordinal := n, slot := (e.before kind).length + n } := by
  have size : (e.scopeInfo tags h address).size = e.scopeSlots.length := rfl
  have fits : (e.scopeInfo tags h address).regionStart kind +
      (e.scopeInfo tags h address).count kind ≤ (e.scopeInfo tags h address).size := by
    rw [regionStart_scopeInfo wf, count_scopeInfo wf, size]
    exact e.before_le kind
  rw [ScopeInfo.items_vars (by rwa [size]), ScopeInfo.listing_of_fits fits, count_scopeInfo wf,
    regionStart_scopeInfo wf]

theorem map_range_length {words : List Word} {f : Nat → Except DecodeError Word}
    (h : ∀ n, (inside : n < words.length) → f n = .ok words[n]) :
    (List.range words.length).map f = words.map .ok := by
  apply List.ext_getElem
  · simp
  · intro n inside _
    rw [List.length_map, List.length_range] at inside
    simpa using h n inside

/-- Every variable gets its own name. -/
theorem names_scopeInfo (wf : e.WellFormed tags h k) (inWord : e.scopeSlots.length ≤ Word.top)
    (address : Word) (kind : VarKind) :
    ((e.scopeInfo tags h address).vars kind).items.map
      (Except.map (e.scopeInfo tags h address).nameOf) = (e.names kind).map .ok := by
  rw [items_scopeInfo wf inWord, List.map_map]
  apply map_range_length
  intro n inside
  have name := e.getElem?_scopeSlots kind inside
  rw [List.getElem?_eq_getElem inside] at name
  simp [Except.map, ScopeInfo.nameOf, scopeInfo, name]

theorem valueAt_context (wf : e.WellFormed tags h k) (address : Word) {n : Nat}
    (inside : n < e.values.length) : (e.context k address).valueAt n = .ok e.values[n] := by
  have count : (e.context k address).variableCount = e.values.length := by
    simp [Context.variableCount, Context.size, context, contextSlots, wf.statics_length]
  have slot : (e.context k address).slot (n + k.common) = e.values[n] := by
    simp only [Context.slot, context, contextSlots, ← wf.statics_length, FixedArray.get?_copy]
    rw [List.getElem?_append_right (Nat.le_add_left _ _), Nat.add_sub_cancel,
      List.getElem?_eq_getElem inside, Option.getD_some]
  rw [Context.valueAt, count, if_pos inside]
  exact congrArg _ slot

theorem closure_context {w : Word} (address : Word) (found : e.statics[k.closure]? = some w) :
    (e.context k address).closure = w := by
  have inside := (List.getElem?_eq_some_iff.1 found).1
  simp [Context.closure, Context.slot, context, contextSlots, List.getElem?_append_left inside,
    found]

/-- Every context local gets its own value. -/
theorem values_context (wf : e.WellFormed tags h k) (inWord : e.scopeSlots.length ≤ Word.top)
    (address address' : Word) :
    ((e.scopeInfo tags h address).vars .contextLocal).items.map
      (· >>= (e.context k address').valueOf) = e.values.map .ok := by
  rw [items_scopeInfo wf inWord, List.map_map, ← wf.values_length]
  apply map_range_length
  intro n inside
  exact valueAt_context wf address' inside

end StoredClosure

theorem Context.valueOf_of_ne (c : Context) {v : ScopeVar} (other : v.kind ≠ .contextLocal) :
    c.valueOf v = .error (.indexOutOfRange v.ordinal 0) := by
  rw [valueOf, ScopeVar.contextIndex?, if_neg other]

namespace Snapshot.HoldsClosure

variable {h : ScopeInfoHeader} {k : ContextHeader} {e : StoredClosure}

/-- Every word that points to the function gives the same closure, and from it the context and the
scope info are loaded as they were stored. -/
theorem exists_loads (held : s.HoldsClosure address h k e) :
    ∃ f place target, (∀ w, s.objectAddress w = .ok address →
        JSFunction.load s w .blocking = .ok f) ∧
      (∀ b, b.Grants e.contextSlots.length → (f.context s .blocking).runFrom b =
        (.ok (e.context k place), b.booking (e.context k place).array.booked)) ∧
      ∀ b, b.Grants e.scopeSlots.length → (f.scopeInfo s .blocking).runFrom b =
        (.ok (e.scopeInfo s.layout.tags h target),
          b.booking (e.scopeInfo s.layout.tags h target).array.booked) := by
  have wf := held.wellFormed
  obtain ⟨info, target, ⟨shared, field, toInfo⟩, toScopeInfo, scopeSlots⟩ := held.scopeInfo
  obtain ⟨place, toContext, contextSlots⟩ := held.context
  refine ⟨⟨address, shared, .blocking⟩, place, target, ?function, ?context, ?scopeInfo⟩
  case function =>
    intro w pointer
    exact JSFunction.load_of_holds held.type field pointer .blocking
  case context =>
    intro b grants
    obtain ⟨w, pointer, run⟩ :=
      JSFunction.context_of_holds (f := ⟨address, shared, .blocking⟩) toContext
    rw [run b]
    exact Context.load_of_holds held.contextHeader pointer contextSlots wf.contextSlots_ne_nil
      wf.fits grants
  case scopeInfo =>
    intro b grants
    obtain ⟨w, pointer, run⟩ :=
      JSFunction.scopeInfo_of_holds (f := ⟨address, shared, .blocking⟩) toInfo toScopeInfo
    rw [run b]
    exact ScopeInfo.load_of_holds held.scopeInfoHeader pointer scopeSlots wf.scopeSlots_ne_nil
      (wf.flaw?_eq_none target) grants

/-- **A closure is read back as it was stored.** The function is loaded, and its context and its
scope info under the policy `blocking` from every budget that grants the copies; the scope info also
through the closure that the context points to. Each kind is listed without an error, and its
variables have the names that were stored for them. The context has the values that were stored for
its locals, in order, and none for a variable of another kind. -/
theorem reconstruct (held : s.HoldsClosure address h k e)
    (pointer : s.objectAddress w = .ok address) :
    ∃ f c i, JSFunction.load s w .blocking = .ok f ∧
      (∀ b, b.Grants e.contextSlots.length →
        (f.context s .blocking).runFrom b = (.ok c, b.booking c.array.booked)) ∧
      (∀ b, b.Grants e.scopeSlots.length →
        (f.scopeInfo s .blocking).runFrom b = (.ok i, b.booking i.array.booked) ∧
        (c.scopeInfo s .blocking).runFrom b = (.ok i, b.booking i.array.booked)) ∧
      (∀ kind, (i.vars kind).items.map (Except.map i.nameOf) = (e.names kind).map .ok) ∧
      (i.vars .contextLocal).items.map (· >>= c.valueOf) = e.values.map .ok ∧
      ∀ v : ScopeVar, v.kind ≠ .contextLocal →
        c.valueOf v = .error (.indexOutOfRange v.ordinal 0) := by
  have wf := held.wellFormed
  obtain ⟨info, array, -, -, slots⟩ := held.scopeInfo
  have inWord : e.scopeSlots.length ≤ Word.top := Nat.le_trans slots.length_le (by decide)
  obtain ⟨back, closure, pointsBack⟩ := held.closure
  obtain ⟨f, place, target, loads, context, scopeInfo⟩ := held.exists_loads
  refine ⟨f, e.context k place, e.scopeInfo s.layout.tags h target, loads w pointer, context,
    ?scopeInfo, ?names, ?values, ?others⟩
  case scopeInfo =>
    intro b grants
    refine ⟨scopeInfo b grants, ?_⟩
    -- The context's word for the function need not be `w`, but both point to the same object.
    rw [Context.scopeInfo, StoredClosure.closure_context place closure,
      Loading.runFrom_ofExcept_bind (loads back pointsBack)]
    exact scopeInfo b grants
  case names => exact StoredClosure.names_scopeInfo wf inWord target
  case values => exact StoredClosure.values_context wf inWord target place
  case others => exact fun v => (e.context k place).valueOf_of_ne

end Snapshot.HoldsClosure

/-! ## A sample

The closure in the sample heap. -/

namespace Sample

/-- The closure of the sample: one parameter, one stack local and two context locals. -/
def closure : StoredClosure where
  header := [0, small 1, small 1, small 2]
  names
    | .parameter => [0x2001]
    | .stackLocal => [0x2011]
    | .contextLocal => [0x2021, 0x2031]
  gap := [0]
  statics := [0x1021, 0, 0, 0]
  values := [small 7, 0x3001]

theorem closureHeap_holdsWords {base : Word} {words : List Word}
    (there : 0x1000 ≤ base.toNat ∧ base.toNat + words.length * 8 ≤ Word.top ∧
      (closureSegment.bytes.toList.drop (base.toNat - 0x1000)).take (words.length * 8) =
        words.flatMap fun w => Word.bytes 8 w.toNat) :
    (closureHeap 1).HoldsWords base words := by
  obtain ⟨above, inSpace, same⟩ := there
  have length := Snapshot.HoldsWords.length_bytes words 8
  have held : (closureHeap 1).HoldsBytes base (words.flatMap fun w => Word.bytes 8 w.toNat) := by
    apply closureHeap_holdsBytes above
    · rw [length, same]
    · rw [length]
      exact inSpace
  exact ⟨fun w _ => w.toNat_lt, held⟩

theorem closureHeap_holdsField {object w : Word} {field : FieldName} (address : Word)
    (found : ((closureHeap 1).fieldAddress object field).toOption = some address)
    (there : 0x1000 ≤ address.toNat ∧ address.toNat + 8 ≤ Word.top ∧
      (closureSegment.bytes.toList.drop (address.toNat - 0x1000)).take 8 = Word.bytes 8 w.toNat) :
    (closureHeap 1).HoldsField object field w := by
  refine ⟨address, ok_of_toOption found, closureHeap_holdsWords ?_⟩
  simpa using there

theorem closureHeap_holdsType {object : Word} {accepted : List (Option UInt8)} (w map : Word)
    (typeByte : UInt8) (field : (closureHeap 1).HoldsField object ⟨"HeapObject", "map"⟩ w)
    (pointer : (closureHeap 1).objectAddress w = .ok map)
    (found : (closureHeap 1).fieldAddress map ⟨"Map", "instance_attributes"⟩ = .ok (map + 12))
    (there : 0x1000 ≤ (map + 12).toNat ∧ (map + 12).toNat + 1 ≤ Word.top ∧
      (closureSegment.bytes.toList.drop ((map + 12).toNat - 0x1000)).take 1 = [typeByte])
    (mem : some typeByte ∈ accepted) : (closureHeap 1).HoldsType object accepted :=
  ⟨w, map, map + 12, typeByte, field, pointer, found,
    closureHeap_holdsBytes there.1 there.2.2 there.2.1, mem⟩

theorem holds_scopeSlots : (closureHeap 1).HoldsArray 0x1048 none closure.scopeSlots where
  type := closureHeap_holdsType 0x1011 0x1010 0x84
    (closureHeap_holdsField 0x1048 (by decide +kernel) (by decide +kernel)) rfl
    (ok_of_toOption (by decide +kernel)) (by decide +kernel) (by decide)
  length := ⟨small 9, closureHeap_holdsField 0x1050 (by decide +kernel) (by decide +kernel), rfl⟩
  data := ⟨0x1058, ok_of_toOption (by decide +kernel), closureHeap_holdsWords (by decide +kernel)⟩

theorem holds_contextSlots : (closureHeap 1).HoldsArray 0x10a0 none closure.contextSlots where
  type := closureHeap_holdsType 0x1011 0x1010 0x84
    (closureHeap_holdsField 0x10a0 (by decide +kernel) (by decide +kernel)) rfl
    (ok_of_toOption (by decide +kernel)) (by decide +kernel) (by decide)
  length := ⟨small 6, closureHeap_holdsField 0x10a8 (by decide +kernel) (by decide +kernel), rfl⟩
  data := ⟨0x10b0, ok_of_toOption (by decide +kernel), closureHeap_holdsWords (by decide +kernel)⟩

theorem wellFormed_closure : closure.WellFormed (closureLayout 1).tags ⟨1, 2, 3, 4, 1⟩
    ⟨0, 1, 2, 3, 4⟩ where
  header_length := rfl
  gap_length := rfl
  counts kind := by
    cases kind with
    | parameter => exact ⟨small 1, rfl, rfl⟩
    | stackLocal => exact ⟨small 1, rfl, rfl⟩
    | contextLocal => exact ⟨small 2, rfl, rfl⟩
  statics_length := rfl
  static_lt := by decide
  values_length := rfl

theorem holds_closure :
    (closureHeap 1).HoldsClosure 0x1020 ⟨1, 2, 3, 4, 1⟩ ⟨0, 1, 2, 3, 4⟩ closure where
  type := closureHeap_holdsType 0x1001 0x1000 0xb5
    (closureHeap_holdsField 0x1020 (by decide +kernel) (by decide +kernel)) rfl
    (ok_of_toOption (by decide +kernel)) (by decide +kernel) (by decide)
  scopeInfo := ⟨0x1038, 0x1048,
    ⟨0x1039, closureHeap_holdsField 0x1028 (by decide +kernel) (by decide +kernel), rfl⟩,
    ⟨0x1049, closureHeap_holdsField 0x1040 (by decide +kernel) (by decide +kernel), rfl⟩,
    holds_scopeSlots⟩
  context := ⟨0x10a0,
    ⟨0x10a1, closureHeap_holdsField 0x1030 (by decide +kernel) (by decide +kernel), rfl⟩,
    holds_contextSlots⟩
  scopeInfoHeader := rfl
  contextHeader := rfl
  wellFormed := wellFormed_closure
  closure := ⟨0x1021, rfl, rfl⟩

/-- The sample's closure under a valid layout: its names and values are read back. -/
theorem reconstruct_closure :
    (closureLayout 1).Valid ∧ ∃ f c i, JSFunction.load (closureHeap 1) 0x1021 .blocking = .ok f ∧
      (f.context (closureHeap 1) .blocking).runFrom .unlimited =
        (.ok c, Budget.unlimited.booking c.array.booked) ∧
      (f.scopeInfo (closureHeap 1) .blocking).runFrom .unlimited =
        (.ok i, Budget.unlimited.booking i.array.booked) ∧
      (i.vars .parameter).items.map (Except.map i.nameOf) = [.ok 0x2001] ∧
      (i.vars .stackLocal).items.map (Except.map i.nameOf) = [.ok 0x2011] ∧
      (i.vars .contextLocal).items.map (Except.map i.nameOf) = [.ok 0x2021, .ok 0x2031] ∧
      (i.vars .contextLocal).items.map (· >>= c.valueOf) = [.ok (small 7), .ok 0x3001] := by
  have grants (count : Nat) (few : count * slotWidth ≤ 1 <<< 36) : Budget.unlimited.Grants count :=
    ⟨Nat.le_trans few (by decide), few⟩
  obtain ⟨f, c, i, load, context, scopeInfo, names, values, -⟩ :=
    holds_closure.reconstruct (w := 0x1021) rfl
  exact ⟨by decide +kernel, f, c, i, load, context _ (grants _ (by decide)),
    (scopeInfo _ (grants _ (by decide))).1, names .parameter, names .stackLocal,
    names .contextLocal, values⟩

end Sample

end Postmortem
