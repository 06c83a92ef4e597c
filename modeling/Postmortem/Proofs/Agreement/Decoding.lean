import Postmortem.Proofs.Agreement.Strings
import Postmortem.Proofs.HeapString.Tree

/-! # Decoding under poorer conditions

`DecodesAlike` says of every operation that two runs of it agree unless the first gives up. It is
assembled from the operations' own lemmas (`decodesAlike`), and it holds of two kinds of poorer
conditions.

* A policy that refuses bookings differs from one that grants them by refusals only, whatever the
  limits of the two budgets are and however much is booked (`decodesAlike_nonBlocking`).
* An offset that a layout lacks is never made up for: the operation that depends on it fails and
  names it (`decodesAlike_of_isPartOf`). -/

namespace Postmortem

/-- Every operation agrees with itself, unless it fails with an error of the given kind in its first
run. That has the snapshot `s`, the budget `b` and the policy `g policy`; the second run has `s'`,
`b'` and `policy`. What remembers the policy of its run remembers `g policy` in the first where it
remembers `policy` in the second. -/
structure DecodesAlike (kind : DecodeError → Prop) (g : AllocationPolicy → AllocationPolicy)
    (s s' : Snapshot) (policy : AllocationPolicy) (b b' : Budget) : Prop where
  fixedArray : ∀ w, AgreesUnless kind ((FixedArray.load s w (g policy)).runFrom b).1
    ((FixedArray.load s' w policy).runFrom b').1
  array : ∀ w, AgreesUnless kind ((JSArray.load s w (g policy)).runFrom b).1
    ((JSArray.load s' w policy).runFrom b').1
  context : ∀ w, AgreesUnless kind ((Context.load s w (g policy)).runFrom b).1
    ((Context.load s' w policy).runFrom b').1
  scopeInfo : ∀ w, AgreesUnless kind ((ScopeInfo.load s w (g policy)).runFrom b).1
    ((ScopeInfo.load s' w policy).runFrom b').1
  function : ∀ w, AgreesUnless kind (JSFunction.load s w (g policy))
    ((JSFunction.load s' w policy).map (JSFunction.mapPolicy g))
  string : ∀ w, AgreesUnless kind (HeapString.load s w (g policy))
    ((HeapString.load s' w policy).map (HeapString.mapPolicy g))
  functionContext : ∀ f : JSFunction,
    AgreesUnless kind (((f.mapPolicy g).context s (g policy)).runFrom b).1
      ((f.context s' policy).runFrom b').1
  functionScopeInfo : ∀ f : JSFunction,
    AgreesUnless kind (((f.mapPolicy g).scopeInfo s (g policy)).runFrom b).1
      ((f.scopeInfo s' policy).runFrom b').1
  contextScopeInfo : ∀ c : Context,
    AgreesUnless kind ((c.scopeInfo s (g policy)).runFrom b).1
      ((c.scopeInfo s' policy).runFrom b').1
  describe : ∀ f : JSFunction,
    AgreesUnless kind ((f.mapPolicy g).describe s (g policy))
      ((f.describe s' policy).map (FunctionInfo.mapPolicy g))
  write : ∀ h : HeapString, h.policy = policy → ∀ mode o buffer,
    WritingsAgree kind g ((h.mapPolicy g).write s mode o { buffer, budget := b })
      (h.write s' mode o { buffer, budget := b' })
  toText : ∀ h : HeapString, h.policy = policy → ∀ mode capacity,
    AgreesUnless kind ((h.mapPolicy g).toText s mode capacity b).1
      (h.toText s' mode capacity b').1
  writeString : ∀ w mode o buffer,
    WritingsAgree kind g (writeString s w (g policy) mode o { buffer, budget := b })
      (writeString s' w policy mode o { buffer, budget := b' })
  writeName : ∀ i : FunctionInfo, i.policy = policy → ∀ mode buffer,
    WritingsAgree kind g ((i.mapPolicy g).writeName s mode { buffer, budget := b })
      (i.writeName s' mode { buffer, budget := b' })
  writeScriptPath : ∀ i : FunctionInfo, i.policy = policy → ∀ mode buffer,
    WritingsAgree kind g ((i.mapPolicy g).writeScriptPath s mode { buffer, budget := b })
      (i.writeScriptPath s' mode { buffer, budget := b' })

/-- **Reads that are alike and bookings that are alike make decoding alike.** -/
theorem decodesAlike {kind : DecodeError → Prop} {like : Budget → Budget → Prop}
    {g : AllocationPolicy → AllocationPolicy} {policy : AllocationPolicy} {s s' : Snapshot}
    (alike : s.ReadsAlike kind s') (books : BooksAlike kind like (g policy) policy)
    {b b' : Budget} (same : like b b') : DecodesAlike kind g s s' policy b b' where
  fixedArray w := (FixedArray.agrees_load alike books w).result same
  array w := (JSArray.agrees_load alike books w).result same
  context w := (Context.agrees_load alike books w).result same
  scopeInfo w := (ScopeInfo.agrees_load alike books w).result same
  function w := by
    rw [JSFunction.load_mapPolicy]
    exact (JSFunction.agrees_load alike w policy).map _
  string w := by
    rw [HeapString.load_mapPolicy]
    exact (HeapString.agrees_load alike w policy).map _
  functionContext f := (f.agrees_context alike books).result same
  functionScopeInfo f := (f.agrees_scopeInfo alike books).result same
  contextScopeInfo c := (c.agrees_scopeInfo alike books).result same
  describe f := by
    rw [JSFunction.describe_mapPolicy]
    exact (f.agrees_describe alike policy).map _
  write h remembered mode o buffer :=
    HeapString.write_agrees alike books (.begun ..) same remembered mode o
  toText h remembered mode capacity :=
    HeapString.toText_agrees alike books same remembered mode capacity
  writeString w mode o buffer := writeString_agrees alike books (.begun ..) same w mode o
  writeName i remembered mode buffer :=
    FunctionInfo.writeName_agrees alike books (.begun ..) same remembered mode
  writeScriptPath i remembered mode buffer :=
    FunctionInfo.writeScriptPath_agrees alike books (.begun ..) same remembered mode

/-! ## Policies -/

/-- Whether a budget, or the host, refused an allocation. -/
def DecodeError.IsRefusal (e : DecodeError) : Prop := ∃ size, e = .allocationRefused size

/-- On one host, the budgets have the same limit on a single allocation. -/
structure Budget.SameCaps (b b' : Budget) : Prop where
  maxAllocation : b.maxAllocation = b'.maxAllocation
  storable : b.storable = b'.storable

/-- A booking that may take a budget over its limit is granted unless it is too large by itself. -/
theorem booksAlike_nonBlocking :
    BooksAlike DecodeError.IsRefusal Budget.SameCaps .nonBlocking .blocking where
  book size b b' caps := by
    have grants : ¬ (AllocationPolicy.blocking = .nonBlocking ∧
        b'.limit.toNat < Word.capped (b'.booked.toNat + size.toNat)) := fun beyond => nomatch beyond.1
    rw [Loading.runFrom_book, Loading.runFrom_book, Budget.book, Budget.book, caps.maxAllocation,
      if_neg grants]
    by_cases large : b'.maxAllocation < size
    · rw [if_pos large, if_pos large]
      exact .inl ⟨rfl, caps⟩
    · rw [if_neg large, if_neg large]
      by_cases beyond : AllocationPolicy.nonBlocking = .nonBlocking ∧
          b.limit.toNat < Word.capped (b.booked.toNat + size.toNat)
      · rw [if_pos beyond]
        exact .inr ⟨_, ⟨size, rfl⟩, rfl⟩
      · rw [if_neg beyond]
        exact .inl ⟨rfl, rfl, caps.storable⟩
  release caps size := ⟨caps.maxAllocation, caps.storable⟩
  storable caps := caps.storable

theorem Snapshot.ReadsAlike.refl (kind : DecodeError → Prop) (s : Snapshot) :
    s.ReadsAlike kind s :=
  ⟨rfl, rfl, fun _ => .inl rfl⟩

/-- **Refusals are all that a policy makes a difference to.** Every operation that may not take the
first budget over its limit fails because an allocation was refused, or it ends as it does where it
may take the second budget over its limit. The limits of the two budgets and what is booked in them
need have nothing to do with each other. -/
theorem decodesAlike_nonBlocking (s : Snapshot) {b b' : Budget} (caps : b.SameCaps b') :
    DecodesAlike DecodeError.IsRefusal (fun _ => .nonBlocking) s s .blocking b b' :=
  decodesAlike (.refl _ s) booksAlike_nonBlocking caps

namespace Sample

/-- A budget with little left. -/
def scant : Budget := { limit := 3, maxAllocation := 8 }

/-- A budget beyond its limit. -/
def overdrawn : Budget := { limit := 0, maxAllocation := 8, booked := 100 }

end Sample

/-- The budget has enough left for the two bytes of the slice, but not for the four of the string
before it. -/
theorem decodesAlike_scant :
    Sample.scant.SameCaps Sample.overdrawn ∧
    DecodesAlike DecodeError.IsRefusal (fun _ => .nonBlocking) Sample.heap Sample.heap .blocking
      Sample.scant Sample.overdrawn ∧
    ((Sample.slice.mapPolicy fun _ => .nonBlocking).toText Sample.heap .raw 20
      Sample.scant).1.toOption = some "bc" ∧
    ((Sample.joined.mapPolicy fun _ => .nonBlocking).toText Sample.heap .raw 20
      Sample.scant).1.toOption = none ∧
    (Sample.joined.toText Sample.heap .raw 20 Sample.overdrawn).1.toOption = some "中hbc" :=
  ⟨⟨rfl, rfl⟩, decodesAlike_nonBlocking Sample.heap ⟨rfl, rfl⟩, by decide +kernel,
    by decide +kernel, by decide +kernel⟩

/-! ## Missing offsets -/

namespace Layout

/-- The layout is the other one, apart from offsets that it lacks. It keeps that of a function's
inferred name, which builds need not have. -/
structure IsPartOf (l l' : Layout) : Prop where
  same : { l with offsets := l'.offsets } = l'
  offset : ∀ field, l.offset? field = none ∨ l.offset? field = l'.offset? field
  inferredName :
    l.offset? JSFunction.inferredNameField = l'.offset? JSFunction.inferredNameField

/-- Whether an error says that the first layout lacks an offset of the second. -/
def Misses (l l' : Layout) (e : DecodeError) : Prop :=
  ∃ field, e = .missingConfiguration field ∧ l.offset? field = none ∧ l'.offset? field ≠ none

end Layout

theorem booksAlike_self (kind : DecodeError → Prop) (policy : AllocationPolicy) :
    BooksAlike kind (· = ·) policy policy where
  book size b b' same := .inl (by subst same; exact ⟨rfl, rfl⟩)
  release same size := congrArg (·.release size) same
  storable same := congrArg Budget.storable same

theorem Layout.IsPartOf.readsAlike {l l' : Layout} (part : l.IsPartOf l') (memory : Memory) :
    Snapshot.ReadsAlike (l.Misses l') ⟨memory, l⟩ ⟨memory, l'⟩ where
  memory := rfl
  layout := part.same
  offset field := by
    show l.offset? field = l'.offset? field ∨ _
    by_cases same : l.offset? field = l'.offset? field
    · exact .inl same
    · have lacking := (part.offset field).resolve_right same
      refine .inr ⟨?_, lacking, field, rfl, lacking, fun lacking' => same (lacking.trans lacking'.symm)⟩
      rintro rfl
      exact same part.inferredName

/-- **Absent offsets fail closed.** Under a layout that lacks offsets of another one, every
operation ends as it does under that other one, or it fails and names an offset that is lacking.
With `id`, what remembers a policy remembers the same one in both runs. -/
theorem decodesAlike_of_isPartOf (memory : Memory) {l l' : Layout} (part : l.IsPartOf l')
    (policy : AllocationPolicy) (b : Budget) :
    DecodesAlike (l.Misses l') id ⟨memory, l⟩ ⟨memory, l'⟩ policy b b :=
  decodesAlike (part.readsAlike memory) (booksAlike_self _ policy) rfl

namespace Layout

/-- The layout without the offset of a field. -/
def withoutOffset (l : Layout) (field : FieldName) : Layout :=
  let fields := ((l.offsets.get? field.owner).getD ∅).erase field.name
  { l with offsets := l.offsets.insert field.owner fields }

theorem offset?_withoutOffset (l : Layout) (field other : FieldName) :
    (l.withoutOffset field).offset? other = if other = field then none else l.offset? other := by
  obtain ⟨owner, name⟩ := field
  obtain ⟨owner', name'⟩ := other
  simp only [offset?, withoutOffset, NameMap.get?_insert, FieldName.mk.injEq]
  by_cases ho : owner' = owner
  · subst ho
    cases h : l.offsets.get? owner' with
    | none =>
      by_cases hn : name' = name
      · simp [NameMap.get?_erase, hn]
      · simp only [Option.getD_none, if_true, Option.bind_some, NameMap.get?_erase, true_and, hn]
        rfl
    | some fields => simp [NameMap.get?_erase]
  · simp [ho]

theorem isPartOf_withoutOffset (l : Layout) {field : FieldName}
    (needed : field ≠ JSFunction.inferredNameField) : (l.withoutOffset field).IsPartOf l where
  same := rfl
  offset other := by
    rw [offset?_withoutOffset]
    split
    · exact .inl rfl
    · exact .inr rfl
  inferredName := by rw [offset?_withoutOffset, if_neg needed.symm]

end Layout

/-- Without the offset of the second half, concatenations cannot be loaded. Slices can. -/
theorem decodesAlike_withoutSecond :
    (Sample.layout.withoutOffset ⟨"ConsString", "second"⟩).IsPartOf Sample.layout ∧
    DecodesAlike ((Sample.layout.withoutOffset ⟨"ConsString", "second"⟩).Misses Sample.layout) id
      ⟨Sample.heap.memory, Sample.layout.withoutOffset ⟨"ConsString", "second"⟩⟩ Sample.heap
      .blocking .unlimited .unlimited ∧
    (HeapString.load ⟨Sample.heap.memory, Sample.layout.withoutOffset ⟨"ConsString", "second"⟩⟩
      0x10d1 .blocking).toOption = none ∧
    (HeapString.load ⟨Sample.heap.memory, Sample.layout.withoutOffset ⟨"ConsString", "second"⟩⟩
      0x10a9 .blocking).toOption = some Sample.slice :=
  have part : (Sample.layout.withoutOffset ⟨"ConsString", "second"⟩).IsPartOf Sample.layout :=
    Sample.layout.isPartOf_withoutOffset (by decide)
  ⟨part, decodesAlike_of_isPartOf Sample.heap.memory part .blocking .unlimited, by decide +kernel,
    by decide +kernel⟩

end Postmortem
