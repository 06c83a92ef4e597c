import Mathlib.Algebra.GroupWithZero.Nat
import Mathlib.Data.UInt
import Postmortem.Proofs.ScopeInfo.Regions
import Postmortem.Proofs.Session.Effects

/-! # The ledger of a session

What is booked against the budget of a session is what its objects hold, modulo the size of a word
(`Session.Accounted`). A single command moves both sums alike (`Session.Effect.conserves`), so the
law holds after any number of commands (`Session.accounting`). -/

namespace Postmortem

/-! ## Sums over maps -/

namespace NameMap

variable {α : Type}

section sum

variable {M : Type} [AddCommMonoid M] (weight : α → M)

theorem sum_put (name : String) (value : α) (entries : List (String × α)) :
    ((put name value entries).map fun entry => weight entry.2).sum +
        ((entries.lookup name).map weight).getD 0 =
      (entries.map fun entry => weight entry.2).sum + weight value := by
  induction entries with
  | nil => simp [put]
  | cons entry rest ih =>
    obtain ⟨key, old⟩ := entry
    rw [put, lookup_cons_ite]
    by_cases same : key = name
    · simp only [same, if_true, List.map_cons, List.sum_cons, Option.map_some, Option.getD_some]
      ac_rfl
    · simp only [same, Ne.symm same, if_false, List.map_cons, List.sum_cons]
      rw [add_assoc, ih, add_assoc]

theorem sum_filter_ne {name : String} {value : α} {entries : List (String × α)}
    (nodup : (entries.map Prod.fst).Nodup) (found : entries.lookup name = some value) :
    ((entries.filter fun entry => entry.1 != name).map fun entry => weight entry.2).sum +
        weight value =
      (entries.map fun entry => weight entry.2).sum := by
  induction entries with
  | nil => cases found
  | cons entry rest ih =>
    obtain ⟨key, old⟩ := entry
    rw [List.map_cons, List.nodup_cons] at nodup
    rw [lookup_cons_ite] at found
    by_cases same : key = name
    · subst same
      rw [if_pos rfl] at found
      cases found
      -- No other entry has the name, so nothing else is dropped.
      have others : rest.filter (fun entry => entry.1 != key) = rest := by
        refine List.filter_eq_self.2 fun entry mem => ?_
        rw [bne_iff_ne]
        intro same
        exact nodup.1 (List.mem_map.2 ⟨entry, mem, same⟩)
      rw [List.filter_cons_of_neg (by simp), others, List.map_cons, List.sum_cons, add_comm]
    · rw [if_neg (Ne.symm same)] at found
      have rest := ih nodup.2 found
      rw [List.filter_cons_of_pos (by simpa using same), List.map_cons, List.map_cons,
        List.sum_cons, List.sum_cons, ← rest, add_assoc]

end sum

variable (weight : α → UInt64)

/-- The sum of the weights of all values. -/
def total (m : NameMap α) : UInt64 := (m.entries.map fun entry => weight entry.2).sum

theorem total_insert (m : NameMap α) (name : String) (value : α) :
    (m.insert name value).total weight + ((m.get? name).map weight).getD 0 =
      m.total weight + weight value :=
  sum_put weight name value m.entries

theorem total_erase {m : NameMap α} {name : String} {value : α} (found : m.get? name = some value) :
    (m.erase name).total weight + weight value = m.total weight :=
  sum_filter_ne weight m.nodup found

/-- A sum of words is the sum of their numbers, modulo the size of a word. -/
theorem toNat_total (m : NameMap α) :
    (m.total weight).toNat = (m.entries.map fun entry => (weight entry.2).toNat).sum % 2 ^ 64 := by
  unfold total
  induction m.entries with
  | nil => rfl
  | cons entry rest ih =>
    rw [List.map_cons, List.map_cons, List.sum_cons, List.sum_cons, UInt64.toNat_add, ih,
      Nat.add_mod_mod]

end NameMap

/-! ## Sessions -/

/-- The copies that an object has are booked at `slotWidth` bytes for each slot. -/
def Object.Exact : Object → Prop
  | .slots s => s.Exact
  | .fixedArray a => a.Exact
  | .array a => a.Exact
  | .context c => c.array.Exact
  | .scopeInfo i => i.array.Exact
  | .reservation _ | .function _ | .functionInfo _ | .string _ => True

theorem Object.Loaded.exact {s : Snapshot} {object : Object} (loaded : object.Loaded s) :
    object.Exact := by
  cases loaded with
  | slots loaded =>
    obtain ⟨held, -, -, exact⟩ := (s.accounts_readSlots _ _ _).of_eq_ok loaded
    exact exact
  | fixedArray loaded =>
    obtain ⟨held, -, -, exact⟩ := (FixedArray.accounts_load s _ _).of_eq_ok loaded
    exact exact
  | array loaded =>
    obtain ⟨held, -, -, exact⟩ := (JSArray.accounts_load s _ _).of_eq_ok loaded
    exact exact
  | context loaded =>
    obtain ⟨held, -, -, exact⟩ := (Context.accounts_load s _ _).of_eq_ok loaded
    exact exact
  | scopeInfo loaded =>
    obtain ⟨held, -, -, exact⟩ := (ScopeInfo.accounts_load s _ _).of_eq_ok loaded
    exact exact
  | reservation | function | functionInfo | string => trivial

namespace Session

/-- The bytes that the objects of a session hold. -/
def held (s : Session) : Nat := (s.objects.entries.map fun entry => entry.2.booked.toNat).sum

/-- As many bytes are booked as the objects hold, modulo the size of a word. -/
def Accounted (s : Session) : Prop := s.budget.booked.toNat = s.held % 2 ^ 64

theorem accounted_iff {s : Session} :
    s.Accounted ↔ s.budget.booked = s.objects.total Object.booked := by
  rw [← UInt64.toNat_inj, NameMap.toNat_total]
  rfl

/-- **An effect moves the booked bytes and the bytes that objects hold alike.** -/
theorem Effect.conserves {s s' : Session} {name : Option String} (effect : s.Effect name s') :
    s'.budget.booked + s.objects.total Object.booked =
      s.budget.booked + s'.objects.total Object.booked := by
  cases effect with
  | nothing buffers => rfl
  | @kept object loaded name =>
    cases name with
    | none => simp [keep]
    | some name =>
      have moved := s.objects.total_insert Object.booked name object
      simp only [keep, Budget.booking, Budget.release]
      grind
  | dropped found =>
    have moved := NameMap.total_erase Object.booked found
    simp only [Budget.release]
    grind

theorem Effect.accounted {s s' : Session} {name : Option String} (effect : s.Effect name s')
    (accounted : s.Accounted) : s'.Accounted := by
  rw [accounted_iff] at accounted ⊢
  have conserved := effect.conserves
  rw [accounted] at conserved
  grind

/-- The name is not in use. -/
def Free (s : Session) (name : Option String) : Prop :=
  ∀ key, name = some key → s.objects.get? key = none

theorem budget_keep {s : Session} {name : Option String} (free : s.Free name) {object : Object}
    (light : object.booked = 0) : (s.keep name object).budget = s.budget := by
  cases name with
  | none => simp [keep, light]
  | some key => simp [keep, free key rfl]

/-- An object that holds nothing is loaded without a trace in the budget. -/
theorem budget_answerLoad {s : Session} {α : Type} {name : Option String} {object : α → Object}
    (free : s.Free name) (light : ∀ a, (object a).booked = 0) (result : Except DecodeError α) :
    (s.answerLoad name object (.ofExcept result)).2.budget = s.budget := by
  cases result with
  | error e => rfl
  | ok a => exact budget_keep free (light a)

/-- An object that was loaded under a free name is booked, and dropping it gives back just that. -/
theorem Effect.budget_drop {s s' : Session} {name : String} (effect : s.Effect (some name) s')
    (free : s.objects.get? name = none) :
    ∃ object, s'.objects.get? name = some object ∧
      s'.budget = s.budget.booking object.booked ∧
      (s'.run (.drop name)).1 = .ok object.booked ∧ (s'.run (.drop name)).2.budget = s.budget := by
  cases effect with
  | @kept object loaded =>
    have found : ({ s with budget := s.budget.booking object.booked }.keep (some name)
        object).objects.get? name = some object := by
      rw [keep, NameMap.get?_insert, if_pos rfl]
    have booked : ({ s with budget := s.budget.booking object.booked }.keep (some name)
        object).budget = s.budget.booking object.booked := by
      simp [keep, free]
    refine ⟨object, found, booked, ?_, ?_⟩
    · simp only [run, drop?, found, Option.map_some]
    · simp only [run, drop?, found, Option.map_some, booked, Budget.release_booking]

end Session

/-! ## The law of the ledger -/

/-- What the operations on a snapshot book: a copy of slots eight bytes for each slot, whatever the
size of a word on the target, and everything else nothing in the end. -/
structure Snapshot.BooksExactly (s : Snapshot) : Prop where
  fixedArray (w : Word) (policy : AllocationPolicy) :
    (FixedArray.load s w policy).Accounts 0 fun a held =>
      held = a.booked ∧ held.toNat = 8 * a.size
  array (w : Word) (policy : AllocationPolicy) :
    (JSArray.load s w policy).Accounts 0 fun a held =>
      held = a.booked ∧ held.toNat = 8 * (a.store.map (·.size)).getD 0 ∧
        (a.length = 0 → held = 0)
  context (w : Word) (policy : AllocationPolicy) :
    (Context.load s w policy).Accounts 0 fun c held =>
      held = c.array.booked ∧ held.toNat = 8 * c.size
  scopeInfo (w : Word) (policy : AllocationPolicy) :
    (ScopeInfo.load s w policy).Accounts 0 fun i held =>
      held = i.array.booked ∧ held.toNat = 8 * i.size
  functionContext (f : JSFunction) (policy : AllocationPolicy) :
    (f.context s policy).Accounts 0 fun c held =>
      held = c.array.booked ∧ held.toNat = 8 * c.size
  functionScopeInfo (f : JSFunction) (policy : AllocationPolicy) :
    (f.scopeInfo s policy).Accounts 0 fun i held =>
      held = i.array.booked ∧ held.toNat = 8 * i.size
  contextScopeInfo (c : Context) (policy : AllocationPolicy) :
    (c.scopeInfo s policy).Accounts 0 fun i held =>
      held = i.array.booked ∧ held.toNat = 8 * i.size
  write (h : HeapString) (mode : EscapeMode) (o : WriteOptions) (t : Transcript) :
    (h.write s mode o t).2.budget = t.budget
  writeString (w : Word) (policy : AllocationPolicy) (mode : EscapeMode) (o : WriteOptions)
    (t : Transcript) : (Postmortem.writeString s w policy mode o t).2.budget = t.budget
  toText (h : HeapString) (mode : EscapeMode) (capacity : Nat) (b : Budget) :
    (h.toText s mode capacity b).2 = b
  writeName (i : FunctionInfo) (mode : EscapeMode) (t : Transcript) :
    (i.writeName s mode t).2.budget = t.budget
  writeScriptPath (i : FunctionInfo) (mode : EscapeMode) (t : Transcript) :
    (i.writeScriptPath s mode t).2.budget = t.budget

theorem Slots.Exact.toNat {s : Slots} (exact : s.Exact) {held : UInt64} (same : held = s.booked) :
    held.toNat = 8 * s.words.size := by
  rw [same, exact, Nat.mul_comm]
  rfl

theorem Snapshot.booksExactly (s : Snapshot) : s.BooksExactly where
  fixedArray w policy := (FixedArray.accounts_load s w policy).mono
    fun _ _ ⟨same, exact⟩ => ⟨same, exact.toNat same⟩
  array w policy := by
    refine (JSArray.accounts_load s w policy).mono fun a held ⟨same, exact⟩ => ?_
    subst same
    unfold JSArray.Exact at exact
    unfold JSArray.booked
    split at exact
    · rename_i unstored
      simp [unstored]
    · rename_i store stored
      simp only [stored, Option.map_some, Option.getD_some]
      exact ⟨trivial, exact.2.toNat rfl, fun empty => absurd empty (Nat.ne_of_gt exact.1)⟩
  context w policy := (Context.accounts_load s policy w).mono
    fun _ _ ⟨same, exact⟩ => ⟨same, exact.toNat same⟩
  scopeInfo w policy := (ScopeInfo.accounts_load s w policy).mono
    fun _ _ ⟨same, exact⟩ => ⟨same, exact.toNat same⟩
  functionContext f policy := (f.accounts_context s policy).mono
    fun _ _ ⟨same, exact⟩ => ⟨same, exact.toNat same⟩
  functionScopeInfo f policy := (f.accounts_scopeInfo s policy).mono
    fun _ _ ⟨same, exact⟩ => ⟨same, exact.toNat same⟩
  contextScopeInfo c policy := (c.accounts_scopeInfo s policy).mono
    fun _ _ ⟨same, exact⟩ => ⟨same, exact.toNat same⟩
  write h mode o t := h.budget_write s mode o t
  writeString w policy mode o t := budget_writeString s w policy mode o t
  toText h mode capacity b := h.budget_toText s mode capacity b
  writeName i mode t := i.budget_writeName s mode t
  writeScriptPath i mode t := i.budget_writeScriptPath s mode t

/-- **Nothing is booked that no object holds.** A session is begun on any snapshot with any limits,
and any commands are carried out. Then as many bytes are booked as the objects hold that it keeps,
modulo the size of a word, and their copies at eight bytes for each slot. From there on a command
that fails changes nothing, strings, closures and descriptions of functions are loaded without a
trace in the budget, and what is loaded under a free name is booked until it is dropped. What each
operation books is exact. -/
theorem Session.accounting (snapshot : Snapshot) (limit maxAllocation : UInt64) (storable : Nat)
    (commands : List ((α : Type) × Command α)) :
    let start : Session := { snapshot, budget := { limit, maxAllocation, storable } }
    let s := start.runAll commands
    s.Accounted ∧
    (∀ name object, s.objects.get? name = some object → object.Exact) ∧
    (∀ {α : Type} (c : Command α) (e : CommandError), (s.run c).1 = .error e →
      (s.run c).2 = s) ∧
    (∀ (w : Word) (policy : AllocationPolicy) (name : Option String), s.Free name →
      (s.run (.loadString w policy name)).2.budget = s.budget ∧
      (s.run (.loadFunction w policy name)).2.budget = s.budget ∧
      ∀ f : String, (s.run (.describe f policy name)).2.budget = s.budget) ∧
    (∀ {α : Type} (c : Command α) (name : String) (a : α), c.keepsUnder = some name →
      s.objects.get? name = none → (s.run c).1 = .ok a →
      ∃ object, (s.run c).2.objects.get? name = some object ∧
        (s.run c).2.budget = s.budget.booking object.booked ∧
        ((s.run c).2.run (.drop name)).1 = .ok object.booked ∧
        ((s.run c).2.run (.drop name)).2.budget = s.budget) ∧
    snapshot.BooksExactly := by
  intro start s
  have begun : start.Accounted := rfl
  have accounted : s.Accounted :=
    runAll_induction Accounted begun (fun accounted effect => effect.accounted accounted) commands
  have sound : s.Sound := sound_runAll (s := start) (fun _ _ found => by cases found) commands
  refine ⟨accounted, fun name object found => (sound name object found).exact, ?_, ?_, ?_,
    snapshot.booksExactly⟩
  · intro α c e failed
    rcases s.follows_run c with ⟨e', unchanged⟩ | ⟨value, s', ended, -⟩
    · rw [unchanged]
    · rw [ended] at failed
      cases failed
  · intro w policy name free
    refine ⟨budget_answerLoad free (fun _ => rfl) _, budget_answerLoad free (fun _ => rfl) _, ?_⟩
    intro f
    simp only [run, withObject]
    split
    · exact budget_answerLoad free (fun _ => rfl) _
    · rfl
  · intro α c name a keeps free succeeded
    rcases s.follows_run c with ⟨e, failed⟩ | ⟨value, s', ended, effect⟩
    · rw [failed] at succeeded
      cases succeeded
    · rw [keeps] at effect
      rw [ended]
      exact effect.budget_drop free

/-- A scope info of nine slots is loaded twice, and one of the two is dropped. -/
example : (({ snapshot := Sample.closureHeap 0, budget := .unlimited } : Session).runAll
    [⟨_, .loadScopeInfo 0x1049 .nonBlocking (some "scope")⟩,
      ⟨_, .loadFixedArray 0x1049 .blocking (some "slots")⟩,
      ⟨_, .drop "scope"⟩]).budget.booked = 72 := by
  decide +kernel

end Postmortem
