import Postmortem.JSFunction
import Postmortem.Proofs.HeapString.Script
import Postmortem.Proofs.Loading

/-! # What loads book

`Loading.Accounts` is a triple for bytes: begun with some bytes booked on its behalf, a computation
either fails and has given them back, or it leaves booked what its postcondition says. It composes
along `>>=`, and scratch storage drops out of it (`Loading.Accounts.holding`).

Every load of slots books `slotWidth` bytes for each slot of the copy, on builds of any word size,
and nothing if it fails: `FixedArray.accounts_load`, `JSArray.accounts_load`,
`Context.accounts_load`, `ScopeInfo.accounts_load`, and those that go through a closure or a
context. -/

namespace Postmortem

namespace Loading

variable {α β : Type}

/-- Begun with `before` bytes booked on its behalf, the computation fails and leaves none of them
booked, or it ends with a value and leaves as many bytes booked as `after` says. -/
def Accounts (before : UInt64) (body : Loading α) (after : α → UInt64 → Prop) : Prop :=
  ∀ b : Budget,
    (∃ e, body.runFrom (b.booking before) = (.error e, b)) ∨
    ∃ value held, body.runFrom (b.booking before) = (.ok value, b.booking held) ∧
      after value held

namespace Accounts

variable {before : UInt64} {body : Loading α} {after : α → UInt64 → Prop}

theorem pure {value : α} (kept : after value before) :
    Accounts before (Pure.pure value) after :=
  fun _ => .inr ⟨value, before, rfl, kept⟩

theorem throw (e : DecodeError) : Accounts 0 (throw e : Loading α) after := by
  intro b
  rw [Budget.booking_zero]
  exact .inl ⟨e, rfl⟩

theorem get (before : UInt64) :
    Accounts before (get : Loading Budget) fun _ held => held = before :=
  fun _ => .inr ⟨_, before, rfl, rfl⟩

theorem bind {next : α → Loading β} {last : β → UInt64 → Prop}
    (first : Accounts before body after)
    (rest : ∀ value held, after value held → Accounts held (next value) last) :
    Accounts before (body >>= next) last := by
  intro b
  rw [runFrom_bind]
  rcases first b with ⟨e, failed⟩ | ⟨value, held, ended, kept⟩
  · exact .inl ⟨e, by rw [failed]⟩
  · rw [ended]
    exact rest value held kept b

theorem ofExcept (result : Except DecodeError α) :
    Accounts 0 (Loading.ofExcept result) fun _ held => held = 0 := by
  intro b
  rw [Budget.booking_zero, runFrom_ofExcept]
  cases result with
  | error e => exact .inl ⟨e, rfl⟩
  | ok value => exact .inr ⟨value, 0, by rw [Budget.booking_zero], rfl⟩

theorem bind_ofExcept {result : Except DecodeError α} {next : α → Loading β}
    {last : β → UInt64 → Prop} (rest : ∀ value, Accounts 0 (next value) last) :
    Accounts 0 (Loading.ofExcept result >>= next) last := by
  refine bind (ofExcept result) fun value held idle => ?_
  rw [idle]
  exact rest value

theorem mono {last : α → UInt64 → Prop} (h : Accounts before body after)
    (weaker : ∀ value held, after value held → last value held) : Accounts before body last :=
  fun b => (h b).imp_right fun ⟨value, held, ended, kept⟩ =>
    ⟨value, held, ended, weaker value held kept⟩

/-! ## Bookings -/

theorem book (size : UInt64) (policy : AllocationPolicy) :
    Accounts 0 (book size policy) fun _ held => held = size := by
  intro b
  rw [Budget.booking_zero]
  simp only [Loading.book, runFrom, ExceptT.run_mk, StateT.run]
  cases booked : b.book size policy with
  | error e => exact .inl ⟨e, rfl⟩
  | ok b' => exact .inr ⟨(), size, by rw [Budget.eq_booking_of_book booked], rfl⟩

theorem release_throw (held : UInt64) (e : DecodeError) :
    Accounts held (do release held; MonadExcept.throw e : Loading α) after := by
  intro b
  refine .inl ⟨e, ?_⟩
  have released : (release held).runFrom (b.booking held) = (.ok (), b) :=
    congrArg (Prod.mk _) (Budget.release_booking held)
  rw [runFrom_bind_of_eq_ok released]
  rfl

/-- Storage is booked at its size. -/
theorem storage (count width : Nat) (policy : AllocationPolicy) :
    Accounts 0 (storage count width policy) fun size held =>
      size = held ∧ held.toNat = count * width := by
  unfold Loading.storage
  split
  · exact throw _
  · rename_i inWord
    have fits : count * width < 2 ^ 64 := Nat.lt_of_le_of_lt (Nat.le_of_not_lt inWord) (by decide)
    dsimp only
    refine bind (book _ policy) fun _ held booked => ?_
    refine bind (get held) fun _ held same => ?_
    subst same booked
    split
    · exact release_throw _ _
    · exact pure ⟨rfl, UInt64.toNat_ofNat_of_lt fits⟩

theorem holding {count width : Nat} {policy : AllocationPolicy} (h : Accounts 0 body after) :
    Accounts 0 (holding count width policy body) after := by
  intro b
  rw [Budget.booking_zero, runFrom_holding]
  have booked := storage count width policy b
  rw [Budget.booking_zero] at booked
  rcases booked with ⟨e, refused⟩ | ⟨size, held, stored, rfl, -⟩
  · exact .inl ⟨e, by rw [refused]⟩
  · have ran := h (b.booking size)
    rw [Budget.booking_zero] at ran
    rw [stored]
    rcases ran with ⟨e, failed⟩ | ⟨value, held, ended, kept⟩
    · exact .inl ⟨e, by simp only [failed, Budget.release_booking]⟩
    · exact .inr ⟨value, held, by simp only [ended, Budget.release_booking_booking], kept⟩

/-- A successful run leaves booked what the triple says. -/
theorem of_eq_ok {b b' : Budget} {value : α} (h : Accounts 0 body after)
    (ran : body.runFrom b = (.ok value, b')) : ∃ held, b' = b.booking held ∧ after value held := by
  have ends := h b
  rw [Budget.booking_zero, ran] at ends
  rcases ends with ⟨e, failed⟩ | ⟨value', held, ended, kept⟩
  · cases failed
  · cases ended
    exact ⟨held, rfl, kept⟩

theorem of_eq_error {b b' : Budget} {e : DecodeError} (h : Accounts 0 body after)
    (ran : body.runFrom b = (.error e, b')) : b' = b := by
  have ends := h b
  rw [Budget.booking_zero, ran] at ends
  rcases ends with ⟨e', failed⟩ | ⟨value, held, ended, -⟩
  · cases failed
    rfl
  · cases ended

end Accounts

end Loading

/-! ## Loads -/

/-- A copy is booked at `slotWidth` bytes for each of its slots. -/
def Slots.Exact (s : Slots) : Prop := s.booked.toNat = s.words.size * slotWidth

/-- The store of an array is booked exactly, and only an array of length zero has none. -/
def JSArray.Exact (a : JSArray) : Prop :=
  match a.store with
  | none => a.length = 0
  | some store => 0 < a.length ∧ store.Exact

theorem Snapshot.accounts_readSlots (s : Snapshot) (address : Word) (count : Nat)
    (policy : AllocationPolicy) :
    (s.readSlots address count policy).Accounts 0 fun slots held =>
      held = slots.booked ∧ slots.Exact := by
  refine .holding (.bind_ofExcept fun bytes => ?_)
  refine .bind (.storage count slotWidth policy) fun size held ⟨same, booked⟩ => ?_
  refine .pure ⟨same.symm, ?_⟩
  simp only [Slots.Exact, List.size_toArray, length_wordsOfBytes, same, booked]

namespace FixedArray

variable (s : Snapshot) (w : Word) (policy : AllocationPolicy)

theorem accounts_loadAs (expected : String) (alternative : Option UInt8) :
    (loadAs s w expected alternative policy).Accounts 0 fun a held =>
      held = a.booked ∧ a.Exact := by
  refine .bind_ofExcept fun (address, length) => .bind_ofExcept fun data => ?_
  exact .bind (s.accounts_readSlots data length policy) fun slots held booked => .pure booked

theorem accounts_load :
    (load s w policy).Accounts 0 fun a held => held = a.booked ∧ a.Exact :=
  accounts_loadAs s w policy _ _

end FixedArray

theorem JSArray.accounts_load (s : Snapshot) (w : Word) (policy : AllocationPolicy) :
    (load s w policy).Accounts 0 fun a held => held = a.booked ∧ a.Exact := by
  refine .bind_ofExcept fun (address, length) => ?_
  dsimp only
  split
  · rename_i empty
    exact .pure ⟨rfl, empty⟩
  · rename_i nonempty
    refine .bind_ofExcept fun elements => ?_
    refine .bind (FixedArray.accounts_load s elements policy) fun store held booked => ?_
    exact .pure ⟨booked.1, Nat.pos_of_ne_zero nonempty, booked.2⟩

theorem ScopeInfo.accounts_load (s : Snapshot) (w : Word) (policy : AllocationPolicy) :
    (load s w policy).Accounts 0 fun i held => held = i.array.booked ∧ i.array.Exact := by
  refine .bind_ofExcept fun header => ?_
  refine .bind (FixedArray.accounts_loadAs s w policy _ _) fun array held booked => ?_
  split
  · exact .pure booked
  · rw [booked.1]
    exact .release_throw _ _

namespace Context

variable (s : Snapshot) (policy : AllocationPolicy)

theorem accounts_load (w : Word) :
    (load s w policy).Accounts 0 fun c held => held = c.array.booked ∧ c.array.Exact := by
  refine .bind_ofExcept fun header => ?_
  refine .bind (FixedArray.accounts_loadAs s w policy _ _) fun array held booked => ?_
  split
  · exact .pure booked
  · rw [booked.1]
    exact .release_throw _ _

end Context

namespace JSFunction

variable (s : Snapshot) (f : JSFunction) (policy : AllocationPolicy)

theorem accounts_context :
    (f.context s policy).Accounts 0 fun c held => held = c.array.booked ∧ c.array.Exact :=
  .bind_ofExcept fun w => Context.accounts_load s policy w

theorem accounts_scopeInfo :
    (f.scopeInfo s policy).Accounts 0 fun i held => held = i.array.booked ∧ i.array.Exact :=
  .bind_ofExcept fun w => ScopeInfo.accounts_load s w policy

end JSFunction

theorem Context.accounts_scopeInfo (s : Snapshot) (c : Context) (policy : AllocationPolicy) :
    (c.scopeInfo s policy).Accounts 0 fun i held => held = i.array.booked ∧ i.array.Exact :=
  .bind_ofExcept fun f => f.accounts_scopeInfo s policy

/-! ## Strings -/

namespace HeapString

variable (s : Snapshot) (mode : EscapeMode) (h : HeapString)

/-- Storage for characters is given back at the end of each stretch of them. -/
theorem budget_writeAll (depth : Nat) (t : Transcript) :
    (h.writeAll s mode depth t).2.budget = t.budget := by
  rw [writeAll_eq_run, budget_run]

theorem budget_write (o : WriteOptions) (t : Transcript) :
    (h.write s mode o t).2.budget = t.budget := by
  unfold write
  split
  · rfl
  · split
    · exact h.budget_writeAll s mode o.depth _
    · exact h.budget_writeAll s mode o.depth t

theorem budget_toText (capacity : Nat) (b : Budget) : (h.toText s mode capacity b).2 = b := by
  have kept := h.budget_write s mode {} { buffer := .ofCapacity capacity, budget := b }
  unfold toText
  split
  · rename_i t written
    rw [written] at kept
    exact kept
  · rename_i e t written
    rw [written] at kept
    exact kept

end HeapString

theorem budget_writeString (s : Snapshot) (w : Word) (policy : AllocationPolicy) (mode : EscapeMode)
    (o : WriteOptions) (t : Transcript) :
    (writeString s w policy mode o t).2.budget = t.budget := by
  unfold writeString
  split
  · exact HeapString.budget_write s mode _ o t
  · rfl

namespace FunctionInfo

variable (s : Snapshot) (mode : EscapeMode) (i : FunctionInfo) (t : Transcript)

theorem budget_writeLoaded (loaded : Except DecodeError HeapString) :
    (writeLoaded s mode loaded t).2.budget = t.budget := by
  unfold writeLoaded
  split
  · exact HeapString.budget_write s mode _ {} t
  · rfl

theorem budget_writeName : (i.writeName s mode t).2.budget = t.budget :=
  budget_writeLoaded s mode t _

theorem budget_writeScriptPath : (i.writeScriptPath s mode t).2.budget = t.budget :=
  budget_writeLoaded s mode t _

end FunctionInfo

end Postmortem
