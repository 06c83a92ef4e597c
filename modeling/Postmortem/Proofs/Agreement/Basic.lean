import Postmortem.JSFunction
import Postmortem.Proofs.Loading

/-! # Runs that agree

Two runs of the same decoding, the first under poorer conditions than the second, agree unless the
first gives up: either it ends just as the second does, or it fails with an error of a kind that is
known beforehand. `AgreesUnless` says so of two results and `Loading.AgreesUnless` of two
computations that book; both compose along `>>=`.

What differs between the runs is kept apart from what they do.

* The snapshots differ in their offset tables (`Snapshot.ReadsAlike`): a field's offset is the same
  in both, or the first table lacks it and the error that says so is of the kind. Then every read of
  a field agrees.
* The budgets and the policies differ (`BooksAlike`): a booking in the first run goes as the one in
  the second, or is refused with an error of the kind. Then the taking of storage agrees. -/

namespace Postmortem

variable {α β : Type} {kind : DecodeError → Prop}

/-! ## Results -/

theorem map_bind {γ : Type} (f : β → γ) (value : Except DecodeError α)
    (next : α → Except DecodeError β) :
    (value >>= next).map f = value >>= fun a => (next a).map f := by
  cases value <;> rfl

theorem map_then {γ : Type} (f : α → β) (value : Except DecodeError α)
    (next : β → Except DecodeError γ) : value.map f >>= next = value >>= fun a => next (f a) := by
  cases value <;> rfl

/-- The results are the same, unless the first is an error of the given kind. -/
def AgreesUnless (kind : DecodeError → Prop) (result result' : Except DecodeError α) : Prop :=
  result = result' ∨ ∃ e, kind e ∧ result = .error e

namespace AgreesUnless

variable {result result' : Except DecodeError α}

theorem refl (result : Except DecodeError α) : AgreesUnless kind result result := .inl rfl

theorem of_kind {e : DecodeError} (h : kind e) (result' : Except DecodeError α) :
    AgreesUnless kind (.error e) result' :=
  .inr ⟨e, h, rfl⟩

theorem bind {next next' : α → Except DecodeError β} (first : AgreesUnless kind result result')
    (rest : ∀ a, AgreesUnless kind (next a) (next' a)) :
    AgreesUnless kind (result >>= next) (result' >>= next') := by
  rcases first with rfl | ⟨e, h, rfl⟩
  · cases result with
    | ok a => exact rest a
    | error e => exact refl _
  · exact of_kind h _

theorem map (h : AgreesUnless kind result result') (f : α → β) :
    AgreesUnless kind (result.map f) (result'.map f) := by
  rcases h with rfl | ⟨e, h, rfl⟩
  · exact refl _
  · exact of_kind h _

end AgreesUnless

/-! ## Computations that book -/

namespace Loading

variable {like : Budget → Budget → Prop}

/-- Begun with budgets that are alike, the computations end with the same result and with budgets
that are alike, unless the first fails with an error of the given kind. -/
def AgreesUnless (kind : DecodeError → Prop) (like : Budget → Budget → Prop)
    (body body' : Loading α) : Prop :=
  ∀ ⦃b b' : Budget⦄, like b b' →
    ((body.runFrom b).1 = (body'.runFrom b').1 ∧
      like (body.runFrom b).2 (body'.runFrom b').2) ∨
    ∃ e, kind e ∧ (body.runFrom b).1 = .error e

theorem ofExcept_map_bind {γ : Type} (f : α → β) (result : Except DecodeError α)
    (next : β → Loading γ) :
    ofExcept (result.map f) >>= next = ofExcept result >>= fun a => next (f a) := by
  cases result <;> rfl

namespace AgreesUnless

variable {body body' : Loading α}

theorem result (h : AgreesUnless kind like body body') {b b' : Budget} (alike : like b b') :
    Postmortem.AgreesUnless kind (body.runFrom b).1 (body'.runFrom b').1 :=
  (h alike).imp_left And.left

theorem pure (value : α) : AgreesUnless kind like (Pure.pure value) (Pure.pure value) :=
  fun _ _ alike => .inl ⟨rfl, alike⟩

theorem throw (e : DecodeError) :
    AgreesUnless kind like (MonadExcept.throw e : Loading α) (MonadExcept.throw e) :=
  fun _ _ alike => .inl ⟨rfl, alike⟩

theorem ofExcept {result result' : Except DecodeError α}
    (h : Postmortem.AgreesUnless kind result result') :
    AgreesUnless kind like (ofExcept result) (Loading.ofExcept result') :=
  fun _ _ alike => h.imp_left fun same => ⟨same, alike⟩

theorem bind {next next' : α → Loading β} (first : AgreesUnless kind like body body')
    (rest : ∀ a, AgreesUnless kind like (next a) (next' a)) :
    AgreesUnless kind like (body >>= next) (body' >>= next') := by
  intro b b' alike
  rw [runFrom_bind, runFrom_bind]
  have begun := first alike
  rcases ran : body.runFrom b with ⟨ended, mid⟩
  rcases ran' : body'.runFrom b' with ⟨ended', mid'⟩
  rw [ran, ran'] at begun
  rcases begun with ⟨same, alike⟩ | ⟨e, h, failed⟩
  · obtain rfl : ended = ended' := same
    cases ended with
    | ok a => exact rest a alike
    | error e => exact .inl ⟨rfl, alike⟩
  · obtain rfl : ended = .error e := failed
    exact .inr ⟨e, h, rfl⟩

end AgreesUnless

end Loading

/-! ## Bookings -/

/-- Bookings under the first policy go as those under the second from a budget that is alike, unless
they are refused with an error of the given kind. -/
structure BooksAlike (kind : DecodeError → Prop) (like : Budget → Budget → Prop)
    (policy policy' : AllocationPolicy) : Prop where
  book : ∀ size, Loading.AgreesUnless kind like (Loading.book size policy)
    (Loading.book size policy')
  release : ∀ {b b' : Budget}, like b b' → ∀ size, like (b.release size) (b'.release size)
  storable : ∀ {b b' : Budget}, like b b' → b.storable = b'.storable

namespace BooksAlike

variable {like : Budget → Budget → Prop} {policy policy' : AllocationPolicy}
variable (books : BooksAlike kind like policy policy')

include books

theorem budgetBook {b b' : Budget} (alike : like b b') (size : UInt64) :
    AgreesUnless kind ((b.book size policy).map fun _ => ())
      ((b'.book size policy').map fun _ => ()) := by
  have result (b : Budget) (policy : AllocationPolicy) :
      ((Loading.book size policy).runFrom b).1 = (b.book size policy).map fun _ => () := by
    rw [Loading.runFrom_book]
    cases b.book size policy <;> rfl
  simpa only [result] using (books.book size).result alike

theorem release_throw (size : UInt64) (e : DecodeError) :
    Loading.AgreesUnless kind like (do Loading.release size; throw e : Loading α)
      (do Loading.release size; throw e) :=
  fun _ _ alike => .inl ⟨rfl, books.release alike size⟩

theorem storage (count width : Nat) :
    Loading.AgreesUnless kind like (Loading.storage count width policy)
      (Loading.storage count width policy') := by
  unfold Loading.storage
  split
  · exact .throw _
  · refine .bind (books.book _) fun _ b b' alike => ?_
    -- Past the booking only the host's storage is looked at, and both budgets tell the same of it.
    rw [Loading.runFrom_get_bind, Loading.runFrom_get_bind, ← books.storable alike]
    split
    · exact books.release_throw _ _ alike
    · exact .inl ⟨rfl, alike⟩

theorem holding {count width : Nat} {body body' : Loading α}
    (h : Loading.AgreesUnless kind like body body') :
    Loading.AgreesUnless kind like (Loading.holding count width policy body)
      (Loading.holding count width policy' body') := by
  refine .bind (books.storage count width) fun size b b' alike => ?_
  rcases h alike with ⟨same, alike⟩ | failed
  · exact .inl ⟨same, books.release alike size⟩
  · exact .inr failed

end BooksAlike

/-! ## Reads -/

/-- The snapshots are the same apart from their offset tables. An offset is the same in both tables,
or the first lacks it and the error that says so is of the given kind; that of a function's inferred
name, which is read for want of a better one, is the same in both. -/
structure Snapshot.ReadsAlike (kind : DecodeError → Prop) (s s' : Snapshot) : Prop where
  memory : s.memory = s'.memory
  layout : { s.layout with offsets := s'.layout.offsets } = s'.layout
  offset : ∀ field, s.layout.offset? field = s'.layout.offset? field ∨
    field ≠ JSFunction.inferredNameField ∧ s.layout.offset? field = none ∧
      kind (.missingConfiguration field)

namespace Snapshot.ReadsAlike

variable {s s' : Snapshot} (alike : ReadsAlike kind s s')

include alike

theorem tags : s.layout.tags = s'.layout.tags := (congrArg Layout.tags alike.layout :)

theorem types : s.layout.types = s'.layout.types :=
  (congrArg Layout.types alike.layout :)

theorem objectAddress (w : Word) : s.objectAddress w = s'.objectAddress w := by
  simp only [Snapshot.objectAddress, alike.tags]

theorem readBytes (address : Word) (length : Nat) :
    s.readBytes address length = s'.readBytes address length := by
  simp only [Snapshot.readBytes, alike.memory]

theorem readWord (address : Word) : s.readWord address = s'.readWord address := by
  simp only [Snapshot.readWord, alike.tags, alike.readBytes]

theorem fieldAddress (object : Word) (field : FieldName) :
    AgreesUnless kind (s.fieldAddress object field) (s'.fieldAddress object field) := by
  unfold Snapshot.fieldAddress
  rcases alike.offset field with same | ⟨-, lacking, h⟩
  · rw [same]
    exact .refl _
  · rw [lacking]
    exact .of_kind h _

theorem readField (object : Word) (field : FieldName) :
    AgreesUnless kind (s.readField object field) (s'.readField object field) := by
  refine .bind (alike.fieldAddress object field) fun address => ?_
  rw [alike.readWord]
  exact .refl _

/-- The inferred name is found in both snapshots or in none. -/
theorem readInferredName (object : Word) :
    s.readField object JSFunction.inferredNameField =
      s'.readField object JSFunction.inferredNameField := by
  have same := (alike.offset JSFunction.inferredNameField).resolve_right fun other => other.1 rfl
  have read : s.readWord = s'.readWord := funext alike.readWord
  simp only [Snapshot.readField, Snapshot.fieldAddress, same, read]

theorem readSmallInt (object : Word) (field : FieldName) :
    AgreesUnless kind (s.readSmallInt object field) (s'.readSmallInt object field) := by
  refine .bind (alike.readField object field) fun w => ?_
  rw [classify, classify, alike.tags]
  exact .refl _

theorem readInteger (object : Word) (field : FieldName) :
    AgreesUnless kind (s.readInteger object field) (s'.readInteger object field) := by
  refine .bind (alike.readField object field) fun w => ?_
  rw [classify, classify, alike.tags]
  exact .refl _

theorem readNatural (object : Word) (field : FieldName) (flaw : FieldFlaw) :
    AgreesUnless kind (s.readNatural object field flaw) (s'.readNatural object field flaw) :=
  .bind (alike.readSmallInt object field) fun _ => .refl _

theorem typeByte (object : Word) : AgreesUnless kind (s.typeByte object) (s'.typeByte object) := by
  refine .bind (alike.readField object _) fun w => ?_
  rw [alike.objectAddress]
  refine .bind (.refl _) fun map => .bind (alike.fieldAddress map _) fun address => ?_
  rw [alike.readBytes]
  exact .refl _

theorem expectType (w : Word) (expected : String) (accepted : List (Option UInt8)) :
    AgreesUnless kind (s.expectType w expected accepted) (s'.expectType w expected accepted) := by
  unfold Snapshot.expectType
  rw [alike.objectAddress]
  exact .bind (.refl _) fun address => .bind (alike.typeByte address) fun _ => .refl _

end Snapshot.ReadsAlike

end Postmortem
