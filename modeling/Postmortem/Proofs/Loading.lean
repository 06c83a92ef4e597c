import Postmortem.FixedArray
import Postmortem.Proofs.HeapString.Loaded

/-! # Runs of loads

A budget with more bytes booked is `Budget.booking`, and what a budget books it gives back whole.
`Budget.Accepts` says that a size is booked and that the host has storage for it.

A run of a `Loading` is put together step by step (`Loading.runFrom_bind_of_eq_ok`), and a
successful one is taken apart in the same way: `Loading.exists_of_runFrom_bind` splits a sequence,
and `Loading.holding_eq_ok` finds the run of the body between a booking and its release.

An array is loaded exactly when its header is read and its slots are copied
(`FixedArray.loadAs_eq_ok_iff`), and slots are copied exactly when their bytes are read and the
storage is accepted (`Snapshot.readSlots_eq_ok_iff`). The length of an array is the value of a small
integer, so a signed word holds it (`FixedArray.size_le_of_loadAs`). -/

namespace Postmortem

namespace Budget

variable {b b' : Budget}

/-- The budget with `size` more bytes booked. -/
def booking (b : Budget) (size : UInt64) : Budget := { b with booked := b.booked + size }

@[simp] theorem storable_booking (size : UInt64) : (b.booking size).storable = b.storable := rfl

theorem release_booking_booking (size kept : UInt64) :
    ((b.booking size).booking kept).release size = b.booking kept := by
  have back : b.booked + size + kept - size = b.booked + kept := by
    rw [UInt64.add_assoc, UInt64.add_comm size kept, ← UInt64.add_assoc, UInt64.add_sub_cancel]
  simp only [booking, release, back]

@[simp] theorem booking_zero : b.booking 0 = b := by simp [booking]

@[simp] theorem release_booking (size : UInt64) : (b.booking size).release size = b := by
  simp [booking, release]

@[simp] theorem release_zero : b.release 0 = b := by simp [release]

theorem eq_booking_of_book {size : UInt64} {policy : AllocationPolicy}
    (h : b.book size policy = .ok b') : b' = b.booking size := by
  unfold book at h
  split at h
  · cases h
  · split at h <;> cases h
    rfl

/-- The budget books the size, and the host has storage for it. -/
structure Accepts (b : Budget) (size : Nat) (policy : AllocationPolicy) (b' : Budget) : Prop where
  inWord : size ≤ Word.top
  booked : b.book (UInt64.ofNat size) policy = .ok b'
  stored : size ≤ b.storable

theorem storable_of_book {size : UInt64} {policy : AllocationPolicy}
    (booked : b.book size policy = .ok b') : b'.storable = b.storable := by
  rw [eq_booking_of_book booked, storable_booking]

end Budget

namespace Loading

variable {α β : Type} {b b' : Budget}

theorem runFrom_bind_of_eq_ok {mid : Budget} {body : Loading α} {value : α}
    (h : body.runFrom b = (.ok value, mid)) (next : α → Loading β) :
    (body >>= next).runFrom b = (next value).runFrom mid := by
  rw [runFrom_bind, h]

theorem runFrom_bind_of_eq_error {mid : Budget} {body : Loading α} {e : DecodeError}
    (failed : body.runFrom b = (.error e, mid)) (next : α → Loading β) :
    (body >>= next).runFrom b = (.error e, mid) := by
  rw [runFrom_bind, failed]

theorem runFrom_map_of_eq_error {mid : Budget} {body : Loading α} {e : DecodeError} {f : α → β}
    (failed : body.runFrom b = (.error e, mid)) : (f <$> body).runFrom b = (.error e, mid) := by
  rw [map_eq_pure_bind]
  exact runFrom_bind_of_eq_error failed _

theorem runFrom_ofExcept_bind {result : Except DecodeError α} {value : α}
    (h : result = .ok value) (next : α → Loading β) :
    (ofExcept result >>= next).runFrom b = (next value).runFrom b :=
  runFrom_bind_of_eq_ok (by rw [runFrom_ofExcept, h]) next

theorem runFrom_book (b : Budget) (size : UInt64) (policy : AllocationPolicy) :
    (book size policy).runFrom b =
      match b.book size policy with
      | .ok b => (.ok (), b)
      | .error e => (.error e, b) := rfl

theorem runFrom_get_bind (b : Budget) (next : Budget → Loading α) :
    (get >>= next).runFrom b = (next b).runFrom b := rfl

theorem exists_of_runFrom_bind {body : Loading α} {next : α → Loading β} {value : β}
    (h : (body >>= next).runFrom b = (.ok value, b')) :
    ∃ a mid, body.runFrom b = (.ok a, mid) ∧ (next a).runFrom mid = (.ok value, b') := by
  rw [runFrom_bind] at h
  split at h
  · rename_i a mid first
    exact ⟨a, mid, first, h⟩
  · cases h

theorem exists_of_runFrom_ofExcept_bind {result : Except DecodeError α} {next : α → Loading β}
    {value : β} (h : (ofExcept result >>= next).runFrom b = (.ok value, b')) :
    ∃ a, result = .ok a ∧ (next a).runFrom b = (.ok value, b') := by
  obtain ⟨a, mid, first, rest⟩ := exists_of_runFrom_bind h
  cases first
  exact ⟨a, rfl, rest⟩

/-- **Storage is taken exactly when its size is accepted.** -/
theorem storage_eq_ok_iff {count width : Nat} {policy : AllocationPolicy} {size : UInt64} :
    (storage count width policy).runFrom b = (.ok size, b') ↔
      size = UInt64.ofNat (count * width) ∧ b.Accepts (count * width) policy b' := by
  constructor
  · intro ran
    rw [storage] at ran
    split at ran
    · cases ran
    · rename_i inWord
      dsimp only at ran
      rw [runFrom_bind, runFrom_book] at ran
      cases booked : b.book (UInt64.ofNat (count * width)) policy with
      | error e =>
        rw [booked] at ran
        cases ran
      | ok mid =>
        rw [booked] at ran
        dsimp only at ran
        rw [runFrom_get_bind, Budget.storable_of_book booked] at ran
        split at ran
        · cases ran
        · rename_i stored
          cases ran
          exact ⟨rfl, Nat.le_of_not_lt inWord, booked, Nat.le_of_not_lt stored⟩
  · rintro ⟨rfl, accepted⟩
    have booked : (book (UInt64.ofNat (count * width)) policy).runFrom b = (.ok (), b') := by
      rw [runFrom_book, accepted.booked]
    rw [storage, if_neg (Nat.not_lt.2 accepted.inWord)]
    dsimp only
    rw [runFrom_bind_of_eq_ok booked, runFrom_get_bind, Budget.storable_of_book accepted.booked,
      if_neg (Nat.not_lt.2 accepted.stored)]
    rfl

theorem runFrom_holding {count width : Nat} {policy : AllocationPolicy} (body : Loading α) :
    (holding count width policy body).runFrom b =
      match (storage count width policy).runFrom b with
      | (.ok size, b) => ((body.runFrom b).1, (body.runFrom b).2.release size)
      | (.error e, b) => (.error e, b) := by
  rw [holding, runFrom_bind]
  rcases (storage count width policy).runFrom b with ⟨stored | size, mid⟩ <;> rfl

theorem holding_eq_ok {count width : Nat} {policy : AllocationPolicy} {body : Loading α} {value : α}
    (h : (holding count width policy body).runFrom b = (.ok value, b')) :
    ∃ size mid mid', (storage count width policy).runFrom b = (.ok size, mid) ∧
      body.runFrom mid = (.ok value, mid') ∧ b' = mid'.release size := by
  rw [runFrom_holding] at h
  split at h
  · rename_i size mid stored
    obtain ⟨ran, left⟩ := Prod.mk.inj h
    exact ⟨size, mid, _, stored, Prod.ext ran rfl, left.symm⟩
  · cases h

end Loading

/-! ## Arrays -/

namespace Snapshot

variable {s : Snapshot}

/-- Slots are copied exactly where their bytes are read and both the bytes and, while these are
held, the copy are accepted. -/
theorem readSlots_eq_ok_iff {address : Word} {count : Nat} {policy : AllocationPolicy}
    {slots : Slots} {b b' : Budget} :
    (s.readSlots address count policy).runFrom b = (.ok slots, b') ↔
      ∃ bytes b₁ b₂, s.readBytes address (count * s.layout.tags.wordSize) = .ok bytes ∧
        b.Accepts (count * s.layout.tags.wordSize) policy b₁ ∧
        b₁.Accepts (count * slotWidth) policy b₂ ∧
        slots = ⟨(wordsOfBytes s.layout.tags.wordSize count bytes).toArray,
          UInt64.ofNat (count * slotWidth)⟩ ∧
        b' = b₂.release (UInt64.ofNat (count * s.layout.tags.wordSize)) := by
  constructor
  · intro copied
    obtain ⟨size, b₁, b₂, stored, ran, rfl⟩ := Loading.holding_eq_ok copied
    obtain ⟨bytes, read, rest⟩ := Loading.exists_of_runFrom_ofExcept_bind ran
    obtain ⟨booked, last, kept, finished⟩ := Loading.exists_of_runFrom_bind rest
    obtain ⟨rfl, raw⟩ := Loading.storage_eq_ok_iff.1 stored
    obtain ⟨rfl, copy⟩ := Loading.storage_eq_ok_iff.1 kept
    cases finished
    exact ⟨bytes, b₁, b₂, read, raw, copy, rfl, rfl⟩
  · rintro ⟨bytes, b₁, b₂, read, raw, copy, rfl, rfl⟩
    have stored := Loading.storage_eq_ok_iff.2 ⟨rfl, raw⟩
    have kept := Loading.storage_eq_ok_iff.2 ⟨rfl, copy⟩
    rw [readSlots, Loading.runFrom_holding, stored]
    simp only [Loading.runFrom_ofExcept_bind read, Loading.runFrom_bind_of_eq_ok kept,
      Loading.runFrom_pure]

theorem size_of_readSlots {address : Word} {count : Nat} {policy : AllocationPolicy}
    {slots : Slots} {b b' : Budget}
    (copied : (s.readSlots address count policy).runFrom b = (.ok slots, b')) :
    slots.words.size = count := by
  obtain ⟨bytes, b₁, b₂, -, -, -, rfl, -⟩ := readSlots_eq_ok_iff.1 copied
  simp

end Snapshot

namespace FixedArray

variable {s : Snapshot} {w : Word} {expected : String} {alternative : Option UInt8}

theorem header_eq_ok_iff {address : Word} {count : Nat} :
    header s w expected alternative = .ok (address, count) ↔
      (∃ typeByte, s.expectType w expected [s.layout.types.fixedArray, alternative] =
        .ok (address, typeByte)) ∧
      s.readSmallInt address ⟨"FixedArray", "length"⟩ = .ok count := by
  unfold header
  constructor
  · intro headed
    obtain ⟨⟨object, typeByte⟩, typed, headed⟩ := exists_of_bind_eq_ok headed
    obtain ⟨n, small, headed⟩ := exists_of_bind_eq_ok headed
    dsimp only at headed
    split at headed
    · cases headed
    · rename_i natural
      cases headed
      exact ⟨⟨typeByte, typed⟩, by rwa [Int.toNat_of_nonneg (Int.not_lt.1 natural)]⟩
  · rintro ⟨⟨typeByte, typed⟩, small⟩
    have natural : ¬ (count : Int) < 0 := Int.not_lt.2 (Int.natCast_nonneg _)
    rw [bind_of_eq_ok typed]
    dsimp only
    rw [bind_of_eq_ok small, if_neg natural]
    rfl

theorem header_le {address : Word} {length : Nat}
    (h : header s w expected alternative = .ok (address, length)) : length ≤ Word.signedTop :=
  Int.ofNat_le.1 (Snapshot.readSmallInt_le (header_eq_ok_iff.1 h).2)

/-- **An array is loaded exactly when** its slots are copied. -/
theorem loadAs_eq_ok_iff {policy : AllocationPolicy} {a : FixedArray} {b b' : Budget} :
    (loadAs s w expected alternative policy).runFrom b = (.ok a, b') ↔
      header s w expected alternative = .ok (a.address, a.size) ∧
      ∃ data, s.fieldAddress a.address ⟨"FixedArray", "data"⟩ = .ok data ∧
        (s.readSlots data a.size policy).runFrom b = (.ok a.toSlots, b') := by
  constructor
  · intro loaded
    obtain ⟨⟨address, count⟩, headed, rest⟩ := Loading.exists_of_runFrom_ofExcept_bind loaded
    obtain ⟨data, found, rest⟩ := Loading.exists_of_runFrom_ofExcept_bind rest
    obtain ⟨slots, mid, copied, finished⟩ := Loading.exists_of_runFrom_bind rest
    cases finished
    have size : slots.words.size = count := Snapshot.size_of_readSlots copied
    subst size
    exact ⟨headed, data, found, copied⟩
  · rintro ⟨headed, data, found, copied⟩
    rw [loadAs, Loading.runFrom_ofExcept_bind headed, Loading.runFrom_ofExcept_bind found,
      Loading.runFrom_bind_of_eq_ok copied]
    rfl

theorem size_le_of_loadAs {policy : AllocationPolicy} {a : FixedArray} {b b' : Budget}
    (loaded : (loadAs s w expected alternative policy).runFrom b = (.ok a, b')) :
    a.size ≤ Word.signedTop :=
  header_le (loadAs_eq_ok_iff.1 loaded).1

end FixedArray

end Postmortem
