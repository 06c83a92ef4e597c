import Mathlib.Data.Fintype.EquivFin
import Postmortem.Proofs.Session.Ledger

/-! # Keeping within the limit

Under the policy `nonBlocking` a booking is refused that would take a budget over its limit. A
session that reserves under this policy only, and drops what it reserved, keeps within the limit,
and what is booked is exactly what it holds (`Session.Within`, `Session.Within.runAll`).

That needs a word above the limit. The sum that is compared with the limit stops at the largest
word, so with this one as its limit a budget refuses nothing, while the count of booked bytes wraps
(`Session.exists_held`). `Session.held_le_limit_iff` says when the limit is kept. -/

namespace Postmortem

theorem NameMap.exists_get?_eq_none {α : Type} (m : NameMap α) : ∃ name, m.get? name = none := by
  obtain ⟨name, free⟩ := Infinite.exists_notMem_finset (m.entries.map Prod.fst).toFinset
  refine ⟨name, List.lookup_eq_none_iff.2 fun entry mem => ?_⟩
  rw [List.mem_toFinset] at free
  exact bne_iff_ne.2 fun same => free (List.mem_map.2 ⟨entry, mem, same.symm⟩)

theorem Word.capped_le_iff {n : Nat} {limit : UInt64} (bounded : limit.toNat < top) :
    capped n ≤ limit.toNat ↔ n ≤ limit.toNat := by
  unfold capped
  omega

/-- A booking that has to keep within the limit is granted up to the cap on an allocation, if the
sum with what is booked already, as far as a word holds it, is not over the limit. -/
theorem Budget.book_nonBlocking_eq_ok_iff {b b' : Budget} {size : UInt64} :
    b.book size .nonBlocking = .ok b' ↔
      (size.toNat ≤ b.maxAllocation.toNat ∧
        Word.capped (b.booked.toNat + size.toNat) ≤ b.limit.toNat) ∧ b' = b.booking size := by
  constructor
  · intro booked
    refine ⟨?_, eq_booking_of_book booked⟩
    unfold book at booked
    split at booked
    · cases booked
    · rename_i cap
      split at booked
      · cases booked
      · rename_i limit
        rw [UInt64.lt_iff_toNat_lt] at cap
        exact ⟨Nat.le_of_not_lt cap, Nat.le_of_not_lt fun above => limit ⟨rfl, above⟩⟩
  · rintro ⟨⟨cap, limit⟩, rfl⟩
    have cap : ¬ b.maxAllocation < size := by
      rw [UInt64.lt_iff_toNat_lt]
      exact Nat.not_lt.2 cap
    rw [book, if_neg cap, if_neg fun above => absurd above.2 (Nat.not_lt.2 limit)]
    rfl

/-- A reservation that keeps within the limit, or the drop of what a name holds. -/
inductive Command.Thrifty : {α : Type} → Command α → Prop
  | reserve (size : UInt64) (name : Option String) : Thrifty (.reserve size .nonBlocking name)
  | drop (name : String) : Thrifty (.drop name)

namespace Session

variable {s : Session}

/-! ## One command -/

theorem run_reserve (s : Session) (size : UInt64) (policy : AllocationPolicy)
    (name : Option String) :
    s.run (.reserve size policy name) =
      match s.budget.book size policy with
      | .ok budget => (.ok size, { s with budget }.keep name (.reservation size))
      | .error e => (.error (.decoding e), s) := by
  simp only [run, answerLoad, load, Loading.runFrom_bind, Loading.runFrom_book]
  cases s.budget.book size policy <;> rfl

theorem held_keep (s : Session) (name : String) (object : Object) :
    (s.keep (some name) object).held +
        ((s.objects.get? name).map fun object => object.booked.toNat).getD 0 =
      s.held + object.booked.toNat :=
  NameMap.sum_put (fun object : Object => object.booked.toNat) name object s.objects.entries

theorem held_erase {name : String} {object : Object}
    (found : s.objects.get? name = some object) (budget : Budget) :
    ({ s with budget, objects := s.objects.erase name } : Session).held + object.booked.toNat =
      s.held :=
  NameMap.sum_filter_ne (fun object : Object => object.booked.toNat) s.objects.nodup found

/-- The session has the given limits and keeps within them: what is booked is what its objects hold,
and that is not over the limit. -/
structure Within (most cap : UInt64) (s : Session) : Prop where
  limit : s.budget.limit = most
  maxAllocation : s.budget.maxAllocation = cap
  accounted : s.Accounted
  held_le : s.held ≤ most.toNat

/-- There is a word above the limit, or nothing is granted that takes any bytes. -/
def Bounded (limit maxAllocation : UInt64) : Prop :=
  limit.toNat < Word.top ∨ maxAllocation = 0

namespace Within

variable {limit maxAllocation : UInt64}

/-- The count of booked bytes has not wrapped. -/
theorem booked (within : s.Within limit maxAllocation) : s.budget.booked.toNat = s.held := by
  rw [within.accounted]
  exact Nat.mod_eq_of_lt (Nat.lt_of_le_of_lt within.held_le limit.toNat_lt)

/-- What is granted fits beside what is held, and what fits is granted. -/
theorem book_eq_ok_iff (within : s.Within limit maxAllocation)
    (bounded : Bounded limit maxAllocation) {size : UInt64} {b : Budget} :
    s.budget.book size .nonBlocking = .ok b ↔
      (size.toNat ≤ maxAllocation.toNat ∧ s.held + size.toNat ≤ limit.toNat) ∧
        b = s.budget.booking size := by
  rw [Budget.book_nonBlocking_eq_ok_iff, within.limit, within.maxAllocation, within.booked]
  refine and_congr_left fun _ => and_congr_right fun cap => ?_
  rcases bounded with bounded | rfl
  · exact Word.capped_le_iff bounded
  · have nothing : size.toNat = 0 := Nat.le_zero.1 cap
    have held := within.held_le
    rw [nothing, Nat.add_zero]
    exact iff_of_true (Nat.le_trans (Word.capped_le _) held) held

/-- A reservation is granted exactly when it fits. -/
theorem reserve_eq_ok_iff (within : s.Within limit maxAllocation)
    (bounded : Bounded limit maxAllocation) (size : UInt64) (name : Option String) :
    (s.run (.reserve size .nonBlocking name)).1 = .ok size ↔
      size.toNat ≤ maxAllocation.toNat ∧ s.held + size.toNat ≤ limit.toNat := by
  rw [run_reserve]
  cases booked : s.budget.book size .nonBlocking with
  | error e =>
    refine iff_of_false (by simp) fun fits => ?_
    cases booked.symm.trans ((within.book_eq_ok_iff bounded).2 ⟨fits, rfl⟩)
  | ok b => exact iff_of_true rfl ((within.book_eq_ok_iff bounded).1 booked).1

/-- **A command keeps a session within its limit.** -/
theorem run (within : s.Within limit maxAllocation) (bounded : Bounded limit maxAllocation)
    {α : Type} {c : Command α} (thrifty : c.Thrifty) :
    (s.run c).2.Within limit maxAllocation := by
  cases thrifty with
  | reserve size name =>
    rw [run_reserve]
    cases booked : s.budget.book size .nonBlocking with
    | error e => exact within
    | ok b =>
      obtain ⟨⟨-, fits⟩, rfl⟩ := (within.book_eq_ok_iff bounded).1 booked
      cases name with
      | none =>
        simp only [keep, Object.booked, Budget.release_booking]
        exact within
      | some name =>
        have effect : s.Effect (some name) _ := .kept (.reservation size) (some name)
        have held := held_keep s name (.reservation size)
        refine ⟨within.limit, within.maxAllocation, effect.accounted within.accounted, ?_⟩
        exact Nat.le_trans (Nat.le.intro held) fits
  | drop name =>
    simp only [Session.run, drop?]
    cases found : s.objects.get? name with
    | none => exact within
    | some object =>
      have effect : s.Effect none _ := .dropped found
      have held := held_erase found (s.budget.release object.booked)
      refine ⟨within.limit, within.maxAllocation, effect.accounted within.accounted, ?_⟩
      exact Nat.le_trans (Nat.le.intro held) within.held_le

/-- Any number of commands do. -/
theorem runAll (within : s.Within limit maxAllocation) (bounded : Bounded limit maxAllocation)
    {commands : List ((α : Type) × Command α)} (thrifty : ∀ c ∈ commands, c.2.Thrifty) :
    (s.runAll commands).Within limit maxAllocation := by
  induction commands generalizing s with
  | nil => exact within
  | cons c rest ih =>
    exact ih (within.run bounded (thrifty c List.mem_cons_self)) fun c mem =>
      thrifty c (List.mem_cons_of_mem _ mem)

end Within

/-! ## No word above the limit -/

/-- With the largest word as its limit a session comes to hold any number of bytes. -/
theorem exists_held (unlimited : s.budget.limit.toNat = Word.top)
    (grants : 0 < s.budget.maxAllocation.toNat) (n : Nat) :
    ∃ commands : List ((α : Type) × Command α), (∀ c ∈ commands, c.2.Thrifty) ∧
      (s.runAll commands).held = s.held + n := by
  induction n generalizing s with
  | zero => exact ⟨[], by simp, rfl⟩
  | succ n ih =>
    obtain ⟨name, free⟩ := s.objects.exists_get?_eq_none
    have granted : s.budget.book 1 .nonBlocking = .ok (s.budget.booking 1) := by
      refine Budget.book_nonBlocking_eq_ok_iff.2 ⟨⟨grants, ?_⟩, rfl⟩
      rw [unlimited]
      exact Word.capped_le_top _
    have next : (s.run (.reserve 1 .nonBlocking (some name))).2 =
        { s with budget := s.budget.booking 1 }.keep (some name) (.reservation 1) := by
      rw [run_reserve, granted]
    have held := held_keep s name (.reservation 1)
    rw [free] at held
    have moved : (s.run (.reserve 1 .nonBlocking (some name))).2.held = s.held + 1 := by
      rw [next]
      exact held
    obtain ⟨commands, thrifty, reached⟩ :=
      @ih (s.run (.reserve 1 .nonBlocking (some name))).2 (by rw [next]; exact unlimited)
        (by rw [next]; exact grants)
    refine ⟨⟨_, .reserve 1 .nonBlocking (some name)⟩ :: commands, ?_, ?_⟩
    · exact List.forall_mem_cons.2 ⟨.reserve _ _, thrifty⟩
    · rw [Session.runAll, reached, moved]
      omega

/-- **When the limit is kept.** Whatever a session with an empty budget reserves within the limit,
and whatever it drops, its objects never hold more bytes than the limit and what is booked is what
they hold, if and only if there is a word above the limit or nothing is granted but empty
reservations. In that case a reservation within the cap is granted exactly when it fits beside what
is held. -/
theorem held_le_limit_iff (snapshot : Snapshot) (limit maxAllocation : UInt64) (storable : Nat) :
    let reached (commands : List ((α : Type) × Command α)) : Session :=
      Session.runAll ⟨snapshot, ⟨limit, maxAllocation, storable, 0⟩, ∅, ∅⟩ commands
    ((∀ commands, (∀ c ∈ commands, c.2.Thrifty) →
      (reached commands).held ≤ limit.toNat ∧
        (reached commands).budget.booked.toNat = (reached commands).held) ↔
      Bounded limit maxAllocation) ∧
    (Bounded limit maxAllocation → ∀ commands, (∀ c ∈ commands, c.2.Thrifty) → ∀ size name,
      (((reached commands).run (.reserve size .nonBlocking name)).1 = .ok size ↔
        size.toNat ≤ maxAllocation.toNat ∧
          (reached commands).held + size.toNat ≤ limit.toNat)) := by
  intro reached
  have begun : Session.Within limit maxAllocation
      ⟨snapshot, ⟨limit, maxAllocation, storable, 0⟩, ∅, ∅⟩ :=
    ⟨rfl, rfl, rfl, Nat.zero_le _⟩
  refine ⟨⟨fun kept => ?_, fun bounded commands thrifty => ?_⟩,
    fun bounded commands thrifty size name => ?_⟩
  · by_contra unbounded
    obtain ⟨top, nonzero⟩ := not_or.1 unbounded
    have unlimited : limit.toNat = Word.top :=
      Nat.le_antisymm (Word.toNat_le_top limit) (Nat.le_of_not_lt top)
    have grants : 0 < maxAllocation.toNat :=
      Nat.pos_of_ne_zero fun zero => nonzero (UInt64.toNat_inj.1 zero)
    obtain ⟨commands, thrifty, held⟩ :=
      @exists_held ⟨snapshot, ⟨limit, maxAllocation, storable, 0⟩, ∅, ∅⟩ unlimited grants
        (2 ^ 64)
    have below := (kept commands thrifty).1
    rw [held] at below
    have size := limit.toNat_lt
    omega
  · have within := begun.runAll bounded thrifty
    exact ⟨within.held_le, within.booked⟩
  · exact (begun.runAll bounded thrifty).reserve_eq_ok_iff bounded size name

end Session

/-! ## Samples -/

/-- A reservation of a hundred bytes. -/
def Sample.hundred : List ((α : Type) × Command α) :=
  [⟨_, .reserve 100 .nonBlocking (some "held")⟩]

/-- Beside a hundred bytes a limit of 128 leaves room for 28 and not for 29. -/
theorem Session.reserve_beside_hundred :
    let s := Session.runAll ⟨Sample.heap, ⟨128, 1024, 0, 0⟩, ∅, ∅⟩ Sample.hundred
    (∀ c ∈ Sample.hundred, c.2.Thrifty) ∧ Session.Bounded 128 1024 ∧
    s.held = 100 ∧ s.budget.booked.toNat = s.held ∧
    (s.run (.reserve 28 .nonBlocking none)).1 = .ok 28 ∧
    (s.run (.reserve 29 .nonBlocking none)).1 ≠ .ok 29 := by
  intro s
  obtain ⟨kept, grants⟩ := Session.held_le_limit_iff Sample.heap 128 1024 0
  have thrifty : ∀ c ∈ Sample.hundred, c.2.Thrifty := List.forall_mem_singleton.2 (.reserve _ _)
  have bounded : Session.Bounded 128 1024 := .inl (by decide)
  have held : s.held = 100 := by decide +kernel
  refine ⟨thrifty, bounded, held, (kept.2 bounded _ thrifty).2, ?_, fun granted => ?_⟩
  · refine (grants bounded _ thrifty 28 none).2 ⟨by decide, ?_⟩
    rw [show Session.held _ = 100 from held]
    decide
  · have fits := ((grants bounded _ thrifty 29 none).1 granted).2
    rw [show Session.held _ = 100 from held] at fits
    exact absurd fits (by decide)

/-- All bytes that a word counts are reserved, and then one more. -/
def Sample.allAndOne : List ((α : Type) × Command α) :=
  [⟨_, .reserve 0xffffffffffffffff .nonBlocking (some "all")⟩,
    ⟨_, .reserve 1 .nonBlocking (some "more")⟩]

/-- The largest word as the limit does not hold: a session comes to more bytes than that. -/
theorem Session.not_held_le_limit :
    ¬ ∀ (snapshot : Snapshot) (limit maxAllocation : UInt64) (storable : Nat)
      (commands : List ((α : Type) × Command α)), (∀ c ∈ commands, c.2.Thrifty) →
      let s := Session.runAll ⟨snapshot, ⟨limit, maxAllocation, storable, 0⟩, ∅, ∅⟩ commands
      s.held ≤ limit.toNat ∧ s.budget.booked.toNat = s.held := by
  intro kept
  have thrifty : ∀ c ∈ Sample.allAndOne, c.2.Thrifty :=
    List.forall_mem_cons.2 ⟨.reserve _ _, List.forall_mem_singleton.2 (.reserve _ _)⟩
  have below :=
    (kept Sample.heap 0xffffffffffffffff 0xffffffffffffffff 0 Sample.allAndOne thrifty).1
  have held : (Session.runAll ⟨Sample.heap, ⟨0xffffffffffffffff, 0xffffffffffffffff, 0, 0⟩, ∅, ∅⟩
      Sample.allAndOne).held = 2 ^ 64 := by
    decide +kernel
  rw [held] at below
  exact absurd below (by decide)

end Postmortem
