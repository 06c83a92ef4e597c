import Mathlib.Algebra.Group.Int.Defs
import Mathlib.Algebra.Group.Nat.Defs
import Postmortem.Proofs.Loading

/-! # Checked computations

A `Checked` computation has arithmetic of 64 bits that traps: on a sum, a difference or a product
that leaves the word, on a shift by its width or more, on an index or a range outside a slice, and
on an assertion that fails. A loop has a number of rounds, and traps if it takes more. A definition is
free of traps if its checked version, in which every such operation is written out, equals
`Except.ok` of it.

Checked versions of computations that can fail are put together in `CheckedResult`, those of
computations that book in `CheckedLoading`. `CheckedResult.of` and `CheckedLoading.of` take what
cannot trap there, and commute with `>>=`; so the checked version of a sequence equals the sequence
as soon as the checked versions of its steps do. -/

namespace Postmortem

/-- Why a computation traps. -/
inductive Trap where
  /-- The result of an operation is no word of 64 bits, or a shift is too wide. -/
  | overflow
  /-- An index or a range is outside a slice, or two slices differ in length. -/
  | outOfRange
  | divisionByZero
  | assertion
  /-- A loop goes on for more rounds than it was given. -/
  | endless
  deriving DecidableEq, Repr

/-- A computation that may trap. -/
abbrev Checked := Except Trap

namespace Checked

variable {α β : Type}

@[simp] theorem ok_bind (a : α) (next : α → Checked β) : (Except.ok a >>= next) = next a := rfl

/-! ## Words without sign -/

def add (a b : Nat) : Checked Nat := if a + b ≤ Word.top then .ok (a + b) else .error .overflow

def sub (a b : Nat) : Checked Nat := if b ≤ a then .ok (a - b) else .error .overflow

def mul (a b : Nat) : Checked Nat := if a * b ≤ Word.top then .ok (a * b) else .error .overflow

def div (a b : Nat) : Checked Nat := if b = 0 then .error .divisionByZero else .ok (a / b)

/-- The bits of `a` moved up, those that leave the word lost. -/
def shiftLeft (a bits : Nat) : Checked Nat :=
  if bits < 64 then .ok ((a <<< bits) % 2 ^ 64) else .error .overflow

theorem add_eq {a b : Nat} (fits : a + b ≤ Word.top) : add a b = .ok (a + b) := if_pos fits

theorem sub_eq {a b : Nat} (fits : b ≤ a) : sub a b = .ok (a - b) := if_pos fits

theorem mul_eq {a b : Nat} (fits : a * b ≤ Word.top) : mul a b = .ok (a * b) := if_pos fits

theorem div_eq {a b : Nat} (pos : 0 < b) : div a b = .ok (a / b) := if_neg (Nat.ne_of_gt pos)

/-! ## Words with sign -/

/-- The result of an operation on signed words. -/
def signed (n : Int) : Checked Int :=
  if -2 ^ 63 ≤ n ∧ n < 2 ^ 63 then .ok n else .error .overflow

/-- The bits of a signed word moved up, those that leave the word lost. -/
def signedShiftLeft (n : Int) (bits : Nat) : Checked Int :=
  if bits < 64 then .ok ((n * 2 ^ bits).bmod (2 ^ 64)) else .error .overflow

def signedShiftRight (n : Int) (bits : Nat) : Checked Int :=
  if bits < 64 then .ok (n >>> bits) else .error .overflow

theorem signed_eq {n : Int} (low : -2 ^ 63 ≤ n) (high : n < 2 ^ 63) : signed n = .ok n :=
  if_pos ⟨low, high⟩

/-! ## Slices and assertions -/

def assert (holds : Bool) : Checked Unit := if holds then .ok () else .error .assertion

def index (xs : List α) (i : Nat) : Checked α :=
  match xs[i]? with
  | some x => .ok x
  | none => .error .outOfRange

/-- The elements from `start` to before `stop`. -/
def slice (xs : List α) (start stop : Nat) : Checked (List α) :=
  if start ≤ stop ∧ stop ≤ xs.length then .ok ((xs.take stop).drop start)
  else .error .outOfRange

/-- Consecutive chunks of the given width, what is left over at the end not among them. -/
def chunks (width : Nat) : (count : Nat) → List α → List (List α)
  | 0, _ => []
  | count + 1, xs => xs.take width :: chunks width count (xs.drop width)

/-- As many chunks of the given width as there are. -/
def chunksExact (width : Nat) (xs : List α) : Checked (List (List α)) :=
  if width = 0 then .error .assertion else .ok (chunks width (xs.length / width) xs)

/-- The elements of `target` overwritten with those of `source`. -/
def copyFrom (target source : List α) : Checked (List α) :=
  if source.length = target.length then .ok source else .error .outOfRange

/-- `target` with the elements from `start` to before `stop` overwritten with those of `source`. -/
def overwrite (target : List α) (start stop : Nat) (source : List α) : Checked (List α) := do
  let replaced ← slice target start stop
  return target.take start ++ (← copyFrom replaced source) ++ target.drop stop

theorem assert_eq {holds : Bool} (h : holds = true) : assert holds = .ok () := if_pos h

theorem slice_eq {xs : List α} {start stop : Nat} (ordered : start ≤ stop)
    (inside : stop ≤ xs.length) : slice xs start stop = .ok ((xs.take stop).drop start) :=
  if_pos ⟨ordered, inside⟩

theorem exists_slice_eq {xs : List α} {stop : Nat} (inside : stop ≤ xs.length) :
    ∃ part, slice xs 0 stop = .ok part ∧ part.length = stop :=
  ⟨xs.take stop, slice_eq (Nat.zero_le _) inside, List.length_take_of_le inside⟩

theorem copyFrom_eq {target source : List α} (same : source.length = target.length) :
    copyFrom target source = .ok source := if_pos same

theorem overwrite_eq {target source : List α} {start stop : Nat}
    (inside : stop ≤ target.length) (same : start + source.length = stop) :
    overwrite target start stop source = .ok (target.take start ++ source ++ target.drop stop) := by
  have replaced : source.length = ((target.take stop).drop start).length := by
    rw [List.length_drop, List.length_take]
    omega
  rw [overwrite, slice_eq (by omega) inside, ok_bind, copyFrom_eq replaced]
  rfl

/-! ## Lists -/

theorem mapM_eq {f : α → Checked β} {g : α → β} {xs : List α} (each : ∀ x ∈ xs, f x = .ok (g x)) :
    xs.mapM f = .ok (xs.map g) := by
  induction xs with
  | nil => rfl
  | cons x xs ih =>
    rw [List.mapM_cons, each x List.mem_cons_self,
      ih fun y mem => each y (List.mem_cons_of_mem x mem)]
    rfl

theorem allM_eq {f : α → Checked Bool} {g : α → Bool} {xs : List α}
    (each : ∀ x ∈ xs, f x = .ok (g x)) : xs.allM f = .ok (xs.all g) := by
  induction xs with
  | nil => rfl
  | cons x xs ih =>
    have rest := ih fun y mem => each y (List.mem_cons_of_mem x mem)
    rw [List.allM, each x List.mem_cons_self, List.all_cons]
    cases g x with
    | true => exact rest
    | false => rfl

theorem foldlM_eq {f : β → α → Checked β} {g : β → α → β} {xs : List α} (start : β)
    (each : ∀ y, ∀ x ∈ xs, f y x = .ok (g y x)) : xs.foldlM f start = .ok (xs.foldl g start) := by
  induction xs generalizing start with
  | nil => rfl
  | cons x xs ih =>
    rw [List.foldlM_cons, each start x List.mem_cons_self]
    exact ih (g start x) fun y z mem => each y z (List.mem_cons_of_mem x mem)

end Checked

/-! ## Computations that can fail -/

/-- A computation that may trap and may fail. -/
abbrev CheckedResult := ExceptT DecodeError Checked

namespace CheckedResult

variable {α β : Type}

/-- A result that was come to without a trap. -/
def of (result : Except DecodeError α) : CheckedResult α := ExceptT.mk (.ok result)

@[simp] theorem lift_ok (a : α) : (liftM (.ok a : Checked α) : CheckedResult α) = of (.ok a) := rfl

@[simp] theorem of_ok_bind (a : α) (next : α → CheckedResult β) :
    (of (.ok a) >>= next) = next a := rfl

/-- A sequence is free of traps if its steps are. -/
theorem of_bind {result : Except DecodeError α} {next : α → Except DecodeError β}
    {next' : α → CheckedResult β} (rest : ∀ a, result = .ok a → next' a = of (next a)) :
    (of result >>= next') = of (result >>= next) := by
  cases result with
  | ok a => exact rest a rfl
  | error e => rfl

end CheckedResult

/-! ## Computations that book -/

/-- A computation that may trap and may fail, and books. -/
abbrev CheckedLoading := ExceptT DecodeError (StateT Budget Checked)

namespace CheckedLoading

variable {α β : Type}

/-- A computation that books without a trap. -/
def of (body : Loading α) : CheckedLoading α := ExceptT.mk fun b => .ok (body.runFrom b)

/-- A computation that books nothing. -/
def ofResult (result : CheckedResult α) : CheckedLoading α :=
  ExceptT.mk fun b => do return (← result.run, b)

@[simp] theorem ofResult_of (result : Except DecodeError α) :
    ofResult (.of result) = of (Loading.ofExcept result) := rfl

@[simp] theorem ofResult_ok_bind (a : α) (next : α → CheckedLoading β) :
    (ofResult (.of (.ok a)) >>= next) = next a := rfl

theorem of_bind_apply (body : Loading α) (next : α → CheckedLoading β) (b : Budget) :
    (of body >>= next) b =
      match body.runFrom b with
      | (.ok a, b) => next a b
      | (.error e, b) => .ok (.error e, b) := by
  have unfolded : (of body >>= next) b =
      (ExceptT.bindCont next (body.runFrom b).1 : StateT Budget Checked (Except DecodeError β))
        (body.runFrom b).2 := rfl
  rw [unfolded]
  rcases body.runFrom b with ⟨e | a, b'⟩ <;> rfl

/-- A sequence is free of traps if its steps are. -/
theorem of_bind {body : Loading α} {next : α → Loading β} {next' : α → CheckedLoading β}
    (rest : ∀ a b b', body.runFrom b = (.ok a, b') → next' a = of (next a)) :
    (of body >>= next') = of (body >>= next) := by
  funext b
  have plain : of (body >>= next) b = .ok ((body >>= next).runFrom b) := rfl
  rw [of_bind_apply, plain, Loading.runFrom_bind]
  rcases ran : body.runFrom b with ⟨e | a, b'⟩
  · rfl
  · exact congrFun (rest a b b' ran) b'

end CheckedLoading

end Postmortem
