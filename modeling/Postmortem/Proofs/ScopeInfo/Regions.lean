import Postmortem.Proofs.Memory.Arrays
import Postmortem.Session.Command

/-! # The regions of a scope info

Where the names of each kind lie follows from counts that the target chose and from indices that the
layout chose, and the sums are formed in words. `ScopeInfo.regionStart` forms them in natural
numbers instead, and `ScopeInfo.listing` says what a list of the variables then has to hold: those
whose slots the array has, and an error if it ends too early.

* A cursor delivers its items one by one, then nothing for ever, and never more than it says
  (`VarCursor.exists_step_of_lt`, `VarCursor.length_items_le`).
* The items of a kind are its listing (`ScopeInfo.items_vars`): a sum too large for a word lies past
  the end of every array, and so does the largest word.
* The slots of all variables, kind after kind, increase (`ScopeInfo.slots_increase`).
* A visit goes through the variables of the listing, then fails with its error
  (`ScopeInfo.visitVars_eq`). -/

namespace Postmortem

theorem VarKind.mem_all (kind : VarKind) : kind ∈ VarKind.all := by
  cases kind <;> decide

/-! ## Cursors -/

namespace VarCursor

variable {c : VarCursor}

theorem items_of_step?_eq_none (h : c.step? = none) : c.items = [] := by
  rw [items]
  split
  · rfl
  · rename_i stepped
    rw [h] at stepped
    cases stepped

theorem items_of_step?_eq_some {item : Except DecodeError ScopeVar} {c' : VarCursor}
    (h : c.step? = some (item, c')) : c.items = item :: c'.items := by
  rw [items]
  split
  · rename_i stepped
    rw [h] at stepped
    cases stepped
  · rename_i stepped
    rw [h] at stepped
    cases stepped
    rfl

theorem length_items_le (c : VarCursor) : c.items.length ≤ c.bound := by
  fun_induction items c with
  | case1 c stepped => exact Nat.zero_le _
  | case2 c item next stepped ih =>
    have less := bound_lt_of_step? stepped
    rw [List.length_cons]
    omega

/-- Step by step a cursor delivers its items and then nothing, and after each step its bound is at
least the number of the items still to come. -/
theorem exists_step_of_lt (c : VarCursor) {n k : Nat} (h : k < n) :
    ∃ bound, (c.steps n)[k]? = some (c.items[k]?, bound) ∧ c.items.length - (k + 1) ≤ bound := by
  induction n generalizing c k with
  | zero => omega
  | succ n ih =>
    cases stepped : c.step? with
    | none =>
      -- At its end a cursor stays as it is, so the steps that follow are its own.
      have empty := items_of_step?_eq_none stepped
      simp only [steps, stepped]
      cases k with
      | zero => exact ⟨c.bound, by simp [empty], by simp [empty]⟩
      | succ k =>
        obtain ⟨bound, found, le⟩ := ih c (Nat.lt_of_succ_lt_succ h)
        exact ⟨bound, by simpa [empty] using found, by simp [empty]⟩
    | some result =>
      obtain ⟨item, c'⟩ := result
      have delivered := items_of_step?_eq_some stepped
      simp only [steps, stepped]
      cases k with
      | zero => exact ⟨c'.bound, by simp [delivered], by simpa [delivered] using c'.length_items_le⟩
      | succ k =>
        obtain ⟨bound, found, le⟩ := ih c' (Nat.lt_of_succ_lt_succ h)
        refine ⟨bound, by simpa [delivered] using found, ?_⟩
        rw [delivered, List.length_cons]
        omega

/-- The items of a cursor from its next ordinal on, if the region starts at `start`. -/
def remaining (c : VarCursor) (start : Nat) : List (Except DecodeError ScopeVar) :=
  ((List.range' c.next (c.count - c.next)).filter (start + · < c.info.size)).map
      (fun n => .ok { kind := c.kind, ordinal := n, slot := start + n }) ++
    if c.next < c.count ∧ c.info.size < start + c.count then
      [.error (.corruptArray c.info.address .namesMissing)] else []

theorem remaining_past {start : Nat} (past : c.count ≤ c.next) : c.remaining start = [] := by
  have noneLeft : c.count - c.next = 0 := Nat.sub_eq_zero_of_le past
  rw [remaining, noneLeft, if_neg (by omega)]
  rfl

theorem remaining_short {start : Nat} (more : c.next < c.count)
    (short : c.info.size ≤ start + c.next) :
    c.remaining start = [.error (.corruptArray c.info.address .namesMissing)] := by
  have absent : (List.range' c.next (c.count - c.next)).filter (start + · < c.info.size) = [] := by
    rw [List.filter_eq_nil_iff]
    intro n mem
    have := (List.mem_range'_1.1 mem).1
    simp only [decide_eq_true_eq]
    omega
  rw [remaining, absent, if_pos (by omega)]
  rfl

theorem remaining_present {start : Nat} (more : c.next < c.count)
    (present : start + c.next < c.info.size) :
    c.remaining start = .ok { kind := c.kind, ordinal := c.next, slot := start + c.next } ::
      { c with next := c.next + 1 }.remaining start := by
  have split : c.count - c.next = c.count - (c.next + 1) + 1 := by omega
  have ends : c.next < c.count ∧ c.info.size < start + c.count ↔
      c.next + 1 < c.count ∧ c.info.size < start + c.count := by omega
  simp only [remaining, split, List.range'_succ, ends]
  rw [List.filter_cons_of_pos (by simpa using present)]
  rfl

/-- The step of a cursor, with the slot as a sum that no word has to hold. -/
theorem step?_eq {start : Nat} (aligned : c.start = Word.capped start)
    (inWord : c.info.size ≤ Word.top) :
    c.step? =
      if c.count ≤ c.next then none
      else if c.info.size ≤ start + c.next then
        some (.error (.corruptArray c.info.address .namesMissing), { c with next := c.count })
      else some (.ok { kind := c.kind, ordinal := c.next, slot := start + c.next },
        { c with next := c.next + 1 }) := by
  -- Neither cap brings a slot back into the array.
  have past : c.info.size ≤ Word.capped (c.start + c.next) ↔ c.info.size ≤ start + c.next := by
    simp only [aligned, Word.capped]
    omega
  have exact (present : ¬ c.info.size ≤ start + c.next) :
      Word.capped (c.start + c.next) = start + c.next := by
    simp only [aligned, Word.capped]
    omega
  unfold step?
  split
  · rfl
  · simp only [past]
    split
    · rfl
    · rename_i present
      rw [exact present]

/-- A cursor whose start was capped delivers what one with the true start would, because no array
reaches as far as the largest word. -/
theorem items_eq_remaining {start : Nat} (aligned : c.start = Word.capped start)
    (inWord : c.info.size ≤ Word.top) : c.items = c.remaining start := by
  fun_induction items c with
  | case1 c stepped =>
    rw [step?_eq aligned inWord] at stepped
    split at stepped
    · rename_i past
      exact (remaining_past past).symm
    · split at stepped <;> cases stepped
  | case2 c item next stepped ih =>
    rw [step?_eq aligned inWord] at stepped
    split at stepped
    · cases stepped
    · rename_i more
      split at stepped
      · rename_i short
        cases stepped
        -- After the error the cursor stands past its last ordinal.
        rw [ih aligned inWord, remaining_short (Nat.lt_of_not_le more) short,
          remaining_past (Nat.le_refl _)]
      · rename_i present
        cases stepped
        rw [ih aligned inWord,
          remaining_present (Nat.lt_of_not_le more) (Nat.lt_of_not_le present)]

end VarCursor

namespace ScopeInfo

/-! ## Loaded scope infos -/

/-- What holds of every scope info that was loaded. -/
structure IsLoaded (s : Snapshot) (i : ScopeInfo) : Prop where
  header_eq : ScopeInfoHeader.ofLayout s.layout = .ok i.header
  size_le : i.size ≤ Word.signedTop
  firstName_le : i.header.firstName ≤ i.size
  /-- The slots that count the variables are there and hold the counts. -/
  countSlot : ∀ kind, ∃ w, i.array.get? (i.header.countSlot kind) = some w ∧
    s.classify w = .smallInt (i.count kind)

theorem exists_of_isCount {tags : TagScheme} {array : FixedArray} {slot : Nat}
    (inside : slot < array.size) (h : isCount tags array slot = true) :
    ∃ w, array.get? slot = some w ∧
      tags.classify w = .smallInt (tags.decode ((array.get? slot).getD 0)).toNat := by
  obtain ⟨w, found⟩ : ∃ w, array.get? slot = some w :=
    ⟨array.words[slot], Array.getElem?_eq_getElem _⟩
  refine ⟨w, found, ?_⟩
  simp only [isCount, found, Option.getD_some] at h
  split at h
  · rename_i n classified
    have decoded := TagScheme.decode_of_classify _ classified
    have natural : 0 ≤ n := by simpa using h
    rw [found, Option.getD_some, classified, decoded, Int.toNat_of_nonneg natural]
  · cases h

theorem all_countSlots {header : ScopeInfoHeader} {p : Nat → Bool} :
    (VarKind.all.map header.countSlot).all p = true ↔ ∀ kind, p (header.countSlot kind) = true := by
  rw [List.all_map, List.all_eq_true]
  exact ⟨fun h kind => h kind kind.mem_all, fun h kind _ => h kind⟩

theorem any_countSlots {header : ScopeInfoHeader} {p : Nat → Bool} :
    (VarKind.all.map header.countSlot).any p = true ↔ ∃ kind, p (header.countSlot kind) = true := by
  rw [List.any_map, List.any_eq_true]
  exact ⟨fun ⟨kind, _, h⟩ => ⟨kind, h⟩, fun ⟨kind, h⟩ => ⟨kind, kind.mem_all, h⟩⟩

theorem flaw?_eq_none {tags : TagScheme} {header : ScopeInfoHeader} {array : FixedArray} :
    flaw? tags header array = none ↔
      header.firstName ≤ array.size ∧ ∀ kind, header.countSlot kind < array.size ∧
        isCount tags array (header.countSlot kind) = true := by
  simp only [flaw?]
  split
  · rename_i short
    simp only [reduceCtorEq, false_iff]
    rintro ⟨long, slots⟩
    rcases short with short | past
    · omega
    · obtain ⟨kind, past⟩ := any_countSlots.1 past
      have within := (slots kind).1
      simp only [decide_eq_true_eq] at past
      omega
  · rename_i long
    obtain ⟨first, within⟩ := not_or.1 long
    simp only [any_countSlots, decide_eq_true_eq, not_exists, Nat.not_le] at within
    split
    · rename_i counted
      simp only [true_iff]
      exact ⟨Nat.le_of_not_lt first, fun kind => ⟨within kind, all_countSlots.1 counted kind⟩⟩
    · rename_i uncounted
      simp only [reduceCtorEq, false_iff]
      rintro ⟨-, slots⟩
      exact uncounted (all_countSlots.2 fun kind => (slots kind).2)

theorem isLoaded_of_load {s : Snapshot} {w : Word} {policy : AllocationPolicy} {i : ScopeInfo}
    {b b' : Budget} (loaded : (load s w policy).runFrom b = (.ok i, b')) : i.IsLoaded s := by
  obtain ⟨header, described, rest⟩ := Loading.exists_of_runFrom_ofExcept_bind loaded
  obtain ⟨array, mid, read, rest⟩ := Loading.exists_of_runFrom_bind rest
  split at rest
  · rename_i flawless
    cases rest
    obtain ⟨long, slots⟩ := flaw?_eq_none.1 flawless
    exact ⟨described, FixedArray.size_le_of_loadAs read, long,
      fun kind => exists_of_isCount (slots kind).1 (slots kind).2⟩
  · obtain ⟨_, left, -, failed⟩ := Loading.exists_of_runFrom_bind rest
    cases failed

/-! ## Regions -/

variable (i : ScopeInfo) (kind : VarKind)

/-- Where the names of a kind start, whether or not a word holds the number. -/
def regionStart : VarKind → Nat
  | .parameter => i.header.firstName
  | .stackLocal => i.header.firstName + i.count .parameter + i.header.stackLocalHeader
  | .contextLocal =>
    i.header.firstName + i.count .parameter + i.header.stackLocalHeader + i.count .stackLocal

/-- The variables of a kind whose slots the array has. -/
def present : List ScopeVar :=
  ((List.range (i.count kind)).filter (i.regionStart kind + · < i.size)).map fun n =>
    { kind, ordinal := n, slot := i.regionStart kind + n }

/-- The error that a list of a kind's variables ends with if the array ends before its last name. -/
def ending? : Option DecodeError :=
  if 0 < i.count kind ∧ i.size < i.regionStart kind + i.count kind then
    some (.corruptArray i.address .namesMissing)
  else none

/-- What a list of a kind's variables has to hold. -/
def listing : List (Except DecodeError ScopeVar) :=
  (i.present kind).map .ok ++ (i.ending? kind).toList.map .error

theorem start_eq : i.start kind = Word.capped (i.regionStart kind) := by
  cases kind <;>
    simp [start, VarKind.all, past, ScopeInfoHeader.gap, regionStart, Word.capped] <;> omega

variable {i}

theorem items_vars (inWord : i.size ≤ Word.top) (kind : VarKind) :
    (i.vars kind).items = i.listing kind := by
  have remaining : (i.vars kind).remaining (i.regionStart kind) =
      ((List.range' 0 (i.count kind)).filter (i.regionStart kind + · < i.size)).map
        (fun n => .ok { kind, ordinal := n, slot := i.regionStart kind + n }) ++
      if 0 < i.count kind ∧ i.size < i.regionStart kind + i.count kind then
        [.error (.corruptArray i.address .namesMissing)] else [] := rfl
  rw [VarCursor.items_eq_remaining (i.start_eq kind) inWord, remaining, listing, present, ending?,
    List.range_eq_range', List.map_map]
  congr 1
  split <;> rfl

/-- The variables that are delivered. -/
def delivered (i : ScopeInfo) (kind : VarKind) : List ScopeVar :=
  (i.vars kind).items.filterMap Except.toOption

theorem delivered_eq (inWord : i.size ≤ Word.top) (kind : VarKind) :
    i.delivered kind = i.present kind := by
  have ok : Except.toOption ∘ (Except.ok : ScopeVar → Except DecodeError ScopeVar) = some := rfl
  have error : Except.toOption ∘ (Except.error : DecodeError → Except DecodeError ScopeVar) =
      fun _ => none := rfl
  rw [delivered, items_vars inWord, listing, List.filterMap_append, List.filterMap_map,
    List.filterMap_map, ok, error]
  simp

/-- A region that the array has room for is listed as a whole. -/
theorem listing_of_fits {kind : VarKind} (fits : i.regionStart kind + i.count kind ≤ i.size) :
    i.listing kind = (List.range (i.count kind)).map fun n =>
      .ok { kind, ordinal := n, slot := i.regionStart kind + n } := by
  have all : (List.range (i.count kind)).filter (i.regionStart kind + · < i.size) =
      List.range (i.count kind) := by
    rw [List.filter_eq_self]
    intro n mem
    have counted := List.mem_range.1 mem
    simp only [decide_eq_true_eq]
    omega
  have whole : i.ending? kind = none := by
    rw [ending?, if_neg (by omega)]
  rw [listing, whole, present, all, List.map_map]
  exact List.append_nil _

/-! ## Slots -/

theorem slot_of_mem_present {v : ScopeVar} {kind : VarKind} (mem : v ∈ i.present kind) :
    i.regionStart kind ≤ v.slot ∧ v.slot < i.regionStart kind + i.count kind ∧ v.slot < i.size := by
  simp only [present, List.mem_map, List.mem_filter, List.mem_range, decide_eq_true_eq] at mem
  obtain ⟨n, ⟨counted, inside⟩, rfl⟩ := mem
  dsimp only
  omega

theorem present_increases (kind : VarKind) :
    (i.present kind).Pairwise fun v v' => v.slot < v'.slot := by
  rw [present, List.pairwise_map]
  apply List.Pairwise.filter
  apply List.pairwise_lt_range.imp
  intro n n' less
  dsimp only
  omega

theorem slot_lt_of_regions {kind kind' : VarKind}
    (order : i.regionStart kind + i.count kind ≤ i.regionStart kind') :
    ∀ v ∈ i.present kind, ∀ v' ∈ i.present kind', v.slot < v'.slot := by
  intro v mem v' mem'
  have below := (slot_of_mem_present mem).2.1
  have above := (slot_of_mem_present mem').1
  omega

/-- The regions follow each other, so the slots of all variables increase. -/
theorem slots_increase (i : ScopeInfo) :
    (VarKind.all.flatMap i.present).Pairwise fun v v' => v.slot < v'.slot := by
  have stackLocals : i.regionStart .parameter + i.count .parameter ≤ i.regionStart .stackLocal :=
    Nat.le_add_right _ _
  have contextLocals : i.regionStart .stackLocal + i.count .stackLocal ≤
      i.regionStart .contextLocal := Nat.le_refl _
  have parameters : ∀ v ∈ i.present .parameter,
      ∀ v' ∈ i.present .stackLocal ++ i.present .contextLocal, v.slot < v'.slot := by
    intro v mem v' mem'
    rcases List.mem_append.1 mem' with mem' | mem'
    · exact slot_lt_of_regions stackLocals v mem v' mem'
    · exact slot_lt_of_regions (by omega) v mem v' mem'
  have regions : VarKind.all.flatMap i.present =
      i.present .parameter ++ (i.present .stackLocal ++ i.present .contextLocal) := by
    simp [VarKind.all]
  rw [regions, List.pairwise_append, List.pairwise_append]
  exact ⟨present_increases _, ⟨present_increases _, present_increases _,
    slot_lt_of_regions contextLocals⟩, parameters⟩

theorem firstName_le_regionStart (i : ScopeInfo) (kind : VarKind) :
    i.header.firstName ≤ i.regionStart kind := by
  cases kind <;> simp only [regionStart] <;> omega

/-! ## Visits -/

section Visits

variable {m : Type → Type} [Monad m] [LawfulMonad m] {β : Type}

/-- The result of a visit that went through all variables. -/
def unbroken (ending : Option DecodeError) : Except DecodeError (Flow β) :=
  match ending with
  | some e => .error e
  | none => .ok .goOn

theorem visit_listing {visitor : ScopeVar → m (Flow β)}
    {step : Except DecodeError ScopeVar → m (Flow (Except DecodeError (Flow β)))}
    (ok : ∀ v, step (.ok v) = do
      match ← visitor v with
      | .goOn => return .goOn
      | .broke value => return .broke (.ok (.broke value)))
    (error : ∀ e, step (.error e) = return .broke (.error e))
    (vs : List ScopeVar) (ending : Option DecodeError) :
    (do
      match ← visit step (vs.map .ok ++ ending.toList.map .error) with
      | .goOn => return .ok .goOn
      | .broke result => return result) =
    do
      match ← visit visitor vs with
      | .goOn => return unbroken ending
      | .broke value => return .ok (.broke value) := by
  induction vs with
  | nil =>
    cases ending with
    | none => simp [visit, unbroken]
    | some e => simp [visit, unbroken, error]
  | cons v vs ih =>
    simp only [List.map_cons, List.cons_append, visit, ok, bind_assoc]
    apply bind_congr
    intro flow
    cases flow with
    | goOn => simpa using ih
    | broke value => simp

theorem visitVars_eq (inWord : i.size ≤ Word.top) (kind : VarKind)
    (visitor : ScopeVar → m (Flow β)) :
    i.visitVars kind visitor = do
      match ← visit visitor (i.present kind) with
      | .goOn => return unbroken (i.ending? kind)
      | .broke value => return .ok (.broke value) := by
  rw [visitVars, items_vars inWord, listing]
  exact visit_listing (fun _ => rfl) (fun _ => rfl) _ _

end Visits

/-- **The regions of a loaded scope info are exact,** whatever indices the layout has and whatever
counts the target. The variables of a kind are delivered as its listing says, one with each step and
then nothing for ever, and no step leaves more items than the bound announces. The slots of all
variables delivered differ, and they lie past the header and inside the array. A visit goes through
the variables delivered up to the first break, and without a break ends with the listing's error. -/
theorem regions_of_load {s : Snapshot} {w : Word} {policy : AllocationPolicy} {b b' : Budget}
    (loaded : (load s w policy).runFrom b = (.ok i, b')) :
    i.IsLoaded s ∧
    (∀ kind, (i.vars kind).items = i.listing kind ∧
      (i.listing kind).length ≤ (i.vars kind).bound ∧
      ∀ n k, k < n → ∃ bound, ((i.vars kind).steps n)[k]? = some ((i.listing kind)[k]?, bound) ∧
        (i.listing kind).length - (k + 1) ≤ bound) ∧
    ((VarKind.all.flatMap i.delivered).map (·.slot)).Nodup ∧
    (∀ kind, ∀ v ∈ i.delivered kind, i.header.firstName ≤ v.slot ∧ v.slot < i.size) ∧
    ∀ {m : Type → Type} [Monad m] [LawfulMonad m] {β : Type} (kind : VarKind)
      (visitor : ScopeVar → m (Flow β)),
      i.visitVars kind visitor = do
        match ← visit visitor (i.delivered kind) with
        | .goOn => return unbroken (i.ending? kind)
        | .broke value => return .ok (.broke value) := by
  have isLoaded := isLoaded_of_load loaded
  have inWord : i.size ≤ Word.top := Nat.le_trans isLoaded.size_le (by decide)
  have delivers : i.delivered = i.present := funext (delivered_eq inWord)
  refine ⟨isLoaded, ?lists, ?distinct, ?inside, ?visits⟩
  case lists =>
    intro kind
    rw [← items_vars inWord kind]
    exact ⟨rfl, VarCursor.length_items_le _, fun n k => VarCursor.exists_step_of_lt _⟩
  case distinct =>
    rw [delivers, List.nodup_iff_pairwise_ne, List.pairwise_map]
    exact i.slots_increase.imp Nat.ne_of_lt
  case inside =>
    intro kind v mem
    rw [delivers] at mem
    have slot := slot_of_mem_present mem
    exact ⟨Nat.le_trans (i.firstName_le_regionStart kind) slot.1, slot.2.2⟩
  case visits =>
    intro m _ _ β kind visitor
    rw [delivers]
    exact visitVars_eq inWord kind visitor

end ScopeInfo

namespace Sample

/-- The scope info of the sample, with the slots that the layout puts before the stack locals. -/
def scopeInfo (stackLocalHeader : Nat) : ScopeInfo where
  array := ⟨⟨scopeSlots.toArray, 72⟩, 0x1048⟩
  header := ⟨1, 2, 3, 4, stackLocalHeader⟩
  tags := layout.tags

/-- More slots before the stack locals than any array has leave the parameter, and of the local
variables an error for each kind. -/
theorem regions_of_scopeInfo :
    (ScopeInfo.load (closureHeap 0xffffffffffffffff) 0x1049 .blocking).runFrom .unlimited =
      (.ok (scopeInfo Word.top), Budget.unlimited.booking 72) ∧
    ((scopeInfo Word.top).vars .parameter).items = [.ok ⟨.parameter, 0, 4⟩] ∧
    ∀ kind, kind ≠ .parameter →
      ((scopeInfo Word.top).vars kind).items = [.error (.corruptArray 0x1048 .namesMissing)] := by
  have loaded : (ScopeInfo.load (closureHeap 0xffffffffffffffff) 0x1049 .blocking).runFrom
      .unlimited = (.ok (scopeInfo Word.top), Budget.unlimited.booking 72) :=
    Prod.ext (ok_of_toOption (by decide +kernel)) (by decide +kernel)
  have lists := fun kind => ((ScopeInfo.regions_of_load loaded).2.1 kind).1
  refine ⟨loaded, ?_, ?_⟩
  · rw [lists]
    rfl
  · intro kind other
    rw [lists]
    cases kind with
    | parameter => exact absurd rfl other
    | stackLocal => rfl
    | contextLocal => rfl

end Sample

end Postmortem
