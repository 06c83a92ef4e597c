import Postmortem.Proofs.Checked.Words
import Postmortem.Proofs.HeapString.Capacity
import Postmortem.Proofs.HeapString.Flatten
import Postmortem.Proofs.HeapString.Walk
import Postmortem.Proofs.Memory.Arrays

/-! # What visits cost

Every branch of a walk ends in one of three ways: some text is added, the writing is broken off, or
the branch has run into a string that has none of the characters asked of it. Branches are no
longer than the levels that are followed, so the visits are bounded by what they yield
(`HeapString.settled_rangeScript`), and that is bounded by the room in the buffer, except for the
idle visits to empty ranges (`HeapString.write_visits_le`).

The strings of a tree have all the characters asked of them, so their visits are bounded by the room
alone. On other heaps the exception is essential. `HeapString.Hollow` are concatenations that claim
`2 ^ k` characters and have none; they are walked through in `3 * 2 ^ k - 1` visits, though they
share their halves, and nothing is added to the buffer (`HeapString.Hollow.play_rangeScript`). -/

namespace Postmortem

/-- How many visits are to an empty range. -/
def idleVisits (visits : List Visit) : Nat := visits.countP fun v => v.length = 0

namespace Outcome

/-- The visits to strings, the oldest first. -/
def visits (o : Outcome) : List Visit := o.events.filterMap TraceEvent.visit?

/-- What comes of a stretch of writing: bytes of text, idle visits, and its end if it was broken
off. -/
def yield (o : Outcome) : Nat :=
  utf8Length o.text + idleVisits o.visits + if o.ending = .finished then 0 else 1

theorem yield_pos_of_ending {o : Outcome} (h : o.ending ≠ .finished) : 0 < o.yield := by
  rw [yield, if_neg h]
  omega

theorem yield_le (o : Outcome) : o.yield ≤ utf8Length o.text + 1 + idleVisits o.visits := by
  unfold yield
  split <;> omega

theorem yield_append_of_finished {o : Outcome} (h : o.ending = .finished) (more : Outcome) :
    (o.append more).yield = o.yield + more.yield := by
  rw [append_of_finished h]
  simp only [yield, visits, idleVisits, h, if_true, utf8Length_append, List.filterMap_append,
    List.countP_append]
  omega

theorem yield_le_append (o more : Outcome) : o.yield ≤ (o.append more).yield := by
  by_cases done : o.ending = .finished
  · rw [yield_append_of_finished done]
    exact Nat.le_add_right _ _
  · exact Nat.le_of_eq (by rw [append_of_not_finished done])

/-- What comes of the writing covers its visits, `levels` of them for each unit. -/
def Covers (levels : Nat) (o : Outcome) : Prop := o.visits.length ≤ o.yield * levels

/-- Something comes of the writing, and it covers the visits. -/
structure Settled (levels : Nat) (o : Outcome) : Prop where
  covers : o.Covers levels
  yield_pos : 0 < o.yield

variable {levels room : Nat} {o o' : Outcome} {mode : EscapeMode}

theorem Covers.of_visits_eq_nil (h : o.visits = []) : o.Covers levels := by
  simp [Covers, h]

theorem Covers.append (h : o.Covers levels) (h' : o'.Covers levels) :
    (o.append o').Covers levels := by
  by_cases done : o.ending = .finished
  · rw [Covers, yield_append_of_finished done, append_of_finished done, visits,
      List.filterMap_append, List.length_append, Nat.add_mul]
    exact Nat.add_le_add h h'
  · rw [append_of_not_finished done]
    exact h

/-- A visit is covered by what comes of its components, or is idle. -/
theorem Covers.visit {script : List Action} (h : (play mode room script).Covers levels)
    (room_pos : 0 < room) {v : Visit} (yields : 0 < (play mode room script).yield ∨ v.length = 0) :
    (play mode room (.gate :: .log (.visited v) :: script)).Settled (levels + 1) := by
  rw [play_visit mode room_pos]
  generalize play mode room script = o at h yields
  have yield_eq : ({ o with events := .visited v :: o.events } : Outcome).yield =
      o.yield + if v.length = 0 then 1 else 0 := by
    simp [yield, visits, idleVisits, TraceEvent.visit?, List.countP_cons]
    omega
  have pos : 0 < o.yield + if v.length = 0 then 1 else 0 := by
    rcases yields with pos | idle
    · exact Nat.add_pos_left pos _
    · simp [idle]
  refine ⟨?_, yield_eq ▸ pos⟩
  have one_more : ({ o with events := .visited v :: o.events } : Outcome).visits.length =
      o.visits.length + 1 := rfl
  rw [Covers] at h ⊢
  rw [yield_eq, one_more, Nat.mul_succ, Nat.add_mul]
  omega

theorem yield_le_excused (o : Outcome) (room : Nat) : o.yield ≤ (o.excused room).yield := by
  unfold excused
  split
  · exact Nat.le_refl _
  · simp only [yield, visits, utf8Length_append]
    omega
  · exact Nat.le_refl _

end Outcome

/-! ## Leaves -/

section actions

variable (mode : EscapeMode) {room : Nat} (script : List Action)

theorem yield_play_fail (e : DecodeError) : 0 < (play mode room (.fail e :: script)).yield :=
  Outcome.yield_pos_of_ending (by simp [play, Action.perform, Outcome.append])

theorem yield_play_write (unit : UInt16) : 0 < (play mode room (.write unit :: script)).yield := by
  refine Nat.lt_of_lt_of_le ?_ (Outcome.yield_le_append _ _)
  rw [Action.perform]
  split
  · exact Outcome.yield_pos_of_ending (by simp)
  · have pos := mode.utf8Length_escape_pos unit
    simp only [Outcome.yield]
    omega

theorem yield_play_placeholder (room_pos : 0 < room) (p : Placeholder) :
    0 < (play mode room (.placeholder p :: script)).yield := by
  refine Nat.lt_of_lt_of_le ?_ (Outcome.yield_le_append _ _)
  have plain : ∀ c ∈ p.text.toList.take room, c.utf8Size = 1 := fun c mem =>
    (p.plain_text c (List.mem_of_mem_take mem)).utf8Size
  have length := utf8Length_eq_length plain
  have nonempty : 0 < p.text.toList.length := by cases p <;> decide
  rw [List.length_take] at length
  simp only [Action.perform, Outcome.yield]
  omega

theorem yield_play_log_read (h : HeapString) (address : Word) (length : Nat) :
    (play mode room (.log (.read h address length) :: script)).yield =
      (play mode room script).yield := by
  rw [play_log]
  rfl

theorem visits_play_eq_nil {script : List Action} (silent : scriptVisits script = []) :
    (play mode room script).visits = [] := by
  have before := (events_play_isPrefix mode room script).filterMap TraceEvent.visit?
  rw [scriptVisits] at silent
  rw [silent] at before
  exact List.prefix_nil.1 before

end actions

namespace HeapString

variable {s : Snapshot} {mode : EscapeMode} {h : HeapString} {room : Nat}

/-- Characters that are read are written, or the writing is broken off. -/
theorem yield_chunkScript (base : Word) (start : Nat) {remaining : Nat} (more : remaining ≠ 0) :
    0 < (play mode room (h.chunkScript s base start 0 remaining)).yield := by
  rw [chunkScript, if_neg more]
  dsimp only
  split
  · exact yield_play_fail mode [] _
  · rw [yield_play_log_read]
    cases read : s.readBytes _ (min remaining h.chunkLength * h.encoding.width) with
    | error e => exact yield_play_fail mode [] e
    | ok bytes =>
      rw [orFail]
      split
      · refine Outcome.yield_pos_of_ending ?_
        simp [play, Action.perform, Outcome.append]
      · have count : (h.encoding.units bytes).length = min remaining h.chunkLength :=
          h.encoding.length_units (Checked.length_of_readBytes s read)
        have pos := h.chunkLength_pos
        cases units : h.encoding.units bytes with
        | nil =>
          rw [units, List.length_nil] at count
          omega
        | cons unit rest => exact yield_play_write mode _ unit

theorem yield_charsScript (budget : Budget) (base : Word) (start : Nat) {length : Nat}
    (more : length ≠ 0) :
    0 < (play mode room (h.charsScript s budget base start length)).yield := by
  rw [charsScript]
  cases budget.book (UInt64.ofNat (min length h.chunkLength * h.encoding.width)) h.policy with
  | error e => exact yield_play_fail mode [] e
  | ok booked => exact yield_chunkScript base start more

/-! ## Ranges -/

/-- **The visits of a range are covered by what comes of it.** The heap may be cyclic, and its
lengths may contradict each other. -/
theorem settled_rangeScript (s : Snapshot) (mode : EscapeMode) (budget : Budget) (levels : Nat)
    (h : HeapString) (depth start length room : Nat) :
    (play mode room (rangeScript s budget levels h depth start length)).Settled levels := by
  induction levels generalizing h depth start length room with
  | zero =>
    have unvisited : scriptVisits (rangeScript s budget 0 h depth start length) = [] := rfl
    refine ⟨.of_visits_eq_nil (visits_play_eq_nil mode unvisited), ?_⟩
    refine Outcome.yield_pos_of_ending ?_
    simp [rangeScript, play, Action.perform, Outcome.append]
  | succ levels ih =>
    by_cases noRoom : room = 0
    · subst noRoom
      have full : (Outcome.mk .full [] []).ending ≠ .finished := by simp
      rw [rangeScript, play, Action.perform, if_pos rfl, Outcome.append_of_not_finished full]
      exact ⟨.of_visits_eq_nil rfl, Outcome.yield_pos_of_ending full⟩
    have room_pos := Nat.pos_of_ne_zero noRoom
    -- If the visit lacks something it needs, the writing is broken off.
    have fails (v : Visit) (e : DecodeError) :
        (play mode room [.gate, .log (.visited v), .fail e]).Settled (levels + 1) :=
      Outcome.Covers.visit (.of_visits_eq_nil (visits_play_eq_nil mode rfl)) room_pos
        (.inl (yield_play_fail mode [] e))
    rw [rangeScript]
    dsimp only
    generalize min length (h.length - min start h.length) = length
    generalize min start h.length = start
    cases h.representation with
    | sequential =>
      dsimp only
      cases s.fieldAddress h.address h.encoding.charsField with
      | error e => exact fails _ e
      | ok base =>
        have unvisited := h.scriptVisits_charsScript s budget base start length
        refine Outcome.Covers.visit (.of_visits_eq_nil (visits_play_eq_nil mode unvisited))
          room_pos ?_
        exact (Nat.eq_zero_or_pos length).symm.imp_left fun pos =>
          yield_charsScript budget base start (Nat.ne_of_gt pos)
    | concatenated first second =>
      dsimp only
      cases load s first h.policy with
      | error e => exact fails _ e
      | ok first =>
        rw [orFail]
        have rest (room : Nat) : (play mode room (if first.length < start + length then
            orFail (load s second h.policy) fun second =>
              rangeScript s budget levels second (depth + 1) (start - first.length)
                (start + length - max first.length start) else [])).Covers levels := by
          split
          · cases load s second h.policy with
            | error e => exact .of_visits_eq_nil (visits_play_eq_nil mode rfl)
            | ok second => exact (ih second (depth + 1) _ _ _).covers
          · exact .of_visits_eq_nil rfl
        refine Outcome.Covers.visit ?_ room_pos ?_
        · rw [play_append]
          refine .append ?_ (rest _)
          split
          · exact (ih first (depth + 1) _ _ _).covers
          · exact .of_visits_eq_nil rfl
        · rw [play_append]
          -- A range with characters in it reaches one of the halves.
          by_cases before : start < first.length
          · rw [if_pos before]
            exact .inl (Nat.lt_of_lt_of_le (ih first (depth + 1) _ _ _).yield_pos
              (Outcome.yield_le_append _ _))
          · rw [if_neg before, Outcome.yield_append_of_finished rfl]
            by_cases beyond : first.length < start + length
            · rw [if_pos beyond]
              refine .inl (Nat.add_pos_right _ ?_)
              cases load s second h.policy with
              | error e => exact yield_play_fail mode [] e
              | ok second => exact (ih second (depth + 1) _ _ _).yield_pos
            · exact .inr (by dsimp only; omega)
    | sliced parent offset =>
      dsimp only
      cases load s parent h.policy with
      | error e => exact fails _ e
      | ok parent =>
        have settled := ih parent (depth + 1) (Word.capped (offset + start)) length room
        exact settled.covers.visit room_pos (.inl settled.yield_pos)
    | external resource data =>
      cases data with
      | none =>
        refine Outcome.Covers.visit (.of_visits_eq_nil (visits_play_eq_nil mode rfl)) room_pos
          (.inl ?_)
        exact yield_play_placeholder mode [] room_pos _
      | some base =>
        have unvisited : scriptVisits ((h.charsScript s budget base start length).flatMap excuse) =
            [] := by
          rw [scriptVisits_excuse, scriptVisits_charsScript]
        refine Outcome.Covers.visit (.of_visits_eq_nil (visits_play_eq_nil mode unvisited))
          room_pos ?_
        refine (Nat.eq_zero_or_pos length).symm.imp_left fun pos => ?_
        rw [play_excuse]
        exact Nat.lt_of_lt_of_le (yield_charsScript budget base start (Nat.ne_of_gt pos))
          (Outcome.yield_le_excused _ room)

/-! ## Trees -/

theorem visit_of_range {h : HeapString} {start length : Nat} (range : start + length ≤ h.length)
    (depth : Nat) : (Request.mk h start length).visit depth = ⟨h, depth, start, length⟩ := by
  simp only [Request.visit, Visit.mk.injEq, true_and]
  omega

/-- The strings of a tree have the characters asked of them. -/
theorem Holds.length_pos_of_mem_walk {tree : StringTree} (held : Holds s h tree)
    {levels depth start length : Nat} (pos : 0 < length) (range : start + length ≤ h.length)
    {v : Visit} (mem : v ∈ walk s levels depth ⟨h, start, length⟩) : 0 < v.length := by
  induction held generalizing levels depth start length v with
  | sequential shown | external shown =>
    cases levels with
    | zero => cases mem
    | succ levels =>
      rw [walk, visit_of_range range, Visit.requests, shown] at mem
      rw [List.mem_singleton.1 mem]
      exact pos
  | @concatenated h first second w w' tree tree' shown loaded loaded' held held' whole ih ih' =>
    cases levels with
    | zero => cases mem
    | succ levels =>
      rw [walk, visit_of_range range, Visit.requests] at mem
      simp only [shown, loaded, loaded'] at mem
      rcases List.mem_cons.1 mem with rfl | mem
      · exact pos
      · rw [List.flatMap_append] at mem
        rcases List.mem_append.1 mem with mem | mem
        · split at mem
          · rw [List.flatMap_singleton] at mem
            exact ih (by omega) (by omega) mem
          · cases mem
        · split at mem
          · rw [List.flatMap_singleton] at mem
            exact ih' (by omega) (by omega) mem
          · cases mem
  | @sliced h parent w offset tree shown loaded held whole ih =>
    cases levels with
    | zero => cases mem
    | succ levels =>
      have inWord : offset + start ≤ Word.top := by
        have := length_le_of_load loaded
        omega
      rw [walk, visit_of_range range, Visit.requests] at mem
      simp only [shown, loaded, Word.capped_eq_self inWord] at mem
      rcases List.mem_cons.1 mem with rfl | mem
      · exact pos
      · rw [List.flatMap_singleton] at mem
        exact ih pos (by omega) mem

/-! ## Writing -/

variable {o : WriteOptions}

/-- **The visits of a writing are bounded by the room for text, idle visits apart.** A string is
written without quotes; neither the heap nor the string, its depth or the buffer is restricted. For
each byte of room, for each visit to a range without characters and for the end of the writing,
there are no more than `maxDepth + 1` visits. A tree of strings has no idle visits that count, so
its writing is bounded by the room alone. -/
theorem write_visits_le (s : Snapshot) (mode : EscapeMode) (h : HeapString)
    (unquoted : o.quoted = false) (t : Transcript) :
    ∃ visits, (h.write s mode o t).2.visits = t.visits ++ visits ∧
      visits.length ≤ (t.buffer.left + 1 + idleVisits visits) * (maxDepth + 1) ∧
      ∀ tree, Holds s h tree → visits.length ≤ (t.buffer.left + 1) * (maxDepth + 1) := by
  have before : (play mode t.buffer.left (h.script s t.budget o.depth)).visits <+:
      walk s (maxDepth + 1 - o.depth) o.depth ⟨h, 0, h.length⟩ := by
    rw [← scriptVisits_rangeScript s h t.budget]
    exact (events_play_isPrefix mode _ _).filterMap _
  have covers : (play mode t.buffer.left (h.script s t.budget o.depth)).visits.length ≤
      (play mode t.buffer.left (h.script s t.budget o.depth)).yield * (maxDepth + 1 - o.depth) :=
    (settled_rangeScript s mode t.budget _ h o.depth 0 h.length _).covers
  have fits := utf8Length_play_le mode t.buffer.left (h.script s t.budget o.depth)
  have same : (h.write s mode o t).2.visits =
      t.visits ++ (play mode t.buffer.left (h.script s t.budget o.depth)).visits := by
    rw [h.write_eq_run s mode unquoted]
    exact Outcome.visits_applyTo _ t
  generalize play mode t.buffer.left (h.script s t.budget o.depth) = written at *
  have bound : written.visits.length ≤
      (t.buffer.left + 1 + idleVisits written.visits) * (maxDepth + 1) := by
    refine Nat.le_trans covers (Nat.mul_le_mul ?_ (Nat.sub_le _ _))
    exact Nat.le_trans written.yield_le (by omega)
  refine ⟨written.visits, same, bound, fun tree held => ?_⟩
  rcases Nat.eq_zero_or_pos h.length with empty | pos
  · -- Nothing is asked of an empty string, so its walk has a single branch.
    have single := Nat.le_trans before.length_le (length_walk_le s _ _ _)
    simp only [empty, Nat.max_zero, Nat.one_mul] at single
    have levels : maxDepth + 1 ≤ (t.buffer.left + 1) * (maxDepth + 1) :=
      Nat.le_mul_of_pos_left _ (Nat.succ_pos _)
    omega
  · have busy : idleVisits written.visits = 0 := by
      refine List.countP_eq_zero.2 fun v mem => ?_
      have := held.length_pos_of_mem_walk pos (by omega) (before.subset mem)
      simpa using Nat.ne_of_gt this
    rwa [busy] at bound

/-- The sample's concatenation, written to twenty bytes. -/
theorem write_joined_visits :
    ∃ visits, (Sample.joined.write Sample.heap .raw {} (Sample.transcript 20)).2.visits =
        [] ++ visits ∧
      visits.length ≤ (20 + 1 + idleVisits visits) * 513 ∧ visits.length ≤ (20 + 1) * 513 := by
  obtain ⟨visits, same, bound, trees⟩ :=
    write_visits_le (o := {}) Sample.heap .raw Sample.joined rfl (Sample.transcript 20)
  exact ⟨visits, same, bound, trees _ Sample.holds_joined⟩

/-! ## Hollow strings -/

/-- A concatenation that claims `2 ^ k` characters and has none. Its halves are one and the same
string. -/
inductive Hollow (s : Snapshot) : Nat → HeapString → Prop where
  | single {h empty : HeapString} {w base : Word} (policy : h.policy = .blocking)
      (shown : h.representation = .concatenated w w) (loaded : load s w .blocking = .ok empty)
      (leaf : empty.representation = .sequential)
      (found : s.fieldAddress empty.address empty.encoding.charsField = .ok base)
      (bare : empty.length = 0) (length : h.length = 1) : Hollow s 0 h
  | double {k : Nat} {h half : HeapString} {w : Word} (policy : h.policy = .blocking)
      (shown : h.representation = .concatenated w w) (loaded : load s w .blocking = .ok half)
      (halves : Hollow s k half) (length : h.length = 2 * half.length) : Hollow s (k + 1) h

namespace Hollow

variable {k : Nat}

theorem length_pos (hollow : Hollow s k h) : 0 < h.length := by
  induction hollow with
  | single _ _ _ _ _ _ length => omega
  | double _ _ _ _ length ih => omega

/-- **A hollow string is walked through in `3 * 2 ^ k - 1` visits and has no text.** -/
theorem play_rangeScript (hollow : Hollow s k h) (mode : EscapeMode) (budget : Budget)
    {levels : Nat} (deep : k + 2 ≤ levels) (depth : Nat) {room : Nat} (room_pos : 0 < room) :
    ∃ events, play mode room (rangeScript s budget levels h depth 0 h.length) =
        { ending := .finished, events } ∧
      (events.filterMap TraceEvent.visit?).length + 1 = 3 * 2 ^ k := by
  induction hollow generalizing levels depth with
  | @single h empty w base policy shown loaded leaf found bare length =>
    obtain ⟨levels, rfl⟩ : ∃ n, levels = n + 2 := ⟨levels - 2, by omega⟩
    have granted : budget.book 0 .blocking = .ok (budget.booking 0) :=
      Budget.book_blocking (Nat.zero_le _)
    have chars : empty.charsScript s budget base 0 0 = [] := by
      rw [charsScript, policy_of_load loaded, Nat.zero_min, Nat.zero_mul]
      rw [show UInt64.ofNat 0 = 0 from rfl, granted, orFail, chunkScript, if_pos rfl]
    have script : rangeScript s budget (levels + 2) h depth 0 h.length =
        [.gate, .log (.visited ⟨h, depth, 0, 1⟩), .gate,
          .log (.visited ⟨empty, depth + 1, 0, 0⟩)] := by
      rw [rangeScript, length]
      simp only [shown, policy, loaded, bare, orFail]
      rw [if_neg (by decide), if_pos (by decide), rangeScript]
      simp only [leaf, found, bare, orFail]
      exact congrArg (fun rest => Action.gate :: .log _ :: .gate :: .log _ :: rest) chars
    refine ⟨[.visited ⟨h, depth, 0, 1⟩, .visited ⟨empty, depth + 1, 0, 0⟩], ?_, rfl⟩
    rw [script, play_visit mode room_pos, play_visit mode room_pos]
    rfl
  | @double k h half w policy shown loaded halves length ih =>
    obtain ⟨levels, rfl⟩ : ∃ n, levels = n + 1 := ⟨levels - 1, by omega⟩
    obtain ⟨events, plays, count⟩ := ih (show k + 2 ≤ levels by omega) (depth + 1)
    have pos := halves.length_pos
    have script : rangeScript s budget (levels + 1) h depth 0 h.length =
        .gate :: .log (.visited ⟨h, depth, 0, h.length⟩) ::
          (rangeScript s budget levels half (depth + 1) 0 half.length ++
            rangeScript s budget levels half (depth + 1) 0 half.length) := by
      rw [rangeScript]
      simp only [shown, policy, loaded, orFail, Nat.zero_min, Nat.sub_zero, Nat.min_self,
        Nat.zero_add]
      rw [if_pos pos, if_pos (by omega), Nat.zero_sub, Nat.max_zero, Nat.min_eq_right (by omega),
        show h.length - half.length = half.length by omega]
    refine ⟨.visited ⟨h, depth, 0, h.length⟩ :: (events ++ events), ?_, ?_⟩
    · rw [script, play_visit mode room_pos, play_append, plays, utf8Length_nil, Nat.sub_zero, plays]
      rfl
    · have visits : (TraceEvent.visited ⟨h, depth, 0, h.length⟩ :: (events ++ events)).filterMap
          TraceEvent.visit? = ⟨h, depth, 0, h.length⟩ ::
            (events.filterMap TraceEvent.visit? ++ events.filterMap TraceEvent.visit?) := by
        simp [TraceEvent.visit?]
      rw [visits, List.length_cons, List.length_append, Nat.pow_succ]
      omega

theorem visits_write (hollow : Hollow s k h) (mode : EscapeMode) {o : WriteOptions}
    (unquoted : o.quoted = false) (shallow : o.depth + k + 1 ≤ maxDepth) (t : Transcript)
    (room_pos : 0 < t.buffer.left) :
    (h.write s mode o t).2.buffer = t.buffer ∧
      (h.write s mode o t).2.visits.length + 1 = t.visits.length + 3 * 2 ^ k := by
  have deep : k + 2 ≤ maxDepth + 1 - o.depth := by omega
  obtain ⟨events, plays, count⟩ := hollow.play_rangeScript mode t.budget deep o.depth room_pos
  rw [h.write_eq_run s mode unquoted, run, script, plays]
  refine ⟨t.buffer.add_nil, ?_⟩
  rw [Outcome.visits_applyTo, List.length_append]
  dsimp only
  omega

end Hollow

end HeapString

/-! ## Ten hollow strings -/

namespace Sample

/-- The word that points to the halves of a hollow string: to an empty string, or to the next
smaller hollow one. -/
def hollowHalf : Nat → Nat
  | 0 => 0x10f9
  | k + 1 => 0x1111 + 40 * k

/-- The words of a hollow string. -/
def hollowWords (k : Nat) : List Nat := [0x1031, 0, 2 ^ k <<< 32, hollowHalf k, hollowHalf k]

/-- The heap of `Sample.heap` with an empty string and ten hollow ones, each in a segment of its
own. -/
def hollowHeap : Snapshot where
  memory := ((List.range 10).foldl
    (fun image k => image.map (UInt64.ofNat (0x1110 + 40 * k))
      ((hollowWords k).flatMap wordBytes).toArray)
    (Image.empty.map 0x1000 ((words ++ [0x1001, 0, 0]).flatMap wordBytes).toArray)).memory
  layout := layout

/-- The header of a hollow string. -/
def hollow (k : Nat) : HeapString where
  address := UInt64.ofNat (0x1110 + 40 * k)
  length := 2 ^ k
  typeByte := 1
  encoding := .twoByte
  representation := .concatenated (UInt64.ofNat (hollowHalf k)) (UInt64.ofNat (hollowHalf k))
  policy := .blocking

theorem load_hollow {k : Nat} (small : k < 10) :
    HeapString.load hollowHeap (UInt64.ofNat (hollowHalf (k + 1))) .blocking = .ok (hollow k) := by
  have all : ∀ k < 10, (HeapString.load hollowHeap (UInt64.ofNat (hollowHalf (k + 1)))
      .blocking).toOption = some (hollow k) := by decide +kernel
  exact ok_of_toOption (all k small)

theorem hollow_hollow {k : Nat} (small : k < 10) : (hollow k).Hollow hollowHeap k := by
  induction k with
  | zero =>
    have loaded : HeapString.load hollowHeap 0x10f9 .blocking =
        .ok ⟨0x10f8, 0, 0, .twoByte, .sequential, .blocking⟩ := ok_of_toOption (by decide +kernel)
    have found : hollowHeap.fieldAddress 0x10f8 ⟨"SeqTwoByteString", "chars"⟩ = .ok 0x1110 :=
      ok_of_toOption (by decide +kernel)
    exact .single rfl rfl loaded rfl found rfl rfl
  | succ k ih =>
    have half := ih (by omega)
    exact .double rfl rfl (load_hollow (by omega)) half (Nat.pow_succ' ..)

end Sample

/-- The room in a buffer does not bound the visits: 1535 strings are visited, nothing is written,
and a single byte of room stays free. -/
theorem HeapString.not_visits_le_room :
    HeapString.load Sample.hollowHeap 0x1279 .blocking = .ok (Sample.hollow 9) ∧
    ((Sample.hollow 9).write Sample.hollowHeap .raw {} (Sample.transcript 1)).2.buffer =
      .ofCapacity 1 ∧
    ((Sample.hollow 9).write Sample.hollowHeap .raw {} (Sample.transcript 1)).2.visits.length =
      1535 ∧
    ¬ ((Sample.hollow 9).write Sample.hollowHeap .raw {}
        (Sample.transcript 1)).2.visits.length ≤
      ((Sample.transcript 1).buffer.left + 1) * (maxDepth + 1) := by
  obtain ⟨unchanged, count⟩ := (Sample.hollow_hollow (k := 9) (by decide)).visits_write .raw
    (o := {}) rfl (by decide) (Sample.transcript 1) (by decide)
  have begun : (Sample.transcript 1).visits.length = 0 := rfl
  have visits : ((Sample.hollow 9).write Sample.hollowHeap .raw {}
      (Sample.transcript 1)).2.visits.length = 1535 := by
    rw [begun] at count
    omega
  refine ⟨Sample.load_hollow (k := 9) (by decide), unchanged, visits, ?_⟩
  rw [visits]
  decide

end Postmortem
