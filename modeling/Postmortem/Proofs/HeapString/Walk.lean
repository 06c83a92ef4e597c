import Mathlib.Algebra.GroupWithZero.Nat
import Postmortem.Proofs.HeapString.Reads

/-! # Walks

A visit to a concatenation or a slice asks the components for ranges of their own
(`Visit.requests`). `walk` lists all the visits that come of one range, each before those to its
components, as if the buffer had no end; a writing visits the strings at the beginning of that list
(`HeapString.exists_visits_write`).

Components may be shared, contain each other and contradict each other in their lengths. All the
same the ranges that a visit asks for add up to no more than its own, and if there are two of them,
neither is empty (`Visit.requests_cases`). So a range of `n` characters divides at most `n - 1`
times, and a walk that follows strings `levels` deep has at most `max 1 n * levels` visits
(`length_walk_le`). -/

namespace Postmortem

/-- A range of characters asked of a string. -/
structure Request where
  string : HeapString
  start : Nat
  length : Nat
  deriving DecidableEq, Repr

/-- The visit that a request leads to: the range is cut to the string's own length. -/
def Request.visit (r : Request) (depth : Nat) : Visit where
  string := r.string
  depth := depth
  start := min r.start r.string.length
  length := min r.length (r.string.length - min r.start r.string.length)

/-- What a visit asks of the components of its string. A component that cannot be loaded is asked
for nothing. -/
def Visit.requests (s : Snapshot) (v : Visit) : List Request :=
  match v.string.representation with
  | .concatenated first second =>
    match HeapString.load s first v.string.policy with
    | .error _ => []
    | .ok first =>
      let split := first.length
      let stop := v.start + v.length
      (if v.start < split then [⟨first, v.start, min v.length (split - v.start)⟩] else []) ++
        (if split < stop then
          match HeapString.load s second v.string.policy with
          | .error _ => []
          | .ok second => [⟨second, v.start - split, stop - max split v.start⟩]
        else [])
  | .sliced parent offset =>
    match HeapString.load s parent v.string.policy with
    | .error _ => []
    | .ok parent => [⟨parent, Word.capped (offset + v.start), v.length⟩]
  | .sequential | .external .. => []

/-- The visits that come of a request to a string nested `depth` deep, those to strings nested
`levels` deeper or more left out. -/
def walk (s : Snapshot) : (levels depth : Nat) → Request → List Visit
  | 0, _, _ => []
  | levels + 1, depth, r =>
    r.visit depth :: ((r.visit depth).requests s).flatMap (walk s levels (depth + 1))

/-! ## Requests -/

/-- **The ranges asked of components are parts of one range,** and two of them are proper parts. -/
theorem Visit.requests_cases (s : Snapshot) (v : Visit) :
    v.requests s = [] ∨
    (∃ r, v.requests s = [r] ∧ r.length ≤ v.length) ∨
    ∃ r r', v.requests s = [r, r'] ∧ 0 < r.length ∧ 0 < r'.length ∧
      r.length + r'.length ≤ v.length := by
  unfold requests
  cases v.string.representation with
  | sequential | external => exact .inl rfl
  | sliced parent offset =>
    dsimp only
    cases HeapString.load s parent v.string.policy with
    | error e => exact .inl rfl
    | ok parent => exact .inr (.inl ⟨_, rfl, Nat.le_refl _⟩)
  | concatenated first second =>
    dsimp only
    cases HeapString.load s first v.string.policy with
    | error e => exact .inl rfl
    | ok first =>
      dsimp only
      by_cases before : v.start < first.length
      · rw [if_pos before]
        have one : min v.length (first.length - v.start) ≤ v.length := Nat.min_le_left _ _
        split
        · rename_i beyond
          cases HeapString.load s second v.string.policy with
          | error e => exact .inr (.inl ⟨_, rfl, one⟩)
          | ok second =>
            refine .inr (.inr ⟨_, _, rfl, ?_, ?_, ?_⟩) <;> dsimp only <;> omega
        · exact .inr (.inl ⟨_, rfl, one⟩)
      · rw [if_neg before]
        split
        · cases HeapString.load s second v.string.policy with
          | error e => exact .inl rfl
          | ok second =>
            refine .inr (.inl ⟨_, rfl, ?_⟩)
            dsimp only
            omega
        · exact .inl rfl

theorem Visit.sum_length_requests_le (s : Snapshot) (v : Visit) :
    ((v.requests s).map Request.length).sum ≤ v.length := by
  rcases v.requests_cases s with idle | ⟨r, one, part⟩ | ⟨r, r', two, -, -, parts⟩
  · simp [idle]
  · simpa [one] using part
  · simpa [two] using parts

theorem Request.length_visit_le (r : Request) (depth : Nat) : (r.visit depth).length ≤ r.length :=
  Nat.min_le_left _ _

/-! ## Bounds on walks -/

theorem depth_of_mem_walk {s : Snapshot} {levels depth : Nat} {r : Request} {v : Visit}
    (mem : v ∈ walk s levels depth r) : depth ≤ v.depth ∧ v.depth < depth + levels := by
  induction levels generalizing depth r with
  | zero => cases mem
  | succ levels ih =>
    rcases List.mem_cons.1 mem with rfl | mem
    · have here : (r.visit depth).depth = depth := rfl
      omega
    · obtain ⟨r', -, mem⟩ := List.mem_flatMap.1 mem
      have := ih mem
      omega

/-- **A walk is at most as long as the range times the levels that it goes down.** -/
theorem length_walk_le (s : Snapshot) (levels depth : Nat) (r : Request) :
    (walk s levels depth r).length ≤ max 1 r.length * levels := by
  induction levels generalizing depth r with
  | zero => exact Nat.zero_le _
  | succ levels ih =>
    have cut := r.length_visit_le depth
    have whole : 1 + max 1 r.length * levels ≤ max 1 r.length * (levels + 1) := by
      rw [Nat.mul_succ]
      omega
    -- A part of the range has at most as many levels for each of its characters as the range.
    have share (n : Nat) (part : n ≤ max 1 r.length) :
        n * levels ≤ max 1 r.length * levels := Nat.mul_le_mul_right levels part
    rw [walk, List.length_cons, Nat.add_comm]
    refine Nat.le_trans (Nat.add_le_add_left ?_ 1) whole
    rcases (r.visit depth).requests_cases s with idle | ⟨p, one, part⟩ |
      ⟨p, q, two, pos, pos', parts⟩
    · simp [idle]
    · rw [one, List.flatMap_singleton]
      exact Nat.le_trans (ih (depth + 1) p) (share _ (by omega))
    · rw [two, List.flatMap_cons, List.flatMap_singleton, List.length_append]
      refine Nat.le_trans (Nat.add_le_add (ih (depth + 1) p) (ih (depth + 1) q)) ?_
      rw [← Nat.add_mul]
      exact share _ (by omega)

/-! ## The visits of a script -/

/-- The visits of a script, the oldest first. -/
def scriptVisits (script : List Action) : List Visit :=
  (scriptEvents script).filterMap TraceEvent.visit?

@[simp] theorem scriptVisits_append (script more : List Action) :
    scriptVisits (script ++ more) = scriptVisits script ++ scriptVisits more := by
  simp [scriptVisits]

theorem scriptVisits_visit (v : Visit) (script : List Action) :
    scriptVisits (.gate :: .log (.visited v) :: script) = v :: scriptVisits script := rfl

theorem scriptVisits_excuse (script : List Action) :
    scriptVisits (script.flatMap excuse) = scriptVisits script := by
  rw [scriptVisits, scriptEvents_excuse, scriptVisits]

namespace HeapString

variable (s : Snapshot) (h : HeapString)

theorem scriptVisits_chunkScript (base : Word) (start done remaining : Nat) :
    scriptVisits (h.chunkScript s base start done remaining) = [] := by
  fun_induction h.chunkScript s base start done remaining with
  | case1 | case2 => rfl
  | case3 done remaining more count width address found ih =>
    change scriptVisits (orFail _ _) = []
    cases s.readBytes address (count * width) with
    | error e => rfl
    | ok bytes =>
      rw [orFail]
      split
      · rfl
      · rw [scriptVisits_append, ih, List.append_nil, scriptVisits, scriptEvents_units]
        rfl

theorem scriptVisits_charsScript (budget : Budget) (base : Word) (start length : Nat) :
    scriptVisits (h.charsScript s budget base start length) = [] := by
  rw [charsScript]
  cases budget.book (UInt64.ofNat (min length h.chunkLength * h.encoding.width)) h.policy with
  | error e => rfl
  | ok booked => exact h.scriptVisits_chunkScript s base start 0 length

/-- **The script of a range visits the strings of its walk.** -/
theorem scriptVisits_rangeScript (budget : Budget) (levels depth start length : Nat) :
    scriptVisits (rangeScript s budget levels h depth start length) =
      walk s levels depth ⟨h, start, length⟩ := by
  induction levels generalizing h depth start length with
  | zero => rfl
  | succ levels ih =>
    rw [rangeScript, walk, scriptVisits_visit, Request.visit]
    dsimp only
    generalize min length (h.length - min start h.length) = length
    generalize min start h.length = start
    refine congrArg (List.cons _) ?_
    rw [Visit.requests]
    cases h.representation with
    | sequential =>
      dsimp only
      cases s.fieldAddress h.address h.encoding.charsField with
      | error e => rfl
      | ok base => exact h.scriptVisits_charsScript s budget base _ _
    | concatenated first second =>
      dsimp only
      cases load s first h.policy with
      | error e => rfl
      | ok first =>
        rw [orFail, scriptVisits_append, List.flatMap_append]
        congr 1
        · split
          · rw [ih, List.flatMap_singleton]
          · rfl
        · split
          · cases load s second h.policy with
            | error e => rfl
            | ok second => rw [orFail, ih, List.flatMap_singleton]
          · rfl
    | sliced parent offset =>
      dsimp only
      cases load s parent h.policy with
      | error e => rfl
      | ok parent => rw [orFail, ih, List.flatMap_singleton]
    | external resource data =>
      cases data with
      | none => rfl
      | some base =>
        show scriptVisits (List.flatMap excuse _) = []
        rw [scriptVisits_excuse, scriptVisits_charsScript]

/-! ## Writing -/

theorem exists_visits_run {script : List Action} (mode : EscapeMode) (t : Transcript) :
    ∃ visits, (run mode script t).2.visits = t.visits ++ visits ∧
      visits <+: scriptVisits script :=
  ⟨_, Outcome.visits_applyTo _ t, (events_play_isPrefix mode t.buffer.left script).filterMap _⟩

/-- What a writing visits is the beginning of a walk. -/
theorem exists_visits_write (mode : EscapeMode) (o : WriteOptions) (t : Transcript) :
    ∃ visits, (h.write s mode o t).2.visits = t.visits ++ visits ∧
      visits <+: walk s (maxDepth + 1 - o.depth) o.depth ⟨h, 0, h.length⟩ := by
  have whole (t : Transcript) : ∃ visits,
      (h.writeAll s mode o.depth t).2.visits = t.visits ++ visits ∧
        visits <+: walk s (maxDepth + 1 - o.depth) o.depth ⟨h, 0, h.length⟩ := by
    rw [writeAll_eq_run, ← scriptVisits_rangeScript s h t.budget]
    exact exists_visits_run mode t
  rw [write]
  split
  · exact ⟨[], (List.append_nil _).symm, List.nil_prefix⟩
  · split
    · exact whole (reserve 1 (writeQuote mode t))
    · exact whole t

variable {o : WriteOptions}

/-- **Every walk ends within its claimed length.** A string is written that is nested at most
`maxDepth` deep; the heap may be cyclic, and its lengths may contradict each other. The strings that
are visited come first in the walk through it. They are no more than the length of the string, or 1
if that is zero, times the levels left to go down, and none of them lies deeper than `maxDepth`. The
ranges that a visit asks of the components of its string add up to no more than its own range. -/
theorem write_visits_bounded (shallow : o.depth ≤ maxDepth) (mode : EscapeMode) (t : Transcript) :
    ∃ visits, (h.write s mode o t).2.visits = t.visits ++ visits ∧
      visits <+: walk s (maxDepth + 1 - o.depth) o.depth ⟨h, 0, h.length⟩ ∧
      visits.length ≤ max 1 h.length * (maxDepth + 1 - o.depth) ∧
      (∀ v ∈ visits, o.depth ≤ v.depth ∧ v.depth ≤ maxDepth) ∧
      ∀ v ∈ visits, ((v.requests s).map Request.length).sum ≤ v.length := by
  obtain ⟨visits, same, before⟩ := h.exists_visits_write s mode o t
  refine ⟨visits, same, before, ?_, fun v mem => ?_, fun v _ => v.sum_length_requests_le s⟩
  · exact Nat.le_trans before.length_le (length_walk_le s _ _ _)
  · have within := depth_of_mem_walk (before.subset mem)
    omega

end HeapString

/-! ## A knot

The heap of `Sample.heap` with a concatenation both halves of which are itself. -/

namespace Sample

/-- The heap that holds the given words from `0x1000` on. -/
def heapOfWords (words : List Nat) : Snapshot :=
  ⟨(Image.empty.map 0x1000 (words.flatMap wordBytes).toArray).memory, layout⟩

/-- The heap. -/
def knotHeap : Snapshot := heapOfWords (words ++ [0x1031, 0, 3 <<< 32, 0x10f9, 0x10f9])

/-- The header of the concatenation. -/
def knot : HeapString := ⟨0x10f8, 3, 1, .twoByte, .concatenated 0x10f9 0x10f9, .blocking⟩

theorem load_knot : HeapString.load knotHeap 0x10f9 .blocking = .ok knot :=
  ok_of_toOption (by decide +kernel)

end Sample

/-- Three levels are left to the string that contains itself. -/
theorem HeapString.write_knot :
    HeapString.load Sample.knotHeap 0x10f9 .blocking = .ok Sample.knot ∧
    ∃ visits, (Sample.knot.write Sample.knotHeap .json { quoted := true, depth := 510 }
        (Sample.transcript 20)).2.visits = [] ++ visits ∧
      visits <+: walk Sample.knotHeap 3 510 ⟨Sample.knot, 0, 3⟩ ∧
      visits.length ≤ 9 ∧
      (∀ v ∈ visits, 510 ≤ v.depth ∧ v.depth ≤ 512) ∧
      ∀ v ∈ visits, ((v.requests Sample.knotHeap).map Request.length).sum ≤ v.length :=
  ⟨Sample.load_knot, HeapString.write_visits_bounded Sample.knotHeap Sample.knot
    (o := { quoted := true, depth := 510 }) (by decide) .json (Sample.transcript 20)⟩

end Postmortem
