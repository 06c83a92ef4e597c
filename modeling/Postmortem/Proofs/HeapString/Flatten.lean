import Postmortem.Proofs.HeapString.Script
import Postmortem.Proofs.HeapString.Tree
import Postmortem.Proofs.Text.Cut

/-! # Flattening

A header that stands for a tree is written as the flattened text of the tree, cut for the buffer.
How the characters are divided among the strings makes no difference.

The induction on the tree carries an arbitrary range of characters and the room that is left
(`HeapString.Holds.play_rangeScript`). A script that writes some units, cut for its room, and goes
on with one that writes more in the room then left, writes all of them (`Outcome.Writes.append`).
The characters of external strings are an exception: the first of a piece has to be ASCII
(`StartAscii`). There are two ways to fail: the budget refuses storage for a chunk (`Refused`), or
the tree is higher than the levels that are followed.

* `HeapString.Holds.write_eq_cutText` gives the text that is written with a budget for a chunk. -/

namespace Postmortem

/-- A piece of an external string begins with an ASCII character. -/
def Piece.StartsAscii (p : Piece) : Prop := p.external = true → ∀ unit ∈ p.units.head?, unit < 0x80

/-- The pieces that the writing comes to, in a buffer with `room` bytes left, begin with an ASCII
character if they are of external strings. -/
def StartAscii (mode : EscapeMode) (room : Nat) (pieces : List Piece) : Prop :=
  0 < room → ∀ before p after, pieces = before ++ p :: after →
    cutIndex? mode room (before.flatMap Piece.units) = none → p.StartsAscii

namespace StartAscii

variable {mode : EscapeMode} {room : Nat} {pieces more : List Piece}

theorem of_forall (h : ∀ p ∈ pieces, p.StartsAscii) : StartAscii mode room pieces := by
  rintro - before p after rfl -
  exact h p (List.mem_append_right before List.mem_cons_self)

theorem of_sequentialLeaves {tree : StringTree} (leaves : tree.SequentialLeaves)
    {start length : Nat} : StartAscii mode room (tree.pieces start length) := by
  refine of_forall fun p mem external => ?_
  rw [StringTree.external_eq_false_of_mem_pieces leaves mem] at external
  cases external

theorem left (h : StartAscii mode room (pieces ++ more)) : StartAscii mode room pieces := by
  rintro room_pos before p after rfl uncut
  exact h room_pos before p (after ++ more) (by simp) uncut

theorem right (h : StartAscii mode room (pieces ++ more)) (room_pos : 0 < room)
    (uncut : cutIndex? mode room (pieces.flatMap Piece.units) = none) :
    StartAscii mode (room - utf8Length (mode.text (pieces.flatMap Piece.units))) more := by
  rintro - before p after rfl uncut'
  refine h room_pos (pieces ++ before) p after (List.append_assoc ..).symm ?_
  rw [List.flatMap_append, cutIndex?_append, uncut, uncut']
  rfl

theorem single {p : Piece} (h : StartAscii mode room [p]) (room_pos : 0 < room) : p.StartsAscii :=
  h room_pos [] p [] rfl rfl

end StartAscii

/-! ## Outcomes -/

/-- The units were written: all of them, or cut because the buffer is full. -/
structure Outcome.Writes (mode : EscapeMode) (room : Nat) (units : List UInt16) (o : Outcome) :
    Prop where
  text : o.text = cutText mode room units
  ending : o.ending = if cutIndex? mode room units = none then .finished else .full

/-- The error of a budget that refuses storage for a chunk. -/
def Refused (budget : Budget) (policy : AllocationPolicy) (e : DecodeError) : Prop :=
  ∃ size : UInt64, size.toNat ≤ chunkBytes ∧ budget.book size policy = .error e

/-- The units were written, unless the writing failed for one of the given causes. -/
def Outcome.WritesUnless (cause : DecodeError → Prop) (mode : EscapeMode) (room : Nat)
    (units : List UInt16) (o : Outcome) : Prop :=
  o.Writes mode room units ∨ ∃ e, o.ending = .failed e ∧ cause e

namespace Outcome

variable {mode : EscapeMode} {room : Nat} {units more : List UInt16} {o o' : Outcome}

theorem Writes.not_failed (h : o.Writes mode room units) (e : DecodeError) :
    o.ending ≠ .failed e := by
  rw [h.ending]
  split <;> simp

theorem Writes.uncut (h : o.Writes mode room units) (done : o.ending = .finished) :
    cutIndex? mode room units = none ∧ o.text = mode.text units := by
  have uncut : cutIndex? mode room units = none := by
    by_cases uncut : cutIndex? mode room units = none
    · exact uncut
    · rw [h.ending, if_neg uncut] at done
      cases done
  exact ⟨uncut, by rw [h.text, cutText_eq_text uncut]⟩

/-- When the writing was broken off, more units make no difference. -/
theorem Writes.of_stopped (h : o.Writes mode room units) (stopped : o.ending ≠ .finished)
    (more : List UInt16) : o.Writes mode room (units ++ more) := by
  have cut : cutIndex? mode room units ≠ none := fun uncut =>
    stopped (by rw [h.ending, if_pos uncut])
  refine ⟨by rw [h.text, cutText_append, if_neg cut], ?_⟩
  rw [h.ending, if_neg cut, if_neg]
  rw [cutIndex?_append, Option.or_eq_none_iff]
  exact fun uncut => cut uncut.1

theorem Writes.append (h : o.Writes mode room units)
    (h' : o.text = mode.text units → o'.Writes mode (room - utf8Length o.text) more) :
    (o.append o').Writes mode room (units ++ more) := by
  by_cases done : o.ending = .finished
  · obtain ⟨uncut, text⟩ := h.uncut done
    have rest := h' text
    rw [text] at rest
    rw [append_of_finished done]
    refine ⟨?_, ?_⟩
    · rw [text, rest.text, cutText_append, if_pos uncut]
    · rw [rest.ending, cutIndex?_append, uncut, Option.none_or]
      simp only [Option.map_eq_none_iff]
  · rw [append_of_not_finished done]
    exact h.of_stopped done more

variable {cause : DecodeError → Prop}

theorem WritesUnless.mono {cause' : DecodeError → Prop} (h : o.WritesUnless cause mode room units)
    (weaker : ∀ e, cause e → cause' e) : o.WritesUnless cause' mode room units :=
  h.imp id fun ⟨e, failed, caused⟩ => ⟨e, failed, weaker e caused⟩

theorem WritesUnless.append (h : o.WritesUnless cause mode room units)
    (h' : cutIndex? mode room units = none → o.text = mode.text units →
      o'.WritesUnless cause mode (room - utf8Length o.text) more) :
    (o.append o').WritesUnless cause mode room (units ++ more) := by
  rcases h with written | ⟨e, failed, caused⟩
  · by_cases done : o.ending = .finished
    · obtain ⟨uncut, text⟩ := written.uncut done
      rcases h' uncut text with rest | ⟨e, failed, caused⟩
      · exact .inl (written.append fun _ => rest)
      · exact .inr ⟨e, by rw [append_of_finished done, failed], caused⟩
    · rw [append_of_not_finished done]
      exact .inl (written.of_stopped done more)
  · refine .inr ⟨e, ?_, caused⟩
    rw [append_of_not_finished (by rw [failed]; simp), failed]

theorem WritesUnless.excused (h : o.WritesUnless cause mode room units) :
    (o.excused room).WritesUnless cause mode room units := by
  rcases h with written | ⟨e, failed, caused⟩
  · rw [excused_of_not_failed written.not_failed]
    exact .inl written
  · exact .inr ⟨e, by rw [ending_excused, failed], caused⟩

end Outcome

section play

variable (mode : EscapeMode) (room : Nat)

theorem writes_nil : (play mode room []).Writes mode room [] := ⟨rfl, rfl⟩

theorem play_units_writes (units : List UInt16) :
    (play mode room (units.map .write)).Writes mode room units := by
  induction units generalizing room with
  | nil => exact writes_nil mode room
  | cons unit units ih =>
    rw [List.map_cons, play, Action.perform]
    by_cases short : room ≤ truncationMarker.utf8ByteSize
    · refine ⟨?_, ?_⟩
      · rw [if_pos short, cutText_cons, if_pos short]
        rfl
      · rw [if_pos short, cutIndex?_cons, if_pos short]
        rfl
    · have rest := ih (room - utf8Length (mode.escape unit))
      refine ⟨?_, ?_⟩
      · rw [if_neg short, cutText_cons, if_neg short, ← rest.text]
        rfl
      · rw [if_neg short, cutIndex?_cons, if_neg short]
        simp only [Option.map_eq_none_iff]
        exact rest.ending

theorem play_log (event : TraceEvent) (script : List Action) :
    play mode room (.log event :: script) =
      { play mode room script with events := event :: (play mode room script).events } := rfl

end play

/-- A visit shows only in the events, if there is room. -/
theorem play_visit (mode : EscapeMode) {room : Nat} (room_pos : 0 < room) (event : TraceEvent)
    (script : List Action) :
    play mode room (.gate :: .log event :: script) =
      { play mode room script with events := event :: (play mode room script).events } := by
  rw [play, Action.perform, if_neg (Nat.ne_of_gt room_pos)]
  rfl

theorem Outcome.WritesUnless.visit {cause : DecodeError → Prop} {mode : EscapeMode} {room : Nat}
    {units : List UInt16} {script : List Action}
    (h : (play mode room script).WritesUnless cause mode room units) (room_pos : 0 < room)
    (event : TraceEvent) :
    (play mode room (.gate :: .log event :: script)).WritesUnless cause mode room units := by
  rw [play_visit mode room_pos]
  exact h.imp (fun written => ⟨written.text, written.ending⟩) id

/-! ## Leaves -/

theorem headD_lt_iff {bytes : List UInt8} :
    bytes.headD 0 < 0x80 ↔ ∀ unit ∈ (Encoding.oneByte.units bytes).head?, unit < 0x80 := by
  cases bytes with
  | nil => simp [Encoding.units]
  | cons byte rest =>
    have same : byte.toUInt16 < 0x80 ↔ byte < 0x80 := by
      rw [UInt16.lt_iff_toNat_lt, UInt8.lt_iff_toNat_lt, UInt8.toNat_toUInt16]
      rfl
    simp [Encoding.units, same]

namespace HeapString

variable {s : Snapshot} {mode : EscapeMode} {h : HeapString} {base : Word} {units : List UInt16}

theorem read_chunk (held : s.HoldsUnits h.encoding base units) {start count : Nat}
    (pos : 0 < count) (range : start + count ≤ units.length) :
    ∃ address bytes, base.advance? (Word.capped start * h.encoding.width) = some address ∧
      s.readBytes address (count * h.encoding.width) = .ok bytes ∧
      h.encoding.units bytes = (units.drop start).take count := by
  obtain ⟨address, bytes, found, rest⟩ := held start count pos range
  have inWord : start ≤ Word.top := by
    have reached := toNat_of_advance? found
    have scaled := Nat.le_mul_of_pos_right start h.encoding.width_pos
    have := address.toNat_le_top
    omega
  refine ⟨address, bytes, ?_, rest⟩
  rw [Word.capped_eq_self inWord, found]

/-- Characters in memory are written chunk by chunk. -/
theorem chunkScript_writes (held : s.HoldsUnits h.encoding base units) {start done remaining : Nat}
    (range : start + done + remaining ≤ units.length)
    (ascii : h.isExternal = true → done = 0 →
      h.encoding = .oneByte ∧ ∀ unit ∈ ((units.drop start).take remaining).head?, unit < 0x80)
    (room : Nat) :
    (play mode room (h.chunkScript s base start done remaining)).Writes mode room
      ((units.drop (start + done)).take remaining) := by
  fun_induction h.chunkScript s base start done remaining generalizing room with
  | case1 => exact writes_nil mode room
  | case2 done remaining more width overflow =>
    obtain ⟨address, -, found, -⟩ := read_chunk held Nat.one_pos
      (show start + done + 1 ≤ units.length by omega)
    simp only [width] at overflow
    rw [overflow] at found
    cases found
  | case3 done remaining more count width address found ih =>
    have countPos : 0 < count := by
      have := h.chunkLength_pos
      omega
    have countLe : count ≤ remaining := Nat.min_le_left _ _
    obtain ⟨address', bytes, found', read, chunk⟩ :=
      read_chunk held countPos (show start + done + count ≤ units.length by omega)
    cases Option.some.inj (found.symm.trans found')
    have plain : ¬ (h.isExternal ∧ done = 0 ∧ 0x80 ≤ bytes.headD 0) := by
      rintro ⟨external, first, high⟩
      obtain ⟨oneByte, low⟩ := ascii external first
      have sameHead :
          (h.encoding.units bytes).head? = ((units.drop start).take remaining).head? := by
        rw [chunk, first, Nat.add_zero, List.head?_take, List.head?_take, if_neg (by omega),
          if_neg more]
      rw [← sameHead, oneByte] at low
      exact absurd high (UInt8.not_le.2 (headD_lt_iff.2 low))
    have parts : (units.drop (start + done)).take remaining = h.encoding.units bytes ++
        (units.drop (start + (done + count))).take (remaining - count) := by
      rw [chunk, ← Nat.add_assoc, ← List.drop_drop (i := count), ← List.take_add,
        Nat.add_sub_cancel' countLe]
    rw [read, orFail, if_neg plain, play_log, play_append, parts]
    have written := (play_units_writes mode room (h.encoding.units bytes)).append fun _ =>
      ih (by omega) (fun _ started => by omega) _
    exact ⟨written.text, written.ending⟩

theorem refused_of_book {budget : Budget} {length : Nat} {e : DecodeError}
    (booked : budget.book (UInt64.ofNat (min length h.chunkLength * h.encoding.width)) h.policy =
      .error e) : Refused budget h.policy e := by
  have small : min length h.chunkLength * h.encoding.width ≤ chunkBytes :=
    Nat.le_trans (Nat.mul_le_mul_right _ (Nat.min_le_right _ _)) h.chunkLength_mul_width_le
  exact ⟨_, Nat.le_trans (Nat.mod_le _ _) small, booked⟩

/-- Storage that is granted leaves no trace in a script. -/
theorem charsScript_of_granted {budget : Budget} (granted : ∀ e, ¬ Refused budget h.policy e)
    (start length : Nat) :
    h.charsScript s budget base start length = h.chunkScript s base start 0 length := by
  rw [charsScript]
  cases booked : budget.book (UInt64.ofNat (min length h.chunkLength * h.encoding.width))
      h.policy with
  | ok _ => rfl
  | error e => exact absurd (refused_of_book booked) (granted e)

theorem charsScript_writes (held : s.HoldsUnits h.encoding base units) {start length : Nat}
    (range : start + length ≤ units.length)
    (ascii : h.isExternal = true →
      h.encoding = .oneByte ∧ ∀ unit ∈ ((units.drop start).take length).head?, unit < 0x80)
    (budget : Budget) (room : Nat) :
    (play mode room (h.charsScript s budget base start length)).WritesUnless
      (Refused budget h.policy) mode room ((units.drop start).take length) := by
  rw [charsScript]
  cases booked : budget.book (UInt64.ofNat (min length h.chunkLength * h.encoding.width))
      h.policy with
  | ok _ =>
    exact .inl (chunkScript_writes held (show start + 0 + length ≤ units.length from range)
      (fun external _ => ascii external) room)
  | error e => exact .inr ⟨e, rfl, refused_of_book booked⟩

/-! ## Ranges that a string has

The script of a range that the string has, so that nothing is clamped. -/

section range

variable {start length : Nat} (range : start + length ≤ h.length) (budget : Budget)
  (levels depth : Nat)

include range

theorem rangeScript_sequential (shown : h.representation = .sequential)
    (found : s.fieldAddress h.address h.encoding.charsField = .ok base) :
    rangeScript s budget (levels + 1) h depth start length =
      .gate :: .log (.visited { string := h, depth, start, length }) ::
        h.charsScript s budget base start length := by
  rw [rangeScript, Nat.min_eq_left (by omega : start ≤ _), Nat.min_eq_left (by omega)]
  simp only [shown, found, orFail]

theorem rangeScript_external {resource : Word}
    (shown : h.representation = .external resource (some base)) :
    rangeScript s budget (levels + 1) h depth start length =
      .gate :: .log (.visited { string := h, depth, start, length }) ::
        (h.charsScript s budget base start length).flatMap excuse := by
  rw [rangeScript, Nat.min_eq_left (by omega : start ≤ _), Nat.min_eq_left (by omega)]
  simp only [shown]

theorem rangeScript_concatenated {w w' : Word} {first second : HeapString}
    (shown : h.representation = .concatenated w w') (loaded : load s w h.policy = .ok first)
    (loaded' : load s w' h.policy = .ok second) :
    rangeScript s budget (levels + 1) h depth start length =
      .gate :: .log (.visited { string := h, depth, start, length }) ::
        ((if start < first.length then
            rangeScript s budget levels first (depth + 1) start
              (min length (first.length - start))
          else []) ++
        (if first.length < start + length then
            rangeScript s budget levels second (depth + 1) (start - first.length)
              (start + length - max first.length start)
          else [])) := by
  rw [rangeScript, Nat.min_eq_left (by omega : start ≤ _), Nat.min_eq_left (by omega)]
  simp only [shown, loaded, loaded', orFail]

theorem rangeScript_sliced {w : Word} {offset : Nat} {parent : HeapString}
    (shown : h.representation = .sliced w offset) (loaded : load s w h.policy = .ok parent)
    (inside : offset + h.length ≤ parent.length) :
    rangeScript s budget (levels + 1) h depth start length =
      .gate :: .log (.visited { string := h, depth, start, length }) ::
        rangeScript s budget levels parent (depth + 1) (offset + start) length := by
  have inWord : offset + start ≤ Word.top := by
    have := length_le_of_load loaded
    omega
  rw [rangeScript, Nat.min_eq_left (by omega : start ≤ _), Nat.min_eq_left (by omega)]
  simp only [shown, loaded, orFail, Word.capped_eq_self inWord]

end range

/-! ## Trees -/

/-- A string that is nested too deep is not written. -/
theorem writesUnless_of_no_levels {cause : DecodeError → Prop} (budget : Budget) (h : HeapString)
    (depth start length room : Nat) (units : List UInt16)
    (caused : cause (.depthExceeded depth)) :
    (play mode room (rangeScript s budget 0 h depth start length)).WritesUnless cause mode room
      units :=
  .inr ⟨.depthExceeded depth, rfl, caused⟩

/-- **A range of a tree is written as its text, cut for the room,** unless storage is refused or the
tree is too high for the levels that are followed. -/
theorem Holds.play_rangeScript {tree : StringTree} (held : Holds s h tree) (budget : Budget)
    (levels depth : Nat) {start length : Nat} (range : start + length ≤ h.length) {room : Nat}
    (room_pos : 0 < room) (ascii : StartAscii mode room (tree.pieces start length)) :
    (play mode room (rangeScript s budget levels h depth start length)).WritesUnless
      (fun e => Refused budget h.policy e ∨ levels ≤ tree.height) mode room
      ((tree.units.drop start).take length) := by
  induction held generalizing levels depth start length room with
  | @sequential h base units shown found held whole =>
    cases levels with
    | zero => exact writesUnless_of_no_levels budget h _ _ _ _ _ (.inr (Nat.zero_le _))
    | succ levels =>
      rw [rangeScript_sequential range budget levels depth shown found]
      have inside : start + length ≤ units.length := by omega
      have internal : ¬ h.isExternal = true := by simp [isExternal, shown]
      refine .visit (.mono (charsScript_writes held inside (fun external => ?_) budget room) ?_)
        room_pos _
      · exact absurd external internal
      · exact fun e refused => .inl refused
  | @external h resource base units shown oneByte held whole =>
    cases levels with
    | zero => exact writesUnless_of_no_levels budget h _ _ _ _ _ (.inr (Nat.zero_le _))
    | succ levels =>
      rw [rangeScript_external range budget levels depth shown]
      have inside : start + length ≤ units.length := by omega
      refine .visit ?_ room_pos _
      rw [play_excuse]
      refine .excused (.mono (charsScript_writes held inside (fun _ => ?_) budget room) ?_)
      · exact ⟨oneByte, ascii.single room_pos rfl⟩
      · exact fun e refused => .inl refused
  | @concatenated h first second w w' tree tree' shown loaded loaded' held held' whole ih ih' =>
    cases levels with
    | zero => exact writesUnless_of_no_levels budget h _ _ _ _ _ (.inr (Nat.zero_le _))
    | succ levels =>
      have split := held.length_units
      rw [policy_of_load loaded] at ih
      rw [policy_of_load loaded'] at ih'
      rw [rangeScript_concatenated range budget levels depth shown loaded loaded', StringTree.units,
        StringTree.take_drop_append, split]
      simp only [StringTree.pieces, split] at ascii
      refine .visit ?_ room_pos _
      -- The part that lies in the first half, then the part that lies in the second.
      rw [play_append]
      refine .append ?_ fun uncut text => ?_
      · by_cases before : start < first.length
        · simp only [if_pos before] at ascii ⊢
          refine (ih levels _ (by omega) room_pos ascii.left).mono fun e => Or.imp_right ?_
          intro high
          exact Nat.succ_le_succ (Nat.le_trans high (Nat.le_max_left _ _))
        · simp only [if_neg before]
          exact .inl (writes_nil mode room)
      · have same : (if start < first.length then
              tree.pieces start (min length (first.length - start)) else []).flatMap Piece.units =
            if start < first.length then
              (tree.units.drop start).take (min length (first.length - start)) else [] := by
          split
          · exact tree.flatMap_pieces _ _
          · rfl
        -- The first half was not cut, so there is room for the visit to the second one.
        rw [← same] at uncut text
        rw [text]
        by_cases beyond : first.length < start + length
        · simp only [if_pos beyond] at ascii ⊢
          refine (ih' levels _ (by omega) (room_pos_of_uncut room_pos uncut)
            (ascii.right room_pos uncut)).mono fun e => Or.imp_right ?_
          intro high
          exact Nat.succ_le_succ (Nat.le_trans high (Nat.le_max_right _ _))
        · simp only [if_neg beyond]
          exact .inl (writes_nil mode _)
  | @sliced h parent w offset tree shown loaded held whole ih =>
    cases levels with
    | zero => exact writesUnless_of_no_levels budget h _ _ _ _ _ (.inr (Nat.zero_le _))
    | succ levels =>
      have short : min length (h.length - start) = length := by omega
      rw [policy_of_load loaded] at ih
      rw [rangeScript_sliced range budget levels depth shown loaded whole, StringTree.units,
        List.drop_take, List.take_take, List.drop_drop, short]
      simp only [StringTree.pieces, short] at ascii
      have written := ih levels (depth + 1) (by omega) room_pos ascii
      refine .visit (written.mono fun e => Or.imp_right ?_) room_pos _
      intro high
      exact Nat.succ_le_succ high

/-! ## Whole strings -/

theorem play_script_zero (budget : Budget) {depth : Nat} (deep : depth ≤ maxDepth) :
    play mode 0 (h.script s budget depth) = { ending := .full } := by
  obtain ⟨levels, more⟩ := Nat.exists_eq_add_one.2 (by omega : 0 < maxDepth + 1 - depth)
  rw [script, more, rangeScript]
  rfl

/-- A whole string adds its units, cut for the room, if it does so whenever there is room: with no
room at all it adds nothing. -/
theorem play_script_of_room (budget : Budget) {depth : Nat} (shallow : depth ≤ maxDepth)
    {room : Nat} {units : List UInt16} {cause : DecodeError → Prop}
    (outcome : 0 < room → (play mode room (h.script s budget depth)).WritesUnless cause mode room
      units) :
    ((play mode room (h.script s budget depth)).ending.result = .ok () ∧
      (play mode room (h.script s budget depth)).text = cutText mode room units) ∨
    ∃ e, (play mode room (h.script s budget depth)).ending = .failed e ∧ cause e := by
  rcases Nat.eq_zero_or_pos room with rfl | room_pos
  · rw [play_script_zero budget shallow, cutText_zero]
    exact .inl ⟨rfl, rfl⟩
  · refine (outcome room_pos).imp_left fun written => ⟨?_, written.text⟩
    have ended := written.ending
    split at ended <;> exact congrArg Ending.result ended

/-- A whole string is written as the text of its tree, cut for the room, unless storage is refused
or the tree is too high. -/
theorem Holds.play_script {tree : StringTree} (held : Holds s h tree) (budget : Budget)
    (depth : Nat) {room : Nat} (ascii : StartAscii mode room (tree.pieces 0 h.length)) :
    ((play mode room (h.script s budget depth)).ending.result = .ok () ∧
      (play mode room (h.script s budget depth)).text = cutText mode room tree.units) ∨
    ∃ e, (play mode room (h.script s budget depth)).ending = .failed e ∧
      (Refused budget h.policy e ∨ maxDepth < depth + tree.height) := by
  rcases Nat.lt_or_ge maxDepth depth with deep | shallow
  · refine .inr ⟨.depthExceeded depth, ?_, .inr (by omega)⟩
    rw [script, Nat.sub_eq_zero_of_le deep]
    rfl
  · have whole : (tree.units.drop 0).take h.length = tree.units := by
      rw [List.drop_zero, List.take_of_length_le (Nat.le_of_eq held.length_units)]
    refine play_script_of_room budget shallow fun room_pos => ?_
    have outcome := held.play_rangeScript budget (maxDepth + 1 - depth) depth (by omega) room_pos
      ascii
    rw [whole] at outcome
    exact outcome.mono fun e => Or.imp_right fun high => by omega

/-- Under the policy `blocking` a budget that grants a chunk refuses no chunk. -/
theorem not_refused {budget : Budget} (grants : chunkBytes ≤ budget.maxAllocation.toNat)
    (e : DecodeError) : ¬ Refused budget .blocking e := by
  rintro ⟨size, small, refused⟩
  have granted : ¬ budget.maxAllocation < size := by
    rw [UInt64.lt_iff_toNat_lt]
    omega
  rw [Budget.book, if_neg granted, if_neg (by simp)] at refused
  cases refused

theorem Holds.run_script {tree : StringTree} (held : Holds s h tree) (policy : h.policy = .blocking)
    {depth : Nat} (deep : depth + tree.height ≤ maxDepth) (t : Transcript)
    (grants : chunkBytes ≤ t.budget.maxAllocation.toNat)
    (ascii : StartAscii mode t.buffer.left (tree.pieces 0 h.length)) :
    (run mode (h.script s t.budget depth) t).1.result = .ok () ∧
      (run mode (h.script s t.budget depth) t).2.buffer =
        t.buffer.add (cutText mode t.buffer.left tree.units) := by
  rcases held.play_script t.budget depth ascii with ⟨done, text⟩ | ⟨e, -, refused | high⟩
  · exact ⟨done, congrArg t.buffer.add text⟩
  · rw [policy] at refused
    exact absurd refused (not_refused grants e)
  · exact absurd deep (Nat.not_le.2 high)

/-- **A string is written as its flattened text, cut for the buffer.** The header stands for a tree
whose strings are not nested too deep, storage is taken under the policy `blocking` from a budget
that grants a chunk, and external characters start as ASCII. Then writing without quotes succeeds.
It adds the text of the flattened characters or, if there is a beginning short of it that leaves no
more bytes than the truncation marker takes, the shortest such beginning and as much of the marker
as fits. A string that divides the same characters otherwise is written alike. -/
theorem Holds.write_eq_cutText {tree : StringTree} (held : Holds s h tree)
    (policy : h.policy = .blocking) {o : WriteOptions} (unquoted : o.quoted = false)
    (deep : o.depth + tree.height ≤ maxDepth) (t : Transcript)
    (grants : chunkBytes ≤ t.budget.maxAllocation.toNat)
    (ascii : StartAscii mode t.buffer.left (tree.pieces 0 h.length)) :
    (h.write s mode o t).1 = .ok () ∧
    (h.write s mode o t).2.buffer = t.buffer.add (cutText mode t.buffer.left tree.units) ∧
    ∀ (s' : Snapshot) (h' : HeapString) (tree' : StringTree), Holds s' h' tree' →
      h'.policy = .blocking → o.depth + tree'.height ≤ maxDepth →
      StartAscii mode t.buffer.left (tree'.pieces 0 h'.length) → tree'.units = tree.units →
      (h'.write s' mode o t).2.buffer = (h.write s mode o t).2.buffer := by
  have written := held.run_script policy deep t grants ascii
  rw [h.write_eq_run s mode unquoted]
  refine ⟨written.1, written.2, fun s' h' tree' held' policy' deep' ascii' same => ?_⟩
  rw [h'.write_eq_run s' mode unquoted, (held'.run_script policy' deep' t grants ascii').2, same,
    written.2]

/-- The sample's concatenation is cut after its first half if there are nine bytes for it. -/
theorem write_joined :
    (Sample.joined.write Sample.heap .raw {} (Sample.transcript 9)).1 = .ok () ∧
    (Sample.joined.write Sample.heap .raw {} (Sample.transcript 9)).2.buffer =
      { capacity := 9, text := "中h[...]" } := by
  have leaves : ∀ p ∈ (StringTree.concatenated (.sequential [0x4e2d, 0x68])
      (.sliced (.external [0x61, 0x62, 0x63, 0x64]) 1 2)).pieces 0 4, p.StartsAscii := by
    simp [StringTree.pieces, StringTree.units, Piece.StartsAscii]
  have ascii : StartAscii .raw (Sample.transcript 9).buffer.left _ := .of_forall leaves
  have written := Sample.holds_joined.write_eq_cutText (o := {}) rfl rfl (by decide)
    (Sample.transcript 9) (by decide) ascii
  refine ⟨written.1, written.2.1.trans ?_⟩
  decide

end HeapString

end Postmortem
