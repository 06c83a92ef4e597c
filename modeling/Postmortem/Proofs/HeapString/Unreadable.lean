import Postmortem.Proofs.HeapString.Chunks
import Postmortem.Proofs.HeapString.Flatten

/-! # Characters that cannot be read

The headers of a string may be readable and its characters not, all or some of them. Then the string
is written up to the first chunk that cannot be read (`HeapString.HasShape.write_readable_part`).

The induction on the string compares two scripts: the one of a range, with its visits, and the one
of the chunks that are read for the range (`HeapString.HasShape.play_rangeScript`). Their outcomes
are alike in all but the events (`Outcome.Alike`). A visit needs room in the buffer, and there is
room after chunks that were written to the end (`room_pos_of_finished`). -/

namespace Postmortem

/-! ## Outcomes -/

/-- The outcomes differ in the events only. -/
structure Outcome.Alike (o o' : Outcome) : Prop where
  text : o.text = o'.text
  ending : o.ending = o'.ending

namespace Outcome

variable {o o' p p' : Outcome}

theorem Alike.append (first : o.Alike o') (rest : o.ending = .finished → p.Alike p') :
    (o.append p).Alike (o'.append p') := by
  by_cases done : o.ending = .finished
  · have done' : o'.ending = .finished := first.ending ▸ done
    rw [append_of_finished done, append_of_finished done']
    exact ⟨by rw [first.text, (rest done).text], (rest done).ending⟩
  · have stopped : o'.ending ≠ .finished := first.ending ▸ done
    rwa [append_of_not_finished done, append_of_not_finished stopped]

theorem Alike.excused (alike : o.Alike o') (room : Nat) :
    (o.excused room).Alike (o'.excused room) := by
  obtain ⟨ending, text, events⟩ := o
  obtain ⟨rfl, rfl⟩ := alike
  constructor <;> simp only [Outcome.excused] <;> split <;> rfl

end Outcome

theorem Outcome.Alike.visit {mode : EscapeMode} {room : Nat} {script script' : List Action}
    (alike : (play mode room script).Alike (play mode room script')) (room_pos : 0 < room)
    (event : TraceEvent) :
    (play mode room (.gate :: .log event :: script)).Alike (play mode room script') := by
  rw [play_visit mode room_pos]
  exact ⟨alike.text, alike.ending⟩

theorem Outcome.Alike.log {mode : EscapeMode} {room : Nat} {script : List Action} {o : Outcome}
    (alike : (play mode room script).Alike o) (event : TraceEvent) :
    (play mode room (.log event :: script)).Alike o := by
  rw [play_log]
  exact ⟨alike.text, alike.ending⟩

theorem play_append_alike {mode : EscapeMode} {room : Nat} {script script' more more' : List Action}
    (first : (play mode room script).Alike (play mode room script'))
    (rest : (play mode room script').ending = .finished →
      (play mode (room - utf8Length (play mode room script').text) more).Alike
        (play mode (room - utf8Length (play mode room script').text) more')) :
    (play mode room (script ++ more)).Alike (play mode room (script' ++ more')) := by
  rw [play_append, play_append, first.text]
  exact first.append fun done => rest (first.ending ▸ done)

/-- A value is needed for both scripts, and without it both fail. -/
theorem play_orFail_alike {mode : EscapeMode} {room : Nat} {α : Type}
    {value : Except DecodeError α} {script script' : α → List Action} {more : List Action}
    (alike : ∀ a, value = .ok a →
      (play mode room (script a)).Alike (play mode room (script' a ++ more))) :
    (play mode room (orFail value script)).Alike
      (play mode room (orFail value script' ++ more)) := by
  cases value with
  | ok a => exact alike a rfl
  | error e => exact ⟨rfl, rfl⟩

/-! ## What chunks do -/

namespace Chunk

variable (s : Snapshot) (c : Chunk)

/-- What is done for a chunk: its characters are written, or the reading fails. -/
def reading : List Action :=
  orFail (s.readBytes c.address c.size) fun bytes => (c.string.encoding.units bytes).map .write

/-- What is done for a chunk, with a placeholder for external characters that cannot be read. -/
def script : List Action :=
  if c.string.isExternal then (c.reading s).flatMap excuse else c.reading s

variable {s c}

theorem script_of_readable (readable : c.Readable s) : c.script s = (c.units s).map .write := by
  obtain ⟨bytes, read⟩ := readable_iff.1 readable
  have plain : c.reading s = (c.units s).map .write := by
    simp only [reading, units, Snapshot.readBytes, read, orFail]
  have excused : ((c.units s).map Action.write).flatMap excuse = (c.units s).map .write := by
    simp [List.flatMap_map, excuse, ← List.map_eq_flatMap]
  rw [script, plain, excused, ite_self]

theorem script_of_error {cause : ReadError}
    (failed : s.memory.read c.address c.size = .error cause) :
    c.script s = (if c.string.isExternal then [.placeholder .unreadable] else []) ++
      [.fail (.unreadable c.address c.size cause)] := by
  have plain : c.reading s = [.fail (.unreadable c.address c.size cause)] := by
    simp only [reading, Snapshot.readBytes, failed, orFail]
  rw [script, plain]
  split <;> rfl

end Chunk

namespace LeafRange

variable {s : Snapshot} {r : LeafRange}

theorem scripts_of_internal (internal : ¬ r.string.isExternal = true) :
    r.chunks.flatMap (Chunk.script s) = r.chunks.flatMap (Chunk.reading s) := by
  simp only [chunks, List.flatMap_map, Chunk.script, if_neg internal]

theorem scripts_of_external (external : r.string.isExternal = true) :
    r.chunks.flatMap (Chunk.script s) = (r.chunks.flatMap (Chunk.reading s)).flatMap excuse := by
  simp only [chunks, List.flatMap_map, List.flatMap_assoc, Chunk.script, if_pos external]

end LeafRange

/-- A chunk that cannot be read ends the writing, after a placeholder if the string is external. -/
theorem Chunk.play_of_error {s : Snapshot} {c : Chunk} {mode : EscapeMode} {cause : ReadError}
    (failed : s.memory.read c.address c.size = .error cause) (room : Nat) :
    play mode room (c.script s) =
      { ending := .failed (.unreadable c.address c.size cause)
        text :=
          if c.string.isExternal then Placeholder.unreadable.text.toList.take room else [] } := by
  rw [script_of_error failed]
  split <;> simp [play, Action.perform, Outcome.append]

/-- Chunks that are written to the end leave room for the next visit. -/
theorem room_pos_of_finished {s : Snapshot} {mode : EscapeMode} {room : Nat} (room_pos : 0 < room)
    {chunks : List Chunk}
    (done : (play mode room (chunks.flatMap (Chunk.script s))).ending = .finished) :
    0 < room - utf8Length (play mode room (chunks.flatMap (Chunk.script s))).text := by
  induction chunks generalizing room with
  | nil => exact room_pos
  | cons c chunks ih =>
    rw [List.flatMap_cons, play_append] at done ⊢
    by_cases readable : c.Readable s
    · have written := play_units_writes mode room (c.units s)
      rw [← Chunk.script_of_readable readable] at written
      by_cases first : (play mode room (c.script s)).ending = .finished
      · obtain ⟨uncut, text⟩ := written.uncut first
        have left := room_pos_of_uncut room_pos uncut
        rw [← text] at left
        rw [Outcome.append_of_finished first] at done ⊢
        rw [utf8Length_append, ← Nat.sub_sub]
        exact ih left done
      · rw [Outcome.append_of_not_finished first] at done
        exact absurd done first
    · obtain ⟨cause, failed⟩ := Chunk.not_readable_iff.1 readable
      rw [Chunk.play_of_error failed, Outcome.append_of_not_finished (by simp)] at done
      cases done

/-- The characters before the first chunk that cannot be read. -/
def readableUnits (s : Snapshot) (chunks : List Chunk) : List UInt16 :=
  (chunks.takeWhile fun c => c.Readable s).flatMap (Chunk.units s)

section chunks

variable {s : Snapshot} {mode : EscapeMode} {room : Nat} {chunks before : List Chunk}

theorem scripts_of_readable (readable : ∀ c ∈ chunks, c.Readable s) :
    chunks.flatMap (Chunk.script s) = (chunks.flatMap (Chunk.units s)).map .write := by
  induction chunks with
  | nil => rfl
  | cons c chunks ih =>
    rw [List.forall_mem_cons] at readable
    rw [List.flatMap_cons, List.flatMap_cons, List.map_append, ih readable.2,
      Chunk.script_of_readable readable.1]

theorem readableUnits_of_readable (readable : ∀ c ∈ chunks, c.Readable s) :
    readableUnits s chunks = chunks.flatMap (Chunk.units s) := by
  have whole : ∀ c ∈ chunks, decide (c.Readable s) = true := by simpa using readable
  rw [readableUnits, ← List.append_nil chunks, List.takeWhile_append_of_pos whole,
    List.takeWhile_nil]

theorem readableUnits_of_not_readable (readable : ∀ c ∈ before, c.Readable s) {c : Chunk}
    (not : ¬ c.Readable s) (after : List Chunk) :
    readableUnits s (before ++ c :: after) = before.flatMap (Chunk.units s) := by
  have whole : ∀ c ∈ before, decide (c.Readable s) = true := by simpa using readable
  have stop : ¬ decide (c.Readable s) = true := by simpa using not
  rw [readableUnits, List.takeWhile_append_of_pos whole, List.takeWhile_cons, if_neg stop,
    List.append_nil]

/-- Chunks that can all be read are written whole. -/
theorem play_chunks_of_readable (readable : ∀ c ∈ chunks, c.Readable s)
    (uncut : cutIndex? mode room (chunks.flatMap (Chunk.units s)) = none) :
    (play mode room (chunks.flatMap (Chunk.script s))).ending = .finished ∧
      (play mode room (chunks.flatMap (Chunk.script s))).text =
        mode.text (chunks.flatMap (Chunk.units s)) := by
  rw [scripts_of_readable readable]
  have written := play_units_writes mode room (chunks.flatMap (Chunk.units s))
  exact ⟨written.ending.trans (if_pos uncut), written.text.trans (cutText_eq_text uncut)⟩

/-- Chunks are written up to the first one that cannot be read. -/
theorem play_chunks_of_error (readable : ∀ c ∈ before, c.Readable s) {c : Chunk} {cause : ReadError}
    (failed : s.memory.read c.address c.size = .error cause)
    (uncut : cutIndex? mode room (before.flatMap (Chunk.units s)) = none) (after : List Chunk) :
    (play mode room ((before ++ c :: after).flatMap (Chunk.script s))).ending =
        .failed (.unreadable c.address c.size cause) ∧
      (play mode room ((before ++ c :: after).flatMap (Chunk.script s))).text =
        mode.text (before.flatMap (Chunk.units s)) ++
          if c.string.isExternal then
            Placeholder.unreadable.text.toList.take
              (room - utf8Length (mode.text (before.flatMap (Chunk.units s))))
          else [] := by
  obtain ⟨done, text⟩ := play_chunks_of_readable readable uncut
  rw [List.flatMap_append, List.flatMap_cons, play_append, Outcome.append_of_finished done, text,
    play_append, Chunk.play_of_error failed, Outcome.append_of_not_finished (by simp)]
  exact ⟨rfl, rfl⟩

end chunks

/-! ## Leaves -/

namespace HeapString

variable {s : Snapshot} {mode : EscapeMode} {h : HeapString} {base : Word}

/-- The next character to be read lies in the address space. -/
theorem advance?_of_inSpace {start : Nat}
    (inSpace : base.toNat + start * h.encoding.width ≤ Word.top) :
    base.advance? (Word.capped start * h.encoding.width) =
      some (UInt64.ofNat (base.toNat + start * h.encoding.width)) := by
  have scaled := Nat.le_mul_of_pos_right start h.encoding.width_pos
  rw [Word.capped_eq_self (by omega), Word.advance?, if_pos inSpace]

/-- The characters of a leaf are read chunk by chunk until one cannot be read. -/
theorem chunkScript_alike {start done remaining : Nat}
    (inSpace : ∀ index < start + done + remaining,
      base.toNat + index * h.encoding.width ≤ Word.top)
    (ascii : h.isExternal = true → done = 0 → h.encoding = .oneByte ∧
      LeafRange.StartsAscii s ⟨h, base, start, remaining⟩) (room : Nat) :
    (play mode room (h.chunkScript s base start done remaining)).Alike
      (play mode room ((LeafRange.chunks ⟨h, base, start + done, remaining⟩).flatMap
        (Chunk.reading s))) := by
  fun_induction h.chunkScript s base start done remaining generalizing room with
  | case1 =>
    rw [LeafRange.chunks_eq_nil rfl]
    exact ⟨rfl, rfl⟩
  | case2 done remaining more width overflow =>
    rw [advance?_of_inSpace (inSpace (start + done) (by omega))] at overflow
    cases overflow
  | case3 done remaining more count width address found ih =>
    have pos : 0 < remaining := Nat.pos_of_ne_zero more
    rw [advance?_of_inSpace (inSpace (start + done) (by omega))] at found
    cases found
    rw [LeafRange.chunks_of_pos pos, List.flatMap_cons, Chunk.reading, Nat.add_assoc start done]
    refine .log (play_orFail_alike fun bytes read => ?_) _
    -- The first byte that was read is not one that external characters are refused for.
    have plain : ¬ (h.isExternal ∧ done = 0 ∧ 0x80 ≤ bytes.headD 0) := by
      rintro ⟨external, rfl, high⟩
      obtain ⟨oneByte, low⟩ := ascii external rfl
      have first := low external _ (by rw [LeafRange.chunks_of_pos pos]; rfl)
      rw [Chunk.units_of_ok read] at first
      dsimp only at first
      rw [oneByte] at first
      exact absurd high (UInt8.not_le.2 (headD_lt_iff.2 first))
    have someCount : 0 < count := by
      have := h.chunkLength_pos
      omega
    rw [if_neg plain]
    refine play_append_alike ⟨rfl, rfl⟩ fun _ => ih (fun index lt => inSpace index ?_)
      (fun _ started => ?_) _
    · omega
    · omega

end HeapString

/-! ## Trees -/

namespace HeapString

variable {s : Snapshot} {mode : EscapeMode} {h : HeapString} {shape : StringShape}

variable (mode) in
/-- **A range of a string is written as the chunks that are read for it,** as long as they can be
read. -/
theorem HasShape.play_rangeScript (has : HasShape s h shape) {budget : Budget}
    (granted : ∀ e, ¬ Refused budget h.policy e) {levels : Nat} (high : shape.height ≤ levels)
    (depth : Nat) {start length : Nat} (range : start + length ≤ h.length)
    (ascii : ∀ r ∈ shape.ranges start length, r.StartsAscii s) {room : Nat} (room_pos : 0 < room) :
    (play mode room (rangeScript s budget (levels + 1) h depth start length)).Alike
      (play mode room ((shape.chunks start length).flatMap (Chunk.script s))) := by
  induction has generalizing levels depth start length room with
  | @sequential h base shown found inSpace =>
    have internal : ¬ h.isExternal = true := by simp [isExternal, shown]
    rw [rangeScript_sequential range budget levels depth shown found,
      charsScript_of_granted granted]
    refine .visit ?_ room_pos _
    rw [StringShape.chunks_leaf, LeafRange.scripts_of_internal internal]
    exact chunkScript_alike (fun index lt => inSpace index (by omega))
      (fun external => absurd external internal) room
  | @external h resource base shown oneByte inSpace =>
    have external : h.isExternal = true := by simp [isExternal, shown]
    rw [rangeScript_external range budget levels depth shown, charsScript_of_granted granted]
    refine .visit ?_ room_pos _
    rw [StringShape.chunks_leaf, LeafRange.scripts_of_external external, play_excuse, play_excuse]
    refine .excused (chunkScript_alike (fun index lt => inSpace index (by omega))
      (fun _ _ => ⟨oneByte, ?_⟩) room) room
    exact ascii _ (List.mem_singleton.2 rfl)
  | @concatenated h first second w w' shape shape' shown loaded loaded' has has' whole ih ih' =>
    obtain ⟨levels, rfl⟩ := Nat.exists_eq_add_one.2 (Nat.lt_of_lt_of_le (Nat.succ_pos _) high)
    have split := has.length_eq
    rw [policy_of_load loaded] at ih
    rw [policy_of_load loaded'] at ih'
    rw [StringShape.height] at high
    simp only [StringShape.ranges, split, List.mem_append] at ascii
    rw [rangeScript_concatenated range budget (levels + 1) depth shown loaded loaded']
    refine .visit ?_ room_pos _
    rw [StringShape.chunks_concatenated, split, List.flatMap_append]
    -- The part that lies in the first half, then the part that lies in the second.
    refine play_append_alike ?_ fun done => ?_
    · by_cases before : start < first.length
      · simp only [if_pos before] at ascii ⊢
        exact ih granted (by omega) _ (by omega) (fun r mem => ascii r (.inl mem)) room_pos
      · simp only [if_neg before]
        exact ⟨rfl, rfl⟩
    · by_cases beyond : first.length < start + length
      · simp only [if_pos beyond] at ascii ⊢
        refine ih' granted (by omega) _ (by omega) (fun r mem => ascii r (.inr mem)) ?_
        -- The first half was written to its end, so there is room for the visit to the second.
        exact room_pos_of_finished room_pos done
      · simp only [if_neg beyond]
        exact ⟨rfl, rfl⟩
  | @sliced h parent w offset shape shown loaded has whole ih =>
    obtain ⟨levels, rfl⟩ := Nat.exists_eq_add_one.2 (Nat.lt_of_lt_of_le (Nat.succ_pos _) high)
    have short : min length (h.length - start) = length := by omega
    rw [policy_of_load loaded] at ih
    rw [StringShape.ranges, short] at ascii
    rw [rangeScript_sliced range budget (levels + 1) depth shown loaded whole,
      StringShape.chunks_sliced, short]
    refine .visit ?_ room_pos _
    exact ih granted (Nat.le_of_succ_le_succ high) _ (by omega) ascii room_pos

/-! ## Whole strings -/

variable (mode) in
/-- A whole string is written as its chunks are. It need not have room if there is nothing to
write. -/
theorem HasShape.play_script (has : HasShape s h shape) {budget : Budget}
    (granted : ∀ e, ¬ Refused budget h.policy e) {depth : Nat}
    (shallow : depth + shape.height ≤ maxDepth)
    (ascii : ∀ r ∈ shape.ranges 0 h.length, r.StartsAscii s) {room : Nat}
    (enough : h.length = 0 ∨ 0 < room) :
    let chunks := (shape.chunks 0 h.length).flatMap (Chunk.script s)
    (play mode room (h.script s budget depth)).ending.result =
        (play mode room chunks).ending.result ∧
      (play mode room (h.script s budget depth)).text = (play mode room chunks).text := by
  intro chunks
  rcases Nat.eq_zero_or_pos room with rfl | room_pos
  · have noChunks : chunks = [] := by
      simp only [chunks, enough.resolve_right (Nat.lt_irrefl 0), shape.chunks_zero,
        List.flatMap_nil]
    rw [play_script_zero budget (Nat.le_of_add_right_le shallow), noChunks]
    exact ⟨rfl, rfl⟩
  · have levels : maxDepth + 1 - depth = maxDepth - depth + 1 := by omega
    have alike := has.play_rangeScript mode granted
      (show shape.height ≤ maxDepth - depth by omega) depth (by omega) ascii room_pos
    rw [script, levels]
    exact ⟨congrArg Ending.result alike.ending, alike.text⟩

variable (mode) in
/-- **A string is written up to the first chunk that cannot be read.** The headers can be read, the
string is not nested too deep, storage is taken under the policy `blocking` from a budget that
grants a chunk, external characters start as ASCII where they can be read, and the buffer does not
cut the characters before the first chunk that cannot be read. Then the writing succeeds if and only
if every chunk can be read, and adds the text of all of them. Otherwise it fails with the error of
the first chunk that cannot be read. It has added the text of the chunks before that one and, if
that one is of an external string, as much of a placeholder as fits. -/
theorem HasShape.write_readable_part (has : HasShape s h shape) (policy : h.policy = .blocking)
    {o : WriteOptions} (unquoted : o.quoted = false) (shallow : o.depth + shape.height ≤ maxDepth)
    (t : Transcript) (grants : chunkBytes ≤ t.budget.maxAllocation.toNat)
    (ascii : ∀ r ∈ shape.ranges 0 h.length, r.StartsAscii s)
    (enough : h.length = 0 ∨ 0 < t.buffer.left)
    (uncut : cutIndex? mode t.buffer.left (readableUnits s (shape.chunks 0 h.length)) = none) :
    ((h.write s mode o t).1 = .ok () ↔ ∀ c ∈ shape.chunks 0 h.length, c.Readable s) ∧
    ((∀ c ∈ shape.chunks 0 h.length, c.Readable s) →
      (h.write s mode o t).2.buffer =
        t.buffer.add (mode.text ((shape.chunks 0 h.length).flatMap (Chunk.units s)))) ∧
    ∀ before c after, shape.chunks 0 h.length = before ++ c :: after →
      (∀ c ∈ before, c.Readable s) →
      ∀ cause, s.memory.read c.address c.size = .error cause →
        (h.write s mode o t).1 = .error (.unreadable c.address c.size cause) ∧
        (h.write s mode o t).2.buffer =
          t.buffer.add (mode.text (before.flatMap (Chunk.units s)) ++
            if c.string.isExternal then
              "<failed to read external string data>".toList.take
                (t.buffer.left - utf8Length (mode.text (before.flatMap (Chunk.units s))))
            else []) := by
  have granted : ∀ e, ¬ Refused t.budget h.policy e := by
    rw [policy]
    exact not_refused grants
  obtain ⟨result, text⟩ := has.play_script mode granted shallow ascii enough
  rw [h.write_eq_run s mode unquoted]
  simp only [run, Outcome.applyTo, result, text]
  have uncutBefore {before after : List Chunk} {c : Chunk} {cause : ReadError}
      (cut : shape.chunks 0 h.length = before ++ c :: after)
      (readable : ∀ c ∈ before, c.Readable s)
      (failed : s.memory.read c.address c.size = .error cause) :
      cutIndex? mode t.buffer.left (before.flatMap (Chunk.units s)) = none := by
    have stop : ¬ c.Readable s := Chunk.not_readable_iff.2 ⟨cause, failed⟩
    rwa [cut, readableUnits_of_not_readable readable stop after] at uncut
  refine ⟨⟨fun done => ?_, fun readable => ?_⟩, fun readable => ?_,
    fun before c after cut readable cause failed => ?_⟩
  · -- If there is a chunk that cannot be read, the first one stops the writing.
    cases first : (shape.chunks 0 h.length).find? (fun c => ¬ c.Readable s) with
    | none => simpa using first
    | some c =>
      obtain ⟨not, before, after, cut, readable⟩ := List.find?_eq_some_iff_append.1 first
      obtain ⟨cause, failed⟩ := Chunk.not_readable_iff.1 (of_decide_eq_true not)
      have readable' : ∀ c ∈ before, c.Readable s := by simpa using readable
      have stopped :=
        play_chunks_of_error readable' failed (uncutBefore cut readable' failed) after
      rw [cut, stopped.1] at done
      cases done
  · rw [readableUnits_of_readable readable] at uncut
    rw [(play_chunks_of_readable readable uncut).1]
    rfl
  · rw [readableUnits_of_readable readable] at uncut
    rw [(play_chunks_of_readable readable uncut).2]
  · have stopped := play_chunks_of_error readable failed (uncutBefore cut readable failed) after
    rw [cut, stopped.1, stopped.2]
    exact ⟨rfl, rfl⟩

end HeapString

/-! ## A sample

The heap of `Sample.heap` with longer strings. The external characters lie at `0x8000`, and those
from `0xa001` on cannot be read. -/

namespace Sample

/-- The words of the heap. -/
def strayWords : List Nat :=
  (((words.set 16 (9000 <<< 32)).set 19 0x8000).set 23 (8300 <<< 32)).set 28 (8302 <<< 32)

/-- The heap. -/
def strayHeap : Snapshot where
  memory :=
    { read := fun address length =>
        if address.toNat < 0x8000 then
          (Image.empty.map 0x1000 (strayWords.flatMap wordBytes).toArray).memory.read address length
        else if address.toNat + length ≤ 0xa001 then .ok (List.replicate length 0x61)
        else .error (.unmapped address length)
      length_of_read := by
        intro address length bytes read
        split at read
        · exact Memory.length_of_read _ read
        · split at read <;> cases read
          exact List.length_replicate }
  layout := layout

/-- The header of nine thousand characters, not all of which can be read. -/
def strayExternal : HeapString :=
  ⟨0x1070, 9000, 6, .oneByte, .external 0x1090 (some 0x8000), .blocking⟩

theorem strayHeap_units {address : Word} {count : Nat} (beyond : ¬ address.toNat < 0x8000)
    (inside : address.toNat + count ≤ 0xa001) :
    Chunk.units strayHeap ⟨strayExternal, address, count⟩ = List.replicate count 0x61 := by
  have size : Chunk.size ⟨strayExternal, address, count⟩ = count := Nat.mul_one count
  have read : strayHeap.memory.read address count = .ok (List.replicate count 0x61) :=
    (if_neg beyond).trans (if_pos inside)
  rw [Chunk.units, size, read]
  show Encoding.oneByte.units (List.replicate count 0x61) = _
  rw [Encoding.units, List.map_replicate]
  rfl

/-- The header of a slice of `strayExternal`. -/
def straySlice : HeapString := ⟨0x10a8, 8300, 7, .oneByte, .sliced 0x1071 1, .blocking⟩

/-- The header of the concatenation of `twoByte` and `straySlice`. -/
def strayJoined : HeapString :=
  ⟨0x10d0, 8302, 1, .twoByte, .concatenated 0x1051 0x10a9, .blocking⟩

/-- The shape of `strayJoined`. -/
def strayShape : StringShape :=
  .concatenated (.leaf twoByte 0x1068) (.sliced (.leaf strayExternal 0x8000) 1 8300)

theorem hasShape_strayJoined : strayJoined.HasShape strayHeap strayShape := by
  have first : HeapString.load strayHeap 0x1051 .blocking = .ok twoByte :=
    ok_of_toOption (by decide +kernel)
  have second : HeapString.load strayHeap 0x10a9 .blocking = .ok straySlice :=
    ok_of_toOption (by decide +kernel)
  have parent : HeapString.load strayHeap 0x1071 .blocking = .ok strayExternal :=
    ok_of_toOption (by decide +kernel)
  have found : strayHeap.fieldAddress twoByte.address ⟨"SeqTwoByteString", "chars"⟩ =
      .ok 0x1068 := ok_of_toOption (by decide +kernel)
  have inSpace : ∀ index < strayExternal.length,
      (0x8000 : Word).toNat + index * strayExternal.encoding.width ≤ Word.top := by
    intro index lt
    have base : (0x8000 : Word).toNat = 0x8000 := rfl
    simp only [base, strayExternal, Encoding.width, Word.top] at lt ⊢
    omega
  exact .concatenated (show strayJoined.representation = .concatenated 0x1051 0x10a9 from rfl) first
    second (.sequential rfl found (by decide))
    (.sliced (show straySlice.representation = .sliced 0x1071 1 from rfl) parent
      (.external (show strayExternal.representation = .external 0x1090 (some 0x8000) from rfl) rfl
        inSpace) (by decide)) rfl

end Sample

namespace HeapString

/-- The second of three chunks ends with the last character that can be read. -/
theorem write_readable_part_strayJoined :
    (∃ cause, (Sample.strayJoined.write Sample.strayHeap .raw {} (Sample.transcript 9000)).1 =
        .error (.unreadable 0xa001 108 cause)) ∧
      (Sample.strayJoined.write Sample.strayHeap .raw {} (Sample.transcript 9000)).2.buffer =
        (Sample.transcript 9000).buffer.add
          ('中' :: 'h' :: List.replicate 8192 'a' ++
            "<failed to read external string data>".toList) := by
  have cut : Sample.strayShape.chunks 0 8302 =
      [⟨Sample.twoByte, 0x1068, 2⟩, ⟨Sample.strayExternal, 0x8001, 8192⟩] ++
        ⟨Sample.strayExternal, 0xa001, 108⟩ :: [] := by
    decide +kernel
  have readable : ∀ c ∈ [⟨Sample.twoByte, 0x1068, 2⟩, ⟨Sample.strayExternal, 0x8001, 8192⟩],
      Chunk.Readable Sample.strayHeap c := by decide +kernel
  obtain ⟨cause, failed⟩ := Chunk.not_readable_iff.1
    (show ¬ Chunk.Readable Sample.strayHeap ⟨Sample.strayExternal, 0xa001, 108⟩ by decide +kernel)
  have units : ([⟨Sample.twoByte, 0x1068, 2⟩, ⟨Sample.strayExternal, 0x8001, 8192⟩] :
      List Chunk).flatMap (Chunk.units Sample.strayHeap) =
        0x4e2d :: 0x68 :: List.replicate 8192 0x61 := by
    have first : Chunk.units Sample.strayHeap ⟨Sample.twoByte, 0x1068, 2⟩ = [0x4e2d, 0x68] := by
      decide +kernel
    rw [List.flatMap_cons, List.flatMap_singleton, first,
      Sample.strayHeap_units (by decide) (by decide)]
    rfl
  have text : EscapeMode.raw.text (0x4e2d :: 0x68 :: List.replicate 8192 0x61) =
      '中' :: 'h' :: List.replicate 8192 'a' := by
    have plain : Plain 'a' := by decide
    have unit : (0x61 : UInt16) = UInt16.ofNat 'a'.toNat := rfl
    rw [text_cons, text_cons, unit, text_replicate_of_plain .raw plain]
    rfl
  have length : utf8Length ('中' :: 'h' :: List.replicate 8192 'a') = 8196 := by
    have single : ∀ c ∈ List.replicate 8192 'a', c.utf8Size = 1 := by
      intro c mem
      rw [List.eq_of_mem_replicate mem]
      rfl
    rw [utf8Length_cons, utf8Length_cons, utf8Length_eq_length single, List.length_replicate]
    rfl
  have uncut : cutIndex? .raw (Sample.transcript 9000).buffer.left
      (readableUnits Sample.strayHeap (Sample.strayShape.chunks 0 8302)) = none := by
    refine cutIndex?_eq_none_of_room ?_
    rw [cut, readableUnits_of_not_readable readable (Chunk.not_readable_iff.2 ⟨cause, failed⟩),
      units, text, length]
    decide
  have written := Sample.hasShape_strayJoined.write_readable_part .raw (o := {}) rfl rfl
    (by decide) (Sample.transcript 9000) (by decide) (by decide +kernel) (by decide) uncut
  obtain ⟨result, added⟩ := written.2.2 _ _ _ cut readable cause failed
  refine ⟨⟨cause, result⟩, added.trans ?_⟩
  rw [units, text, length]
  rfl

end HeapString

end Postmortem
