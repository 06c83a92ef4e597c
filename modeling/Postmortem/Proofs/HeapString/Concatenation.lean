import Postmortem.Proofs.HeapString.Capacity
import Postmortem.Proofs.HeapString.Flatten

/-! # Concatenations

To write a concatenation is to write the first part and then the second one
(`HeapString.write_concatenated`), whatever the parts are made of. The script of a concatenation is
those of its parts (`HeapString.script_concatenated`), so what remains is that both go on or both
stop after the first part.

Writing that is broken off for want of room has filled the buffer (`left_run_of_full`). That is why
the second part adds nothing when it is written all the same. -/

namespace Postmortem

/-! ## Full buffers -/

theorem utf8Length_take_of_le {text : List Char} (plain : ∀ c ∈ text, Plain c) {room : Nat}
    (long : room ≤ text.length) : utf8Length (text.take room) = room := by
  rw [utf8Length_eq_length fun c mem => (plain c (List.mem_of_mem_take mem)).utf8Size]
  exact List.length_take_of_le long

/-- An action that breaks the writing off fills the room. -/
theorem Action.utf8Length_of_full {mode : EscapeMode} {room : Nat} {action : Action}
    (full : (action.perform mode room).ending = .full) :
    utf8Length (action.perform mode room).text = room := by
  cases action with
  | gate =>
    by_cases noRoom : room = 0
    · exact noRoom.symm
    · simp [perform, noRoom] at full
  | write unit =>
    by_cases short : room ≤ truncationMarker.utf8ByteSize
    · simp only [perform, if_pos short]
      exact utf8Length_take_of_le plain_truncationMarker short
    · simp [perform, short] at full
  | log | placeholder | fail => cases full

/-- So does a script. -/
theorem utf8Length_play_of_full {mode : EscapeMode} {room : Nat} {script : List Action}
    (full : (play mode room script).ending = .full) :
    utf8Length (play mode room script).text = room := by
  induction script generalizing room with
  | nil => cases full
  | cons action script ih =>
    have first := utf8Length_perform_le mode room action
    rw [play] at full ⊢
    by_cases done : (action.perform mode room).ending = .finished
    · rw [Outcome.append_of_finished done] at full ⊢
      rw [utf8Length_append, ih full]
      omega
    · rw [Outcome.append_of_not_finished done] at full ⊢
      exact Action.utf8Length_of_full full

/-- **Writing that is broken off for want of room leaves none.** -/
theorem left_run_of_full {mode : EscapeMode} {script : List Action} {t : Transcript}
    (full : (run mode script t).1 = .full) : (run mode script t).2.buffer.left = 0 := by
  have filled := utf8Length_play_of_full full
  rw [run, Outcome.applyTo, TextBuffer.left_add, filled, Nat.sub_self]

namespace HeapString

variable {s : Snapshot} {mode : EscapeMode}

theorem run_script_of_no_room (h : HeapString) (budget : Budget) {depth : Nat}
    (shallow : depth ≤ maxDepth) {t : Transcript} (noRoom : t.buffer.left = 0) :
    run mode (h.script s budget depth) t = (.full, t) := by
  rw [run, noRoom, play_script_zero budget shallow]
  simp [Outcome.applyTo]

/-! ## One string after the other -/

/-- Appends the text of a string and, if that succeeds, the text of another one. -/
def writeBoth (s : Snapshot) (mode : EscapeMode) (first second : HeapString) (o : WriteOptions)
    (t : Transcript) : Except DecodeError Unit × Transcript :=
  match first.write s mode o t with
  | (.ok (), t) => second.write s mode o t
  | (.error e, t) => (.error e, t)

/-- Two strings are written one after the other as their scripts are played in one go. -/
theorem writeBoth_eq_run (first second : HeapString) {o : WriteOptions}
    (unquoted : o.quoted = false) (shallow : o.depth ≤ maxDepth) (t : Transcript) :
    let script := first.script s t.budget o.depth ++ second.script s t.budget o.depth
    writeBoth s mode first second o t =
      ((run mode script t).1.result, (run mode script t).2) := by
  dsimp only
  rw [writeBoth, first.write_eq_run s mode unquoted, run_append]
  have kept := budget_run mode (first.script s t.budget o.depth) t
  rcases ended : run mode (first.script s t.budget o.depth) t with ⟨ending, t'⟩
  rw [ended] at kept
  cases ending with
  | finished =>
    rw [Ending.andThen_finished, ← kept]
    exact second.write_eq_run s mode unquoted t'
  | full =>
    have noRoom : t'.buffer.left = 0 := by
      have full : (run mode (first.script s t.budget o.depth) t).1 = .full := by rw [ended]
      have left := left_run_of_full full
      rwa [ended] at left
    have idle := second.write_eq_run s mode unquoted t'
    rwa [run_script_of_no_room second t'.budget shallow noRoom] at idle
  | failed e => rfl

section concatenated

variable {h a b : HeapString} {first second : Word}
  (shown : h.representation = .concatenated first second)
  (loaded : load s first h.policy = .ok a) (loaded' : load s second h.policy = .ok b)
  (pos : 0 < a.length) (pos' : 0 < b.length) (whole : h.length = a.length + b.length)

include shown loaded loaded' pos pos' whole

/-- The script of a concatenation is that of the first part and then that of the second one. -/
theorem script_concatenated (budget : Budget) {depth : Nat} (shallow : depth < maxDepth) :
    h.script s budget depth =
      .gate :: .log (.visited { string := h, depth, start := 0, length := h.length }) ::
        (a.script s budget (depth + 1) ++ b.script s budget (depth + 1)) := by
  have levels : maxDepth + 1 - depth = maxDepth + 1 - (depth + 1) + 1 := by omega
  have inside : 0 + h.length ≤ h.length := by omega
  have firstPart : min h.length (a.length - 0) = a.length := by omega
  have secondPart : 0 + h.length - max a.length 0 = b.length := by omega
  rw [script, levels, rangeScript_concatenated inside budget _ _ shown loaded loaded', if_pos pos,
    if_pos (by omega), firstPart, secondPart, Nat.zero_sub]
  rfl

/-- **A concatenation is written as its parts are written.** The parts load and are not empty, and
the concatenation is as long as both together. Nothing is asked of what the parts hold or refer to.
The concatenation, written without quotes at less than the greatest depth, ends with the same result
and leaves the same buffer as writing the first part one level deeper and, if that succeeds, the
second part after it. -/
theorem write_concatenated {o : WriteOptions} (unquoted : o.quoted = false)
    (shallow : o.depth < maxDepth) (t : Transcript) :
    let parts := writeBoth s mode a b { o with depth := o.depth + 1 } t
    (h.write s mode o t).1 = parts.1 ∧ (h.write s mode o t).2.buffer = parts.2.buffer := by
  intro parts
  have deeper : ({ o with depth := o.depth + 1 } : WriteOptions).quoted = false := unquoted
  have written : parts = _ := writeBoth_eq_run a b deeper shallow t
  rw [written, h.write_eq_run s mode unquoted,
    script_concatenated shown loaded loaded' pos pos' whole t.budget shallow, run_gate]
  split
  · rename_i noRoom
    rw [run_append, run_script_of_no_room a t.budget shallow noRoom]
    exact ⟨rfl, rfl⟩
  · rw [run_log]
    exact ⟨rfl, rfl⟩

end concatenated

/-- The sample's concatenation at a depth at which its second part, a slice, is not followed. -/
theorem write_joined_parts :
    let parts := writeBoth Sample.heap .raw Sample.twoByte Sample.slice { depth := 512 }
      (Sample.transcript 40)
    (Sample.joined.write Sample.heap .raw { depth := 511 } (Sample.transcript 40)).1 = parts.1 ∧
    (Sample.joined.write Sample.heap .raw { depth := 511 } (Sample.transcript 40)).2.buffer =
      parts.2.buffer :=
  write_concatenated rfl Sample.load_twoByte Sample.load_slice (by decide) (by decide) rfl rfl
    (by decide) (Sample.transcript 40)

end HeapString

end Postmortem
