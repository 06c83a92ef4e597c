import Postmortem.Proofs.HeapString.Concatenation

/-! # Where a walk breaks off

A walk through a string breaks off in two places. At a string it does so if the buffer has no room
left, and at a character if the room is no more than the truncation marker takes; as much of the
marker as fits is added then, and that fills the buffer. A break travels up through concatenations
and slices without anything more being written.

So a walk that has broken off leaves a full buffer, and in a full buffer every other walk breaks off
before it does anything (`HeapString.breaks_off_full`). This asks nothing of the strings: they may
be corrupt and contain themselves. -/

namespace Postmortem

namespace HeapString

variable (s : Snapshot) (mode : EscapeMode) (h : HeapString)

theorem left_writeRange_of_full {levels depth start length : Nat} {t : Transcript}
    (full : (writeRange s mode levels h depth start length t).1 = .full) :
    (writeRange s mode levels h depth start length t).2.buffer.left = 0 := by
  rw [writeRange_eq_run] at full ⊢
  exact left_run_of_full full

theorem left_writeChars_of_full {base : Word} {start length : Nat} {t : Transcript}
    (full : (h.writeChars s mode base start length t).1 = .full) :
    (h.writeChars s mode base start length t).2.buffer.left = 0 := by
  rw [writeChars_eq_run] at full ⊢
  exact left_run_of_full full

/-- A string that is not nested too deep is not even visited if the buffer is full. -/
theorem writeRange_of_no_room {depth : Nat} (shallow : depth ≤ maxDepth) (start length : Nat)
    {t : Transcript} (noRoom : t.buffer.left = 0) :
    writeRange s mode (maxDepth + 1 - depth) h depth start length t = (.full, t) := by
  have levels : maxDepth + 1 - depth = maxDepth - depth + 1 := by omega
  rw [levels, writeRange, if_pos noRoom]

/-- **A walk breaks off only where the buffer is full.** When the writing of a range, or of the
characters of a string, has broken off, no room is left. And where no room is left, a walk through
any string that is not nested too deep breaks off: nothing is added to the buffer, nothing is booked
and nothing is visited. -/
theorem breaks_off_full :
    (∀ (levels depth start length : Nat) (t : Transcript),
      (writeRange s mode levels h depth start length t).1 = .full →
        (writeRange s mode levels h depth start length t).2.buffer.left = 0) ∧
    (∀ (base : Word) (start length : Nat) (t : Transcript),
      (h.writeChars s mode base start length t).1 = .full →
        (h.writeChars s mode base start length t).2.buffer.left = 0) ∧
    ∀ (depth start length : Nat) (t : Transcript), depth ≤ maxDepth → t.buffer.left = 0 →
      writeRange s mode (maxDepth + 1 - depth) h depth start length t = (.full, t) := by
  refine ⟨fun levels depth start length t full => ?_, fun base start length t full => ?_,
    fun depth start length t shallow noRoom => ?_⟩
  · exact left_writeRange_of_full s mode h full
  · exact left_writeChars_of_full s mode h full
  · exact writeRange_of_no_room s mode h shallow start length noRoom

/-- The sample's concatenation breaks off in nine bytes, and its first part, whose characters take
four bytes, in six: less than the whole marker fits then. After the former nothing is written of
another string at the greatest depth. -/
theorem breaks_off_joined :
    let joined := writeRange Sample.heap .raw 513 Sample.joined 0 0 4 (Sample.transcript 9)
    let chars := Sample.twoByte.writeChars Sample.heap .raw 0x1068 0 2 (Sample.transcript 6)
    (joined.1 = .full ∧ joined.2.buffer.left = 0) ∧ (chars.1 = .full ∧ chars.2.buffer.left = 0) ∧
    512 ≤ maxDepth ∧
    writeRange Sample.heap .raw (maxDepth + 1 - 512) Sample.external 512 1 2 joined.2 =
      (.full, joined.2) := by
  intro joined chars
  have full : joined.1 = .full := by decide +kernel
  have full' : chars.1 = .full := by decide +kernel
  have deepest : 512 ≤ maxDepth := by decide
  have noRoom := (breaks_off_full Sample.heap .raw Sample.joined).1 _ _ _ _ _ full
  have noRoom' := (breaks_off_full Sample.heap .raw Sample.twoByte).2.1 _ _ _ _ full'
  have idle := (breaks_off_full Sample.heap .raw Sample.external).2.2 512 1 2 _ deepest noRoom
  exact ⟨⟨full, noRoom⟩, ⟨full', noRoom'⟩, deepest, idle⟩

end HeapString

end Postmortem
