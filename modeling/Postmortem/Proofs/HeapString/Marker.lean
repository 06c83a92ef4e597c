import Postmortem.Proofs.HeapString.Flatten

/-! # The truncation marker

When a string does not fit its buffer, the truncation marker is written for the rest, but not always
all of it. The writing stops before the first unit that finds no more room than the marker takes;
the unit before that one takes up to three bytes, and two of them may have been the marker's.

* `HeapString.Holds.marker_complete_iff` says when the whole marker is written, and
  `HeapString.marker_cut_off` has a string for which it is not.
* `HeapString.Holds.marker_complete_of_single_bytes`: it is, if each unit takes one byte. In the
  mode `asciiOnly` each does (`EscapeMode.utf8Length_escape_asciiOnly`). -/

namespace Postmortem

namespace HeapString

variable {s : Snapshot} {mode : EscapeMode} {h : HeapString} {tree : StringTree} {o : WriteOptions}
  {t : Transcript}

/-- The text of a string with sequential leaves, whatever the budget, if the writing succeeds. -/
theorem Holds.buffer_of_write (held : Holds s h tree) (leaves : tree.SequentialLeaves)
    (unquoted : o.quoted = false) (deep : o.depth + tree.height ≤ maxDepth)
    (written : (h.write s mode o t).1 = .ok ()) :
    (h.write s mode o t).2.buffer = t.buffer.add (cutText mode t.buffer.left tree.units) := by
  rw [h.write_eq_run s mode unquoted] at written ⊢
  rcases held.play_script t.budget o.depth (.of_sequentialLeaves leaves) with
    ⟨-, text⟩ | ⟨e, failed, refused | high⟩
  · exact congrArg t.buffer.add text
  · have stopped : (run mode (h.script s t.budget o.depth) t).1 = .failed e := failed
    rw [stopped] at written
    cases written
  · exact absurd deep (Nat.not_le.2 high)

/-- The text that was cut ends with the whole marker if and only if that had room. -/
theorem marker_isSuffix_iff {units : List UInt16} {k : Nat} (b : TextBuffer)
    (enough : truncationMarker.utf8ByteSize ≤ b.left) (cut : cutIndex? mode b.left units = some k) :
    truncationMarker.toList <:+ (b.add (cutText mode b.left units)).text.toList ↔
      b.left - utf8Length (mode.text (units.take k)) = truncationMarker.utf8ByteSize := by
  have room := room_of_cutIndex? cut
  have marker : truncationMarker.utf8ByteSize = 5 := rfl
  rw [TextBuffer.toList_text_add, cutText, cut, ← List.append_assoc]
  exact truncationMarker_isSuffix_iff (by omega) room.1

/-- **When a text that is cut short ends with the whole marker.** A string with sequential leaves is
written without quotes to a buffer with room for the marker at least, and the writing succeeds.
Either all characters are written, or the first `k` of them and as much of the marker as fits; then
the text ends with the whole marker if and only if those characters leave exactly the bytes that it
takes. -/
theorem Holds.marker_complete_iff (held : Holds s h tree) (leaves : tree.SequentialLeaves)
    (unquoted : o.quoted = false) (deep : o.depth + tree.height ≤ maxDepth)
    (enough : truncationMarker.utf8ByteSize ≤ t.buffer.left)
    (written : (h.write s mode o t).1 = .ok ()) :
    (cutIndex? mode t.buffer.left tree.units = none ∧
      (h.write s mode o t).2.buffer = t.buffer.add (mode.text tree.units)) ∨
    ∃ k, cutIndex? mode t.buffer.left tree.units = some k ∧
      (h.write s mode o t).2.buffer =
        t.buffer.add (mode.text (tree.units.take k) ++ truncationMarker.toList.take
          (t.buffer.left - utf8Length (mode.text (tree.units.take k)))) ∧
      (truncationMarker.toList <:+ (h.write s mode o t).2.buffer.text.toList ↔
        utf8Length (mode.text (tree.units.take k)) + truncationMarker.utf8ByteSize =
          t.buffer.left) := by
  rw [held.buffer_of_write leaves unquoted deep written]
  cases cut : cutIndex? mode t.buffer.left tree.units with
  | none => exact .inl ⟨rfl, congrArg t.buffer.add (cutText_eq_text cut)⟩
  | some k =>
    refine .inr ⟨k, rfl, ?_, ?_⟩
    · rw [cutText, cut]
    · have room := room_of_cutIndex? cut
      have marker : truncationMarker.utf8ByteSize = 5 := rfl
      rw [marker_isSuffix_iff t.buffer enough cut]
      omega

/-! ## Two characters

The sample's string of two characters takes four bytes, three of them for the first character. -/

theorem write_twoByte (capacity : Nat) :
    (Sample.twoByte.write Sample.heap .raw {} (Sample.transcript capacity)).1 = .ok () := by
  have leaf : ∀ p ∈ (StringTree.sequential [0x4e2d, 0x68]).pieces 0 2, p.StartsAscii := by
    simp [StringTree.pieces, Piece.StartsAscii]
  have grants : chunkBytes ≤ Budget.unlimited.maxAllocation.toNat := by decide
  rw [write_eq_run _ _ _ rfl]
  exact (Sample.holds_twoByte.run_script rfl (by decide) _ grants (.of_forall leaf)).1

/-- Eight bytes hold one character and the whole marker. -/
theorem marker_complete_twoByte :
    truncationMarker.toList <:+
      (Sample.twoByte.write Sample.heap .raw {} (Sample.transcript 8)).2.buffer.text.toList := by
  rcases Sample.holds_twoByte.marker_complete_iff (o := {}) (t := Sample.transcript 8) trivial
    rfl (by decide) (by decide) (write_twoByte 8) with
    ⟨uncut, -⟩ | ⟨k, cut, -, complete⟩
  · exact absurd uncut (by decide)
  · have one : cutIndex? .raw (Sample.transcript 8).buffer.left [0x4e2d, 0x68] = some 1 := by decide
    cases Option.some.inj (one.symm.trans cut)
    exact complete.2 (by decide)

/-- Six bytes hold one character and three bytes of the marker, although there was room for the
whole marker and the writing succeeds. -/
theorem marker_cut_off :
    Sample.twoByte.Holds Sample.heap (.sequential [0x4e2d, 0x68]) ∧
    (StringTree.sequential [0x4e2d, 0x68]).SequentialLeaves ∧
    (StringTree.sequential [0x4e2d, 0x68]).height ≤ maxDepth ∧
    truncationMarker.utf8ByteSize ≤ (Sample.transcript 6).buffer.left ∧
    cutIndex? .raw (Sample.transcript 6).buffer.left [0x4e2d, 0x68] = some 1 ∧
    (Sample.twoByte.write Sample.heap .raw {} (Sample.transcript 6)).1 = .ok () ∧
    (Sample.twoByte.write Sample.heap .raw {} (Sample.transcript 6)).2.buffer.text = "中[.." ∧
    ¬ truncationMarker.toList <:+ "中[..".toList := by
  refine ⟨Sample.holds_twoByte, trivial, by decide, by decide, by decide, write_twoByte 6, ?_,
    by decide⟩
  rw [Sample.holds_twoByte.buffer_of_write trivial rfl (by decide) (write_twoByte 6)]
  decide

/-! ## Units of one byte -/

/-- Where each unit takes one byte, a text that is cut short ends with the whole marker. -/
theorem Holds.marker_complete_of_single_bytes (held : Holds s h tree)
    (leaves : tree.SequentialLeaves) (unquoted : o.quoted = false)
    (deep : o.depth + tree.height ≤ maxDepth)
    (enough : truncationMarker.utf8ByteSize ≤ t.buffer.left)
    (written : (h.write s mode o t).1 = .ok ())
    (single : ∀ unit ∈ tree.units, utf8Length (mode.escape unit) = 1)
    (short : cutIndex? mode t.buffer.left tree.units ≠ none) :
    truncationMarker.toList <:+ (h.write s mode o t).2.buffer.text.toList := by
  obtain ⟨k, cut⟩ := Option.ne_none_iff_exists'.1 short
  rw [held.buffer_of_write leaves unquoted deep written, marker_isSuffix_iff t.buffer enough cut]
  exact room_of_single_bytes single enough cut

end HeapString

end Postmortem
