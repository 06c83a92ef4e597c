import Postmortem.Proofs.HeapString.Flatten
import Postmortem.Proofs.Text.JsonItems

/-! # Escaped text

Text that was written in the mode `asciiOnly` or `json` can be embedded in other text, whatever the
heap holds and however the writing ends (`EscapeMode.Embeds`). An escape is never cut in half: a
unit is written only if there is more room than the truncation marker takes, and that is more than
an escape needs. What is cut are the marker and the placeholders, and these are plain.

* `HeapString.write_escaped` says so of every string, and that a string which is written whole in
  the mode `json` can be read back. -/

namespace Postmortem

/-! ## Scripts -/

namespace EscapeMode

/-- The texts that a mode is to add to a buffer. -/
def Embeds : EscapeMode → List Char → Prop
  | .raw, _ => True
  | .asciiOnly, text => ∀ c ∈ text, Printable c
  | .json, text => JsonItems text

variable (mode : EscapeMode) {text more : List Char}

theorem Embeds.append {mode : EscapeMode} (h : mode.Embeds text) (h' : mode.Embeds more) :
    mode.Embeds (text ++ more) := by
  cases mode with
  | raw => trivial
  | asciiOnly => exact List.forall_mem_append.2 ⟨h, h'⟩
  | json => exact JsonItems.append h h'

theorem embeds_of_plain (h : ∀ c ∈ text, Plain c) : mode.Embeds text := by
  cases mode with
  | raw => trivial
  | asciiOnly => exact fun c mem => (h c mem).1
  | json => exact .of_plain h

theorem embeds_escape (unit : UInt16) : mode.Embeds (mode.escape unit) := by
  cases mode with
  | raw => trivial
  | asciiOnly => simpa [Embeds, escape] using printable_asciiOrPlaceholder unit
  | json => exact jsonItems_escape unit

end EscapeMode

theorem embeds_perform (mode : EscapeMode) (room : Nat) (action : Action) :
    mode.Embeds (action.perform mode room).text := by
  cases action with
  | gate | log event | fail e => exact mode.embeds_of_plain (by simp [Action.perform])
  | placeholder p =>
    exact mode.embeds_of_plain fun c mem => p.plain_text c (List.mem_of_mem_take mem)
  | write unit =>
    rw [Action.perform]
    split
    · exact mode.embeds_of_plain fun c mem => plain_truncationMarker c (List.mem_of_mem_take mem)
    · exact mode.embeds_escape unit

/-- **A script adds only what its mode is to add,** whatever room there is. -/
theorem embeds_play (mode : EscapeMode) (room : Nat) (script : List Action) :
    mode.Embeds (play mode room script).text := by
  induction script generalizing room with
  | nil => exact mode.embeds_of_plain (by simp [play])
  | cons action script ih =>
    have first := embeds_perform mode room action
    simp only [play, Outcome.append]
    split
    · exact first.append (ih _)
    · exact first

/-! ## Strings -/

namespace HeapString

variable {s : Snapshot} {mode : EscapeMode} {h : HeapString} {tree : StringTree} {o : WriteOptions}
  {t : Transcript}

theorem write_embeds (s : Snapshot) (mode : EscapeMode) (h : HeapString)
    (unquoted : o.quoted = false) (t : Transcript) :
    ∃ text, (h.write s mode o t).2.buffer = t.buffer.add text ∧ mode.Embeds text := by
  refine ⟨(play mode t.buffer.left (h.script s t.budget o.depth)).text, ?_, embeds_play mode _ _⟩
  rw [h.write_eq_run s mode unquoted]
  rfl

/-- All characters of a string with sequential leaves are there, if the writing succeeds and finds
the room for each. -/
theorem Holds.buffer_of_whole (held : Holds s h tree) (leaves : tree.SequentialLeaves)
    (unquoted : o.quoted = false) (written : (h.write s mode o t).1 = .ok ())
    (whole : cutIndex? mode t.buffer.left tree.units = none) :
    (h.write s mode o t).2.buffer = t.buffer.add (mode.text tree.units) := by
  rw [h.write_eq_run s mode unquoted] at written ⊢
  rcases held.play_script t.budget o.depth (.of_sequentialLeaves leaves) with
    ⟨-, text⟩ | ⟨e, failed, -⟩
  · rw [cutText_eq_text whole] at text
    exact congrArg t.buffer.add text
  · have stopped : (run mode (h.script s t.budget o.depth) t).1 = .failed e := failed
    rw [stopped] at written
    cases written

/-- **Escaped text is safe to embed.** A string is written without quotes; neither the heap nor the
string, its depth or the buffer is restricted, and the writing may succeed, be cut short or fail. In
the mode `asciiOnly` it adds printable ASCII only, and in the mode `json` it adds complete items
only: plain characters, and escapes that are not cut in half. If a string with sequential leaves is
written whole in the mode `json`, a reader of JSON texts gives its units back, those excepted that
are neither printable ASCII nor have an escape. -/
theorem write_escaped (s : Snapshot) (h : HeapString) (unquoted : o.quoted = false)
    (t : Transcript) :
    (∃ text, (h.write s .asciiOnly o t).2.buffer = t.buffer.add text ∧ ∀ c ∈ text, Printable c) ∧
    (∃ text, (h.write s .json o t).2.buffer = t.buffer.add text ∧ JsonItems text) ∧
    ∀ tree, h.Holds s tree → tree.SequentialLeaves → (h.write s .json o t).1 = .ok () →
      cutIndex? .json t.buffer.left tree.units = none →
      ∃ text content, (h.write s .json o t).2.buffer = t.buffer.add text ∧
        (∀ rest, Json.text? (text ++ '"' :: rest) = some (some content, rest)) ∧
        content.toList.flatMap utf16 = tree.units.map jsonUnit := by
  refine ⟨write_embeds s .asciiOnly h unquoted t, write_embeds s .json h unquoted t, ?_⟩
  intro tree held leaves written whole
  refine ⟨EscapeMode.json.text tree.units, String.ofList (tree.units.map jsonChar),
    held.buffer_of_whole leaves unquoted written whole, Json.text?_text tree.units, ?_⟩
  rw [String.toList_ofList, flatMap_utf16_jsonChar]

/-- The sample's string of two characters, the first of which has no text in ASCII. -/
theorem write_escaped_twoByte :
    (∃ text, (Sample.twoByte.write Sample.heap .asciiOnly {} (Sample.transcript 20)).2.buffer =
        (TextBuffer.ofCapacity 20).add text ∧ ∀ c ∈ text, Printable c) ∧
    (∃ text, (Sample.twoByte.write Sample.heap .json {} (Sample.transcript 20)).2.buffer =
        (TextBuffer.ofCapacity 20).add text ∧ JsonItems text) ∧
    ∃ text content, (Sample.twoByte.write Sample.heap .json {} (Sample.transcript 20)).2.buffer =
        (TextBuffer.ofCapacity 20).add text ∧
      (∀ rest, Json.text? (text ++ '"' :: rest) = some (some content, rest)) ∧
      content.toList.flatMap utf16 = [0x3f, 0x68] := by
  have leaves : (StringTree.sequential [0x4e2d, 0x68]).SequentialLeaves := trivial
  have written : (Sample.twoByte.write Sample.heap .json {} (Sample.transcript 20)).1 = .ok () := by
    rw [write_eq_run _ _ _ rfl]
    exact (Sample.holds_twoByte.run_script rfl (by decide) _ (by decide)
      (.of_sequentialLeaves leaves)).1
  obtain ⟨printable, items, whole⟩ :=
    write_escaped (o := {}) Sample.heap Sample.twoByte rfl (Sample.transcript 20)
  exact ⟨printable, items, whole _ Sample.holds_twoByte leaves written (by decide)⟩

end HeapString

end Postmortem
