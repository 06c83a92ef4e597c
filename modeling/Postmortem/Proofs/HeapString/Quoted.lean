import Postmortem.Proofs.HeapString.Capacity
import Postmortem.Proofs.HeapString.Course
import Postmortem.Proofs.HeapString.Escaped

/-! # Quotes

The two quotes around a string pass through the escape mode like its characters. A margin of one
byte is held back for the closing one while the text is written, and handed back after it however
the writing ended (`HeapString.write_of_quoted`).

In the modes `raw` and `asciiOnly` a quote takes one byte. So both quotes are there if there are two
bytes for them, and between them stands what is written without quotes to the room that is left
(`HeapString.write_between_quotes`).

In the mode `json` a quote is written as an escape, a backslash and a quote. So what is written with
quotes is no JSON text, although the text between the quotes would be one between quotes of its own,
and of the closing quote's two bytes only one has a margin (`HeapString.write_quoted_json`). -/

namespace Postmortem

namespace TextBuffer

variable {b : TextBuffer}

theorem reserve_one (h : b.reserved < Word.top) :
    b.reserve 1 = { b with reserved := b.reserved + 1 } := by
  have fits : Word.capped (b.reserved + 1) = b.reserved + 1 := Word.capped_eq_self h
  simp [reserve, fits]

theorem left_reserve_one (h : b.reserved < Word.top) : (b.reserve 1).left = b.left - 1 := by
  rw [reserve_one h]
  simp only [left, length]
  omega

/-- A margin that was given back leaves no trace. -/
theorem reserve_add_reserve (h : b.reserved < Word.top) (text : List Char) :
    ((b.reserve 1).add text).reserve (-1) = b.add text := by
  rw [reserve_one h]
  simp [reserve, add]

theorem pushUnit_quote_json (b : TextBuffer) :
    b.pushUnit .json 0x22 = b.add (['\\', '"'].take b.left) := by
  have single : ∀ c ∈ ['\\', '"'], c.utf8Size = 1 :=
    List.forall_mem_cons.2 ⟨rfl, List.forall_mem_singleton.2 rfl⟩
  rw [pushUnit, push_eq_add, ← fitting_eq_take single]
  rfl

/-- Where a mode keeps a quote as it is, it takes one byte. -/
theorem pushUnit_quote_bare {mode : EscapeMode} (bare : mode ≠ .json) (b : TextBuffer)
    (room : 0 < b.left) : b.pushUnit mode 0x22 = b.add ['"'] := by
  have kept : mode.escape 0x22 = ['"'] := by
    cases mode with
    | raw | asciiOnly => decide
    | json => exact absurd rfl bare
  rw [pushUnit, kept, push_eq_add, fitting_eq_self]
  exact room

end TextBuffer

namespace HeapString

variable (s : Snapshot) (mode : EscapeMode) (h : HeapString) {o : WriteOptions}

/-- With quotes, writing plays the script between the quotes, with a margin of one byte. -/
theorem write_eq_run_of_quoted (quoted : o.quoted = true) (shallow : o.depth ≤ maxDepth)
    (t : Transcript) :
    h.write s mode o t =
      ((run mode (h.script s t.budget o.depth) (reserve 1 (writeQuote mode t))).1.result,
        writeQuote mode
          (reserve (-1)
            (run mode (h.script s t.budget o.depth) (reserve 1 (writeQuote mode t))).2)) := by
  rw [write, if_neg (Nat.not_lt.2 shallow), if_pos quoted, writeAll_eq_run]
  rfl

/-- The quote that opens the text is written with the margin that there was. Then the script is
played in what is left but for one byte, and that byte is free again for the quote that closes the
text. -/
theorem write_of_quoted (quoted : o.quoted = true) (shallow : o.depth ≤ maxDepth) (t : Transcript)
    (margin : t.buffer.reserved < Word.top) {opened : TextBuffer}
    (begun : t.buffer.pushUnit mode 0x22 = opened) :
    let body := play mode (opened.left - 1) (h.script s t.budget o.depth)
    h.write s mode o t =
      (body.ending.result,
        { (body.applyTo t).2 with buffer := (opened.add body.text).pushUnit mode 0x22 }) := by
  subst begun
  have margin' : (t.buffer.pushUnit mode 0x22).reserved < Word.top := margin
  dsimp only
  rw [write_eq_run_of_quoted s mode h quoted shallow, ← TextBuffer.left_reserve_one margin',
    ← TextBuffer.reserve_add_reserve margin']
  rfl

/-- The text of the script stands between two quotes, as far as these fit. -/
theorem buffer_write_of_quoted (quoted : o.quoted = true) (shallow : o.depth ≤ maxDepth)
    (t : Transcript) (margin : t.buffer.reserved < Word.top) {opened : TextBuffer}
    (begun : t.buffer.pushUnit mode 0x22 = opened) :
    (h.write s mode o t).2.buffer =
      (opened.add (play mode (opened.left - 1) (h.script s t.budget o.depth)).text).pushUnit mode
        0x22 := by
  rw [write_of_quoted s mode h quoted shallow t margin begun]

/-- **With quotes the mode `json` does not write a JSON text.** A string that is not nested too deep
is written with quotes to a buffer with two bytes left at least, and the writing may succeed, be cut
short or fail. What is added are an escaped quote, a body of complete items, and as much of another
escaped quote as fits; with three bytes or more at least its backslash does. That is no JSON text,
though the same body between two bare quotes is one. -/
theorem write_quoted_json (quoted : o.quoted = true) (shallow : o.depth ≤ maxDepth) (t : Transcript)
    (inWord : t.buffer.capacity ≤ Word.top) (room : 2 ≤ t.buffer.left) :
    ∃ body closing, JsonItems body ∧ closing = ['\\', '"'].take (t.buffer.left - 2 - body.length) ∧
      (3 ≤ t.buffer.left → closing ≠ []) ∧
      (h.write s .json o t).2.buffer = t.buffer.add (['\\', '"'] ++ body ++ closing) ∧
      Json.read? (String.ofList (['\\', '"'] ++ body ++ closing)) = none ∧
      ∃ content, Json.read? (String.ofList ('"' :: body ++ ['"'])) = some (.string content) := by
  have margin : t.buffer.reserved < Word.top := by
    rw [TextBuffer.left] at room
    omega
  have opened : t.buffer.pushUnit .json 0x22 = t.buffer.add ['\\', '"'] := by
    rw [TextBuffer.pushUnit_quote_json, List.take_of_length_le room]
  have left : (t.buffer.add ['\\', '"']).left = t.buffer.left - 2 := by
    rw [TextBuffer.left_add]
    rfl
  have items := embeds_play .json (t.buffer.left - 2 - 1) (h.script s t.budget o.depth)
  have short := utf8Length_play_le .json (t.buffer.left - 2 - 1) (h.script s t.budget o.depth)
  have written := buffer_write_of_quoted s .json h quoted shallow t margin opened
  rw [left, TextBuffer.pushUnit_quote_json, TextBuffer.left_add, left, TextBuffer.add_add,
    TextBuffer.add_add] at written
  rw [JsonItems.utf8Length_eq items] at short written
  refine ⟨_, _, items, rfl, fun enough => ?_, ?_, Json.read?_backslash _, Json.read?_quoted items⟩
  · simp only [ne_eq, List.take_eq_nil_iff, List.cons_ne_nil, or_false]
    omega
  · rw [written, List.append_assoc]

/-- **Quotes go around what is written without them.** In the modes `raw` and `asciiOnly` a string
that is not nested too deep is written with quotes to a buffer with two bytes left at least. What is
added is a quote, what the writing without quotes adds to any buffer with two bytes fewer left, and
another quote. That holds whether the writing succeeds, is cut short or fails: both writings end
alike and leave the same budget and trace. The margin is what it was. -/
theorem write_between_quotes (bare : mode ≠ .json) (quoted : o.quoted = true)
    (shallow : o.depth ≤ maxDepth) (t : Transcript) (margin : t.buffer.reserved < Word.top)
    (room : 2 ≤ t.buffer.left) {inner : TextBuffer} (fewer : inner.left = t.buffer.left - 2) :
    let within := h.write s mode { o with quoted := false } { t with buffer := inner }
    ∃ body, within.2.buffer = inner.add body ∧
      h.write s mode o t =
        (within.1, { within.2 with buffer := t.buffer.add ('"' :: body ++ ['"']) }) ∧
      (h.write s mode o t).2.buffer.reserved = t.buffer.reserved := by
  intro within
  have opened : t.buffer.pushUnit mode 0x22 = t.buffer.add ['"'] :=
    TextBuffer.pushUnit_quote_bare bare _ (by omega)
  have left : (t.buffer.add ['"']).left = t.buffer.left - 1 := t.buffer.left_add _
  have written := write_of_quoted s mode h quoted shallow t margin opened
  have bareWritten : within = _ :=
    h.write_eq_run s mode (o := { o with quoted := false }) rfl { t with buffer := inner }
  have short := utf8Length_play_le mode inner.left (h.script s t.budget o.depth)
  have same : (t.buffer.add ['"']).left - 1 = inner.left := by omega
  rw [same] at written
  -- The body leaves one byte, which is the closing quote's.
  have closed := TextBuffer.pushUnit_quote_bare bare
    ((t.buffer.add ['"']).add (play mode inner.left (h.script s t.budget o.depth)).text)
    (by rw [TextBuffer.left_add]; omega)
  refine ⟨(play mode inner.left (h.script s t.budget o.depth)).text, ?_, ?_, ?_⟩
  · rw [bareWritten]
    rfl
  · rw [written, closed, bareWritten, TextBuffer.add_add, TextBuffer.add_add]
    rfl
  · rw [written, closed]
    rfl

/-- The sample's nested concatenation at a depth at which it fails, in a buffer with a margin. -/
theorem write_outerCons_between_quotes :
    let t := reserve 7 (Sample.transcript 60)
    let within := Sample.outerCons.write Sample.barredHeap .raw { depth := 511 }
      { t with buffer := .ofCapacity 51 }
    ∃ body, within.2.buffer = (TextBuffer.ofCapacity 51).add body ∧
      Sample.outerCons.write Sample.barredHeap .raw { quoted := true, depth := 511 } t =
        (within.1, { within.2 with buffer := t.buffer.add ('"' :: body ++ ['"']) }) ∧
      (Sample.outerCons.write Sample.barredHeap .raw { quoted := true, depth := 511 }
        t).2.buffer.reserved = 7 :=
  write_between_quotes Sample.barredHeap .raw Sample.outerCons
    (o := { quoted := true, depth := 511 }) (by decide) rfl (by decide)
    (reserve 7 (Sample.transcript 60)) (by decide) (by decide) (by decide)

/-! ## Two characters -/

theorem play_twoByte (mode : EscapeMode) (room : Nat) {budget : Budget} {depth : Nat}
    (grants : chunkBytes ≤ budget.maxAllocation.toNat) (shallow : depth ≤ maxDepth) :
    (play mode room (Sample.twoByte.script Sample.heap budget depth)).text =
      cutText mode room [0x4e2d, 0x68] := by
  have leaves : (StringTree.sequential [0x4e2d, 0x68]).SequentialLeaves := trivial
  rcases Sample.holds_twoByte.play_script budget depth (.of_sequentialLeaves leaves) with
    ⟨-, text⟩ | ⟨e, -, refused | high⟩
  · exact text
  · exact absurd refused (not_refused grants e)
  · exact absurd shallow (Nat.not_le.2 high)

/-- The sample's string of two characters, with quotes in twenty bytes. -/
theorem write_quoted_json_twoByte :
    ∃ body closing, JsonItems body ∧
      closing = ['\\', '"'].take ((Sample.transcript 20).buffer.left - 2 - body.length) ∧
      (3 ≤ (Sample.transcript 20).buffer.left → closing ≠ []) ∧
      (Sample.twoByte.write Sample.heap .json { quoted := true } (Sample.transcript 20)).2.buffer =
        (Sample.transcript 20).buffer.add (['\\', '"'] ++ body ++ closing) ∧
      Json.read? (String.ofList (['\\', '"'] ++ body ++ closing)) = none ∧
      ∃ content, Json.read? (String.ofList ('"' :: body ++ ['"'])) = some (.string content) :=
  write_quoted_json Sample.heap Sample.twoByte rfl (by decide) (Sample.transcript 20) (by decide)
    (by decide)

/-- The text between the quotes is written whole, and yet it does not stand between bare quotes. -/
theorem quoted_json_no_literal :
    (2 ≤ (Sample.transcript 20).buffer.left) ∧
    (Sample.twoByte.write Sample.heap .json { quoted := true }
      (Sample.transcript 20)).2.buffer.text = "\\\"?h\\\"" ∧
    ¬ ∃ body, JsonItems body ∧ '"' :: body ++ ['"'] = ['\\', '"', '?', 'h', '\\', '"'] := by
  refine ⟨by decide, ?_, ?_⟩
  · rw [buffer_write_of_quoted Sample.heap .json Sample.twoByte rfl (by decide) _ (by decide) rfl,
      play_twoByte _ _ (by decide) (by decide)]
    decide
  · rintro ⟨body, -, same⟩
    cases same

end HeapString

end Postmortem
