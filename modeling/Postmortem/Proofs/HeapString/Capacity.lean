import Postmortem.Proofs.HeapString.Script
import Postmortem.Proofs.HeapString.Tree

/-! # Less room

A string is written to two buffers, the first with no more room than the second. What the first one
gets is what the second one gets, cut short: a prefix of it and then a piece of the truncation
marker (`Outcome.CutShort`, `play_cutShort`). Both writings take the same course until the first
buffer is full. That holds of every heap, since it holds of every script.

The one step at which the courses part and both go on is a placeholder that fits the second buffer
only. It leaves the first one full, and from then on nothing is added to that one
(`text_play_zero`). -/

namespace Postmortem

/-! ## What fits -/

theorem utf8Length_take_le {text : List Char} (h : ∀ c ∈ text, Plain c) (room : Nat) :
    utf8Length (text.take room) ≤ room := by
  rw [utf8Length_eq_length fun c hc => (h c (List.mem_of_mem_take hc)).utf8Size]
  exact List.length_take_le room text

theorem utf8Length_perform_le (mode : EscapeMode) (room : Nat) (action : Action) :
    utf8Length (action.perform mode room).text ≤ room := by
  cases action with
  | gate | log | fail => exact Nat.zero_le room
  | placeholder p => exact utf8Length_take_le p.plain_text room
  | write unit =>
    rw [Action.perform]
    split
    · exact utf8Length_take_le plain_truncationMarker room
    · rename_i more
      exact Nat.le_trans (mode.utf8Length_escape_le unit)
        (Nat.le_trans (by decide) (Nat.le_of_not_le more))

theorem utf8Length_play_le (mode : EscapeMode) (room : Nat) (script : List Action) :
    utf8Length (play mode room script).text ≤ room := by
  induction script generalizing room with
  | nil => exact Nat.zero_le room
  | cons action script ih =>
    have first := utf8Length_perform_le mode room action
    have rest := ih (room - utf8Length (action.perform mode room).text)
    simp only [play, Outcome.append]
    split
    · rw [utf8Length_append]
      omega
    · exact first

theorem text_play_zero (mode : EscapeMode) (script : List Action) :
    (play mode 0 script).text = [] :=
  eq_nil_of_utf8Length (utf8Length_play_le mode 0 script)

/-! ## Two courses of one script -/

/-- The first outcome is the second one cut short: its text is a prefix of the other text, with a
piece of the truncation marker after it; the events are a prefix of the other events; and if it is a
failure, the second one is the same failure. -/
structure Outcome.CutShort (o o' : Outcome) : Prop where
  text : ∃ kept marker, o.text = kept ++ marker ∧ kept <+: o'.text ∧
    marker <+: truncationMarker.toList
  events : o.events <+: o'.events
  failure : ∀ e, o.ending = .failed e → o'.ending = .failed e

namespace Outcome.CutShort

theorem refl (o : Outcome) : o.CutShort o where
  text := ⟨o.text, [], by simp, List.prefix_rfl, List.nil_prefix⟩
  events := List.prefix_rfl
  failure _ h := h

/-- The first writing is broken off for want of room after a piece of the marker. -/
theorem of_full {marker : List Char} (h : marker <+: truncationMarker.toList) (o : Outcome) :
    CutShort { ending := .full, text := marker } o where
  text := ⟨[], marker, rfl, List.nil_prefix, h⟩
  events := List.nil_prefix
  failure _ h := by cases h

/-- Both writings have added a text before. -/
theorem append {text : List Char} {events : List TraceEvent} {o o' : Outcome} (h : o.CutShort o') :
    (Outcome.append { ending := .finished, text, events } o).CutShort
      (Outcome.append { ending := .finished, text, events } o') := by
  obtain ⟨⟨kept, marker, same, before, cut⟩, events', failure⟩ := h
  refine ⟨⟨text ++ kept, marker, ?_, ?_, cut⟩, ?_, failure⟩
  · simp [Outcome.append, same]
  · exact (List.prefix_append_right_inj text).2 before
  · exact (List.prefix_append_right_inj events).2 events'

/-- Both writings have added a text before, of which the first one filled its buffer. -/
theorem append_full {text text' : List Char} (before : text <+: text') {o o' : Outcome}
    (h : o.CutShort o') (full : o.text = []) :
    (Outcome.append { ending := .finished, text } o).CutShort
      (Outcome.append { ending := .finished, text := text' } o') := by
  obtain ⟨-, events, failure⟩ := h
  refine ⟨⟨text, [], ?_, ?_, List.nil_prefix⟩, ?_, failure⟩
  · simp [Outcome.append, full]
  · exact before.trans (List.prefix_append text' o'.text)
  · simpa [Outcome.append] using events

end Outcome.CutShort

/-- **With less room a script has the same outcome, cut short.** -/
theorem play_cutShort (mode : EscapeMode) {room room' : Nat} (h : room ≤ room')
    (script : List Action) : (play mode room script).CutShort (play mode room' script) := by
  induction script generalizing room room' with
  | nil => exact .refl _
  | cons action script ih =>
    rw [play, play]
    cases action with
    | gate =>
      by_cases noRoom : room = 0
      · rw [Action.perform, if_pos noRoom]
        exact .of_full List.nil_prefix _
      · rw [Action.perform, if_neg noRoom, Action.perform, if_neg (by omega)]
        exact (ih h).append
    | log event => exact (ih h).append
    | fail e => exact .refl _
    | write unit =>
      by_cases short : room ≤ truncationMarker.utf8ByteSize
      · rw [Action.perform, if_pos short]
        exact .of_full (List.take_prefix _ _) _
      · rw [Action.perform, if_neg short, Action.perform, if_neg (by omega)]
        exact (ih (Nat.sub_le_sub_right h _)).append
    | placeholder p =>
      by_cases fits : p.text.toList.length ≤ room
      · rw [Action.perform, List.take_of_length_le fits, Action.perform,
          List.take_of_length_le (Nat.le_trans fits h)]
        exact (ih (Nat.sub_le_sub_right h _)).append
      · have filled : room - utf8Length (p.text.toList.take room) = 0 := by
          rw [utf8Length_eq_length fun c hc => (p.plain_text c (List.mem_of_mem_take hc)).utf8Size,
            List.length_take]
          omega
        simp only [Action.perform, filled]
        exact (ih (Nat.zero_le _)).append_full (List.take_prefix_take_left h)
          (text_play_zero mode script)

/-! ## Two writings of one string -/

/-- **Less room cuts the writing of a string short.** A string is written without quotes to two
buffers, the first with no more room than the second, all else equal. What is added to the first
one is a prefix `kept` of what is added to the second one, and then a piece of the truncation
marker; if the first writing fails, the second one fails with the same error; and the strings that
the first one visits are the first that the second one visits. -/
theorem write_of_less_room (s : Snapshot) (mode : EscapeMode) (h : HeapString) {o : WriteOptions}
    (unquoted : o.quoted = false) (t : Transcript) {small large : TextBuffer}
    (room : small.left ≤ large.left) :
    (∃ kept marker rest : List Char,
      (h.write s mode o { t with buffer := small }).2.buffer.text =
        small.text ++ String.ofList (kept ++ marker) ∧
      (h.write s mode o { t with buffer := large }).2.buffer.text =
        large.text ++ String.ofList (kept ++ rest) ∧
      marker <+: truncationMarker.toList) ∧
    (∀ e, (h.write s mode o { t with buffer := small }).1 = .error e →
      (h.write s mode o { t with buffer := large }).1 = .error e) ∧
    (h.write s mode o { t with buffer := small }).2.visits <+:
      (h.write s mode o { t with buffer := large }).2.visits := by
  simp only [h.write_eq_run s mode unquoted]
  have course := play_cutShort mode room (h.script s t.budget o.depth)
  refine ⟨?_, fun e failed => ?_, ?_⟩
  · obtain ⟨kept, marker, same, ⟨rest, more⟩, cut⟩ := course.text
    refine ⟨kept, marker, rest, ?_, ?_, cut⟩
    · rw [← same]; rfl
    · rw [more]; rfl
  · exact Ending.result_eq_error.2 (course.failure e (Ending.result_eq_error.1 failed))
  · rw [run, run, Outcome.visits_applyTo, Outcome.visits_applyTo]
    exact (List.prefix_append_right_inj _).2 (course.events.filterMap _)

/-- The sample's concatenation in nine bytes and in twenty. -/
theorem write_joined_of_less_room :
    (∃ kept marker rest : List Char,
      (Sample.joined.write Sample.heap .raw {} (Sample.transcript 9)).2.buffer.text =
        "" ++ String.ofList (kept ++ marker) ∧
      (Sample.joined.write Sample.heap .raw {} (Sample.transcript 20)).2.buffer.text =
        "" ++ String.ofList (kept ++ rest) ∧
      marker <+: truncationMarker.toList) ∧
    (∀ e, (Sample.joined.write Sample.heap .raw {} (Sample.transcript 9)).1 = .error e →
      (Sample.joined.write Sample.heap .raw {} (Sample.transcript 20)).1 = .error e) ∧
    (Sample.joined.write Sample.heap .raw {} (Sample.transcript 9)).2.visits <+:
      (Sample.joined.write Sample.heap .raw {} (Sample.transcript 20)).2.visits :=
  write_of_less_room Sample.heap .raw Sample.joined rfl (Sample.transcript 20)
    (show (TextBuffer.ofCapacity 9).left ≤ (TextBuffer.ofCapacity 20).left by decide)

end Postmortem
