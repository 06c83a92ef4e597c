import Postmortem.Proofs.Json.Tokens

/-! # JSON texts of trees

The printer writes a tree as a sequence of pieces with commas between them (`Json.listed`), and the
reader finds the pieces again. So a tree is told from its text (`Json.Readable.read?_print`) if its
numbers are integers and its texts have content (`Json.Readable`). -/

namespace Postmortem.Json

/-! ## Pieces -/

/-- Pieces of text with commas between them, the first of them after `separator`. -/
def listed (separator : List Char) : List (List Char) → List Char
  | [] => []
  | piece :: rest => separator ++ piece ++ listed [','] rest

/-- The characters of a tree's text. -/
def chars (d : Data) : List Char := (print d).toList

/-- The characters of a field's text. -/
def fieldChars (field : Option String × Data) : List Char :=
  (quote field.1).toList ++ ':' :: chars field.2

mutual

theorem toList_printOn (out : String) : ∀ d : Data, (printOn out d).toList = out.toList ++ chars d
  | .null | .bool true | .bool false | .int _ | .float _ | .misnumber _ | .text _ => by
    simp [chars, print, printOn]
  | .array items => by
    simp [chars, print, printOn, toList_printItems _ _ items]
  | .record fields => by
    simp [chars, print, printOn, toList_printFields _ _ fields]

theorem toList_printItems (out separator : String) : ∀ items : List Data,
    (printItems out separator items).toList =
      out.toList ++ listed separator.toList (items.map chars)
  | [] => by simp [printItems, listed]
  | item :: rest => by
    simp [printItems, listed, toList_printItems _ _ rest, toList_printOn _ item]

theorem toList_printFields (out separator : String) : ∀ fields : List (Option String × Data),
    (printFields out separator fields).toList =
      out.toList ++ listed separator.toList (fields.map fieldChars)
  | [] => by simp [printFields, listed]
  | (name, value) :: rest => by
    simp [printFields, listed, fieldChars, toList_printFields _ _ rest, toList_printOn _ value]

end

/-! ## Trees with a text of their own -/

/-- The trees that can be told from their texts: all numbers are integers, and all texts have
content. -/
inductive Readable : Data → Prop where
  | null : Readable .null
  | bool (value : Bool) : Readable (.bool value)
  | int (value : Int) : Readable (.int value)
  | string (content : String) : Readable (.string content)
  | array {items : List Data} (each : ∀ item ∈ items, Readable item) : Readable (.array items)
  | record {fields : List (String × Data)} (each : ∀ field ∈ fields, Readable field.2) :
    Readable (.ofFields fields)

theorem chars_array (items : List Data) :
    chars (.array items) = '[' :: (listed [] (items.map chars) ++ [']']) := by
  simp [chars, print, printOn, toList_printItems]

theorem chars_ofFields (fields : List (String × Data)) :
    chars (.ofFields fields) =
      '\x7b' :: (listed [] (fields.map fun f => fieldChars (some f.1, f.2)) ++ ['\x7d']) := by
  simp [chars, print, printOn, toList_printFields, Data.ofFields, Function.comp_def]

theorem chars_string (content : String) :
    chars (.string content) = '"' :: (content.toList.flatMap escape ++ ['"']) := by
  simp [chars, print, printOn, Data.string, toList_quote]

theorem chars_ofNat (n : Nat) : chars (.int n) = Nat.toDigits 10 n := by
  simp [chars, print, printOn, Int.repr_eq_if]

theorem chars_negSucc (n : Nat) : chars (.int (.negSucc n)) = '-' :: Nat.toDigits 10 (n + 1) := by
  have negative : ¬ 0 ≤ Int.negSucc n := by simp
  simp [chars, print, printOn, Int.repr_eq_if, negative]

theorem fieldChars_some (name : String) (value : Data) :
    fieldChars (some name, value) =
      '"' :: (name.toList.flatMap escape ++ '"' :: ':' :: chars value) := by
  simp [fieldChars, toList_quote]

/-- The reader gives the tree back that was written, whatever comes after it. Twice as much fuel as
the text has characters is enough: every item and every field takes one step, and so does the value
in it. -/
def ReadsBack (d : Data) : Prop :=
  ∀ (fuel : Nat) (rest : List Char), 2 * (chars d).length ≤ fuel → Ends rest →
    value? fuel (chars d ++ rest) = some (d, rest)

/-! ## Where a piece begins -/

theorem skipBlanks_cons {c : Char} (visible : isBlank c = false) (rest : List Char) :
    skipBlanks (c :: rest) = c :: rest :=
  List.dropWhile_cons_of_neg (by simp [visible])

/-- The text begins with neither a blank nor the end of an array or a record. -/
def Begins (cs : List Char) : Prop :=
  ∃ c rest, cs = c :: rest ∧ isBlank c = false ∧ c ≠ ']' ∧ c ≠ '\x7d'

namespace Begins

variable {cs : List Char}

theorem append (begins : Begins cs) (more : List Char) : Begins (cs ++ more) := by
  obtain ⟨c, rest, rfl, visible⟩ := begins
  exact ⟨c, rest ++ more, rfl, visible⟩

theorem listed (begins : Begins cs) (pieces : List (List Char)) :
    Begins (listed [] (cs :: pieces)) :=
  begins.append _

theorem skipBlanks_eq (begins : Begins cs) : skipBlanks cs = cs := by
  obtain ⟨c, rest, rfl, visible, -⟩ := begins
  exact skipBlanks_cons visible rest

theorem length_pos (begins : Begins cs) : 0 < cs.length := by
  obtain ⟨c, rest, rfl, -⟩ := begins
  exact Nat.succ_pos _

theorem value?_array (begins : Begins cs) (fuel : Nat) :
    value? (fuel + 1) ('[' :: cs) = items? fuel [] cs := by
  rw [value?, begins.skipBlanks_eq]
  obtain ⟨c, rest, rfl, -, notEnd, -⟩ := begins
  split
  · rename_i same
    cases same
    exact absurd rfl notEnd
  · rfl

theorem value?_record (begins : Begins cs) (fuel : Nat) :
    value? (fuel + 1) ('\x7b' :: cs) = fields? fuel [] cs := by
  rw [value?, begins.skipBlanks_eq]
  obtain ⟨c, rest, rfl, -, -, notEnd⟩ := begins
  split
  · rename_i same
    cases same
    exact absurd rfl notEnd
  · rfl

end Begins

theorem begins_toDigits (n : Nat) : Begins (Nat.toDigits 10 n) := by
  obtain ⟨c, tail, same⟩ := List.exists_cons_of_ne_nil (Nat.toDigits_ne_nil (n := n) (b := 10))
  have digit : c.isDigit = true := isDigit_of_mem_toDigits (n := n) (same ▸ List.mem_cons_self)
  refine ⟨c, tail, same, ?_, ?_, ?_⟩
  · rw [← Bool.not_eq_true]
    intro blank
    simp only [isBlank, Bool.or_eq_true, beq_iff_eq] at blank
    rcases blank with ((rfl | rfl) | rfl) | rfl <;> exact absurd digit (by decide)
  all_goals
    rintro rfl
    exact absurd digit (by decide)

theorem begins_fieldChars (name : String) (value : Data) : Begins (fieldChars (some name, value)) :=
  ⟨'"', _, fieldChars_some name value, rfl, by decide, by decide⟩

theorem Readable.begins {d : Data} (readable : Readable d) : Begins (chars d) := by
  cases readable with
  | null => exact ⟨'n', _, rfl, rfl, by decide, by decide⟩
  | bool value => cases value <;> exact ⟨_, _, rfl, rfl, by decide, by decide⟩
  | int n =>
    cases n with
    | ofNat n =>
      rw [Int.ofNat_eq_natCast, chars_ofNat]
      exact begins_toDigits n
    | negSucc n => exact ⟨'-', _, chars_negSucc n, rfl, by decide, by decide⟩
  | string content => exact ⟨'"', _, chars_string content, rfl, by decide, by decide⟩
  | array each => exact ⟨'[', _, chars_array _, rfl, by decide, by decide⟩
  | record each => exact ⟨'\x7b', _, chars_ofFields _, rfl, by decide, by decide⟩

/-- There is fuel for a step wherever there is enough for the text. -/
theorem Readable.exists_eq_succ {d : Data} (readable : Readable d) {fuel : Nat}
    (enough : 2 * (chars d).length ≤ fuel) : ∃ less, fuel = less + 1 := by
  have := readable.begins.length_pos
  exact Nat.exists_eq_succ_of_ne_zero (by omega)

/-! ## Items and fields -/

theorem listed_singleton (piece : List Char) : listed [] [piece] = piece := by
  simp [listed]

theorem listed_cons (piece next : List Char) (rest : List (List Char)) :
    listed [] (piece :: next :: rest) = piece ++ ',' :: listed [] (next :: rest) := by
  simp [listed]

theorem items?_end {item : Data} (reads : ReadsBack item) (done : List Data) {fuel : Nat}
    (rest : List Char) (enough : 2 * (chars item).length ≤ fuel) :
    items? (fuel + 1) done (chars item ++ ']' :: rest) =
      some (.array (item :: done).reverse, rest) := by
  rw [items?, reads fuel _ enough (.cons _ (.inr (.inl rfl)))]
  rfl

theorem items?_comma {item : Data} (reads : ReadsBack item) (done : List Data) {fuel : Nat}
    {rest : List Char} (enough : 2 * (chars item).length ≤ fuel) (begins : Begins rest) :
    items? (fuel + 1) done (chars item ++ ',' :: rest) = items? fuel (item :: done) rest := by
  have next : items? (fuel + 1) done (chars item ++ ',' :: rest) =
      items? fuel (item :: done) (skipBlanks rest) := by
    rw [items?, reads fuel _ enough (.cons _ (.inl rfl))]
    rfl
  rw [next, begins.skipBlanks_eq]

/-- The items of an array are read back one after the other. -/
theorem items?_listed {item : Data} {items : List Data}
    (each : ∀ d ∈ item :: items, Readable d ∧ ReadsBack d) (done : List Data) {fuel : Nat}
    (rest : List Char) (enough : 2 * (listed [] ((item :: items).map chars)).length < fuel) :
    items? fuel done (listed [] ((item :: items).map chars) ++ ']' :: rest) =
      some (.array (done.reverse ++ item :: items), rest) := by
  obtain ⟨-, reads⟩ := each item (.head _)
  obtain ⟨fuel, rfl⟩ := Nat.exists_eq_succ_of_ne_zero (Nat.ne_zero_of_lt enough)
  -- The fuel falls by one with every item, and the text by the item and its comma.
  induction items generalizing item done fuel with
  | nil =>
    rw [List.map_singleton, listed_singleton] at enough ⊢
    rw [items?_end reads done rest (by omega), List.reverse_cons]
  | cons next more ih =>
    obtain ⟨readable, reads'⟩ := each next (.tail _ (.head _))
    have begins := (readable.begins.listed (more.map chars)).append (']' :: rest)
    rw [List.map_cons, List.map_cons, listed_cons] at enough ⊢
    simp only [List.length_append, List.length_cons] at enough
    obtain ⟨fuel, rfl⟩ := Nat.exists_eq_succ_of_ne_zero (show fuel ≠ 0 by omega)
    have others := ih (fun d mem => each d (.tail _ mem)) (item :: done) reads' fuel
      (by rw [List.map_cons]; omega)
    rw [List.append_assoc, List.cons_append, items?_comma reads done (by omega) begins]
    exact others.trans (by simp)

theorem fields?_end {value : Data} (readable : Readable value) (reads : ReadsBack value)
    (name : String) (done : List (Option String × Data)) {fuel : Nat} (rest : List Char)
    (enough : 2 * (chars value).length ≤ fuel) :
    fields? (fuel + 1) done (fieldChars (some name, value) ++ '\x7d' :: rest) =
      some (.record ((some name, value) :: done).reverse, rest) := by
  have colon := skipBlanks_cons (c := ':') rfl
  have brace := skipBlanks_cons (c := '\x7d') rfl
  have begins := readable.begins.append ('\x7d' :: rest)
  have read := reads fuel ('\x7d' :: rest) enough (.cons _ (.inr (.inr rfl)))
  rw [fieldChars_some, List.cons_append, List.append_assoc, fields?, List.cons_append, text?_quote]
  simp only [List.cons_append, colon, begins.skipBlanks_eq, read, brace]

theorem fields?_comma {value : Data} (readable : Readable value) (reads : ReadsBack value)
    (name : String) (done : List (Option String × Data)) {fuel : Nat} {rest : List Char}
    (enough : 2 * (chars value).length ≤ fuel) (begins : Begins rest) :
    fields? (fuel + 1) done (fieldChars (some name, value) ++ ',' :: rest) =
      fields? fuel ((some name, value) :: done) rest := by
  have colon := skipBlanks_cons (c := ':') rfl
  have comma := skipBlanks_cons (c := ',') rfl
  have begins' := readable.begins.append (',' :: rest)
  have read := reads fuel (',' :: rest) enough (.cons _ (.inl rfl))
  rw [fieldChars_some, List.cons_append, List.append_assoc, fields?, List.cons_append, text?_quote]
  simp only [List.cons_append, colon, begins'.skipBlanks_eq, read, comma, begins.skipBlanks_eq]

/-- The fields of a record are read back one after the other. -/
theorem fields?_listed {field : String × Data} {fields : List (String × Data)}
    (each : ∀ f ∈ field :: fields, Readable f.2 ∧ ReadsBack f.2)
    (done : List (Option String × Data)) {fuel : Nat} (rest : List Char) :
    let pieces := (field :: fields).map fun f => fieldChars (some f.1, f.2)
    2 * (listed [] pieces).length < fuel →
      fields? fuel done (listed [] pieces ++ '\x7d' :: rest) =
        some (.record (done.reverse ++ (field :: fields).map fun f => (some f.1, f.2)), rest) := by
  intro pieces enough
  have short (f : String × Data) : (chars f.2).length ≤ (fieldChars (some f.1, f.2)).length := by
    rw [fieldChars_some]
    simp only [List.length_cons, List.length_append]
    omega
  obtain ⟨readable, reads⟩ := each field (.head _)
  have := short field
  obtain ⟨fuel, rfl⟩ := Nat.exists_eq_succ_of_ne_zero (Nat.ne_zero_of_lt enough)
  induction fields generalizing field done fuel with
  | nil =>
    simp only [pieces, List.map_cons, List.map_nil, listed_singleton] at enough ⊢
    rw [fields?_end readable reads field.1 done rest (by omega), List.reverse_cons]
  | cons next more ih =>
    obtain ⟨readable', reads'⟩ := each next (.tail _ (.head _))
    have begins := ((begins_fieldChars next.1 next.2).listed
      (more.map fun f => fieldChars (some f.1, f.2))).append ('\x7d' :: rest)
    simp only [pieces, List.map_cons, listed_cons, List.length_append, List.length_cons] at enough ⊢
    obtain ⟨fuel, rfl⟩ := Nat.exists_eq_succ_of_ne_zero (show fuel ≠ 0 by omega)
    have others := ih (fun f mem => each f (.tail _ mem)) ((some field.1, field.2) :: done)
      readable' reads' (short next) fuel (by rw [List.map_cons]; omega)
    rw [List.append_assoc, List.cons_append,
      fields?_comma readable reads field.1 done (by omega) begins]
    exact others.trans (by simp)

/-! ## Trees -/

theorem readsBack_int (n : Int) : ReadsBack (.int n) := by
  intro fuel rest enough ends
  obtain ⟨fuel, rfl⟩ := (Readable.int n).exists_eq_succ enough
  cases n with
  | ofNat n =>
    have number := number?_toDigits false n ends (by simp)
    obtain ⟨c, tail, same⟩ := List.exists_cons_of_ne_nil (Nat.toDigits_ne_nil (n := n) (b := 10))
    have digit : c.isDigit = true := isDigit_of_mem_toDigits (n := n) (same ▸ List.mem_cons_self)
    rw [Int.ofNat_eq_natCast, chars_ofNat]
    rw [same] at number ⊢
    exact (value?_digit digit).trans number
  | negSucc n =>
    have number := number?_toDigits true (n + 1) ends (by simp)
    rw [chars_negSucc, List.cons_append, value?, number]
    rfl

theorem readsBack_string (content : String) : ReadsBack (.string content) := by
  intro fuel rest enough _
  obtain ⟨fuel, rfl⟩ := (Readable.string content).exists_eq_succ enough
  rw [chars_string, List.cons_append, List.append_assoc, value?, List.singleton_append, text?_quote]
  rfl

theorem readsBack_array {items : List Data}
    (each : ∀ item ∈ items, Readable item ∧ ReadsBack item) : ReadsBack (.array items) := by
  intro fuel rest enough _
  rw [chars_array] at enough ⊢
  simp only [List.length_cons, List.length_append] at enough
  obtain ⟨fuel, rfl⟩ := Nat.exists_eq_succ_of_ne_zero (show fuel ≠ 0 by omega)
  cases items with
  | nil => rfl
  | cons item items =>
    obtain ⟨readable, -⟩ := each item (.head _)
    have begins := (readable.begins.listed (items.map chars)).append (']' :: rest)
    rw [List.cons_append, List.append_assoc, List.singleton_append, List.map_cons,
      begins.value?_array]
    exact items?_listed each [] rest (by omega)

theorem readsBack_record {fields : List (String × Data)}
    (each : ∀ field ∈ fields, Readable field.2 ∧ ReadsBack field.2) :
    ReadsBack (.ofFields fields) := by
  intro fuel rest enough _
  rw [chars_ofFields] at enough ⊢
  simp only [List.length_cons, List.length_append] at enough
  obtain ⟨fuel, rfl⟩ := Nat.exists_eq_succ_of_ne_zero (show fuel ≠ 0 by omega)
  cases fields with
  | nil => rfl
  | cons field fields =>
    have begins := ((begins_fieldChars field.1 field.2).listed
      (fields.map fun f => fieldChars (some f.1, f.2))).append ('\x7d' :: rest)
    rw [List.cons_append, List.append_assoc, List.singleton_append, List.map_cons,
      begins.value?_record]
    exact fields?_listed each [] rest (by omega)

/-- **What is written of a readable tree is read back.** -/
theorem Readable.readsBack {d : Data} (readable : Readable d) : ReadsBack d := by
  induction readable with
  | null =>
    intro fuel rest enough _
    obtain ⟨fuel, rfl⟩ := Readable.null.exists_eq_succ enough
    rfl
  | bool value =>
    intro fuel rest enough _
    obtain ⟨fuel, rfl⟩ := (Readable.bool value).exists_eq_succ enough
    cases value <;> rfl
  | int n => exact readsBack_int n
  | string content => exact readsBack_string content
  | array each ih => exact readsBack_array fun item mem => ⟨each item mem, ih item mem⟩
  | record each ih => exact readsBack_record fun field mem => ⟨each field mem, ih field mem⟩

/-- **The text of a readable tree is read back whole.** -/
theorem Readable.read?_print {d : Data} (readable : Readable d) : read? (print d) = some d := by
  have begins := (readable.begins.append []).skipBlanks_eq
  have reads := readable.readsBack (2 * (chars d).length + 2) [] (by omega) .nil
  rw [List.append_nil] at begins reads
  rw [read?, ← chars, begins]
  simp only [reads]
  rfl

end Postmortem.Json
