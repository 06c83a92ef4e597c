import Postmortem.Layout.Text
import Postmortem.Proofs.Json.RoundTrip

/-! # Layouts written and read back

Every part of a layout is written as a tree that gives the part back when it is read
(`Data.Faithful`): numbers as wide as they are, absent entries as the absent value, and the two
levels of the offsets with all of their names. So the tree of a layout gives back the layout
(`Layout.faithful`), and a JSON text of the tree is accepted exactly if the layout is valid
(`Layout.ofJson_of_read`). -/

namespace Postmortem

open Data

theorem bind_of_eq_some {α β : Type} {value : Option α} {a : α} (h : value = some a)
    (next : α → Option β) : value >>= next = next a := by
  rw [h]
  rfl

namespace Data

/-- What is written of a value is not the absent value, it can be told from its JSON text, and
reading it gives the value back. -/
structure Faithful {α : Type} (read : Data → Option α) (write : α → Data) : Prop where
  ne_null : ∀ a, write a ≠ .null
  readable : ∀ a, Json.Readable (write a)
  read_write : ∀ a, read (write a) = some a

/-! ## Values -/

theorem readable_nat (n : Nat) : Json.Readable (nat n) := .int n

theorem natUpTo?_nat {n greatest : Nat} (fits : n ≤ greatest) :
    (nat n).natUpTo? greatest = some n := by
  rw [nat, natUpTo?, if_pos ⟨Int.natCast_nonneg n, Int.ofNat_le.2 fits⟩, Int.toNat_natCast]

theorem faithful_word? : Faithful word? (.nat ·.toNat) where
  ne_null w absent := by cases absent
  readable w := readable_nat w.toNat
  read_write w := by
    rw [word?, natUpTo?_nat (Nat.le_of_lt_succ w.toNat_lt), Option.map_some, UInt64.ofNat_toNat]

theorem faithful_halfWord? : Faithful halfWord? (.nat ·.toNat) where
  ne_null w absent := by cases absent
  readable w := readable_nat w.toNat
  read_write w := by
    rw [halfWord?, natUpTo?_nat (Nat.le_of_lt_succ w.toNat_lt), Option.map_some,
      UInt32.ofNat_toNat]

theorem faithful_byte? : Faithful byte? (.nat ·.toNat) where
  ne_null w absent := by cases absent
  readable w := readable_nat w.toNat
  read_write w := by
    rw [byte?, natUpTo?_nat (Nat.le_of_lt_succ w.toNat_lt), Option.map_some, UInt8.ofNat_toNat]

theorem faithful_string? : Faithful string? .string where
  ne_null content absent := by cases absent
  readable content := .string content
  read_write _ := rfl

/-! ## Fields -/

namespace Faithful

variable {α : Type} {read : Data → Option α} {write : α → Data} {fields : List (String × Data)}
  {name : String}

theorem required (faithful : Faithful read write) {a : α}
    (found : fields.lookup name = some (write a)) : required read fields name = some a := by
  rw [Data.required, found]
  exact faithful.read_write a

theorem defaulted (faithful : Faithful read write) {a default : α}
    (found : fields.lookup name = some (write a)) :
    defaulted read fields name default = some a := by
  rw [Data.defaulted, found]
  exact faithful.read_write a

theorem optional (faithful : Faithful read write) {o : Option α}
    (found : fields.lookup name = some (ofOption write o)) :
    optional read fields name = some o := by
  rw [Data.optional, found]
  cases o with
  | none => rfl
  | some a =>
    split
    · rename_i absent
      cases absent
    · rename_i null
      exact absurd (Option.some.inj null) (faithful.ne_null a)
    · rename_i d _ same
      cases same
      rw [ofOption, faithful.read_write a]
      rfl

theorem readable_ofOption (faithful : Faithful read write) (o : Option α) :
    Json.Readable (ofOption write o) := by
  cases o with
  | none => exact .null
  | some a => exact faithful.readable a

end Faithful

/-- All names of the fields have content. -/
theorem mapM_some_fields (fields : List (String × Data)) :
    (fields.map fun field => (some field.1, field.2)).mapM
      (fun field : Option String × Data => field.1.map (·, field.2)) = some fields := by
  induction fields with
  | nil => rfl
  | cons field fields ih => simp [ih]

/-- A record with just the fields of its type gives them back. -/
theorem fields?_ofFields (surplus : Surplus) (names : List String)
    {fields : List (String × Data)} (named : fields.map Prod.fst = names) (nodup : names.Nodup) :
    (ofFields fields).fields? surplus names = some fields := by
  subst named
  have mem {field : String × Data} (there : field ∈ fields) :
      (fields.map Prod.fst).contains field.1 = true :=
    List.contains_iff_mem.2 (List.mem_map_of_mem there)
  have known : fields.filter (fun field => (fields.map Prod.fst).contains field.1) = fields :=
    List.filter_eq_self.2 fun _ => mem
  have sound : (fields.all fun field =>
      (fields.map Prod.fst).contains field.1 || field.2.isSound) = true :=
    List.all_eq_true.2 fun _ there => by rw [mem there, Bool.true_or]
  rw [ofFields, fields?, bind_of_eq_some (mapM_some_fields fields)]
  dsimp only
  rw [known, sound, if_pos ⟨nodup, rfl⟩]

end Data

/-! ## Maps -/

namespace NameMap

variable {α : Type}

theorem put_of_not_mem {name : String} {value : α} {entries : List (String × α)}
    (fresh : name ∉ entries.map Prod.fst) :
    put name value entries = entries ++ [(name, value)] := by
  induction entries with
  | nil => rfl
  | cons entry rest ih =>
    rw [List.map_cons, List.mem_cons, not_or] at fresh
    rw [put, if_neg (Ne.symm fresh.1), ih fresh.2, List.cons_append]

theorem entries_foldl_insert {m : NameMap α} {entries : List (String × α)}
    (nodup : ((m.entries ++ entries).map Prod.fst).Nodup) :
    (entries.foldl (fun m entry => m.insert entry.1 entry.2) m).entries = m.entries ++ entries := by
  induction entries generalizing m with
  | nil => exact (List.append_nil _).symm
  | cons entry rest ih =>
    have fresh : entry.1 ∉ m.entries.map Prod.fst := by
      rw [List.map_append, List.map_cons] at nodup
      exact fun mem => (List.nodup_append.1 nodup).2.2 _ mem _ (.head _) rfl
    have inserted : (m.insert entry.1 entry.2).entries = m.entries ++ [entry] :=
      put_of_not_mem fresh
    have nodup' : (((m.insert entry.1 entry.2).entries ++ rest).map Prod.fst).Nodup := by
      rwa [inserted, List.append_assoc]
    rw [List.foldl_cons, ih nodup', inserted, List.append_assoc, List.singleton_append]

theorem eq_of_entries_eq {m m' : NameMap α} (same : m.entries = m'.entries) : m = m' := by
  cases m
  cases m'
  cases same
  rfl

/-- The entries of a map make up the map. -/
theorem ofList_entries (m : NameMap α) : ofList m.entries = m :=
  eq_of_entries_eq (entries_foldl_insert (m := empty) m.nodup)

theorem faithful {read : Data → Option α} {write : α → Data} (faithful : Faithful read write) :
    Faithful (ofData? read) (toData write) where
  ne_null m absent := by cases absent
  readable m := by
    refine .record fun field mem => ?_
    obtain ⟨entry, -, rfl⟩ := List.mem_map.1 mem
    exact faithful.readable entry.2
  read_write m := by
    have each (entries : List (String × α)) :
        ((entries.map fun entry => (entry.1, write entry.2)).map fun field =>
          (some field.1, field.2)).mapM
          (fun field : Option String × Data => do return (← field.1, ← read field.2)) =
        some entries := by
      induction entries with
      | nil => rfl
      | cons entry rest ih =>
        rw [List.map_cons, List.map_cons, List.mapM_cons]
        simp only [faithful.read_write]
        rw [ih]
        rfl
    rw [toData, ofFields, ofData?, bind_of_eq_some (each m.entries), ofList_entries]
    rfl

end NameMap

/-! ## Records

Each record is read field by field, in the order in which its type names the fields. -/

namespace TagScheme

theorem faithful (surplus : Surplus) : Faithful (ofData? surplus) toData where
  ne_null t absent := by cases absent
  readable t := .record (by simp [readable_nat, faithful_word?.readable_ofOption])
  read_write t := by
    rw [ofData?, toData, bind_of_eq_some (fields?_ofFields surplus fieldNames rfl (by decide))]
    iterate 5 rw [bind_of_eq_some (faithful_word?.required rfl)]
    iterate 2 rw [bind_of_eq_some (faithful_halfWord?.required rfl)]
    iterate 2 rw [bind_of_eq_some (faithful_word?.optional rfl)]
    rfl

end TagScheme

namespace StringTags

theorem faithful (surplus : Surplus) : Faithful (ofData? surplus) toData where
  ne_null s absent := by cases absent
  readable s := .record (by simp [readable_nat, faithful_byte?.readable_ofOption])
  read_write s := by
    rw [ofData?, toData, bind_of_eq_some (fields?_ofFields surplus fieldNames rfl (by decide))]
    iterate 3 rw [bind_of_eq_some (faithful_byte?.required rfl)]
    -- The two tags of one-byte strings stand in the middle.
    iterate 2 rw [bind_of_eq_some (faithful_byte?.optional rfl)]
    iterate 5 rw [bind_of_eq_some (faithful_byte?.required rfl)]
    rfl

end StringTags

namespace TypeBytes

theorem faithful (surplus : Surplus) : Faithful (ofData? surplus) toData where
  ne_null t absent := by cases absent
  readable t := .record (by
    simp [faithful_byte?.readable_ofOption, (StringTags.faithful surplus).readable_ofOption])
  read_write t := by
    rw [ofData?, toData, bind_of_eq_some (fields?_ofFields surplus fieldNames rfl (by decide))]
    iterate 5 rw [bind_of_eq_some (faithful_byte?.optional rfl)]
    rw [bind_of_eq_some ((StringTags.faithful surplus).optional rfl)]
    rfl

end TypeBytes

namespace ContextIndices

theorem faithful (surplus : Surplus) : Faithful (ofData? surplus) toData where
  ne_null c absent := by cases absent
  readable c := .record (by simp [faithful_word?.readable_ofOption])
  read_write c := by
    rw [ofData?, toData, bind_of_eq_some (fields?_ofFields surplus fieldNames rfl (by decide))]
    iterate 5 rw [bind_of_eq_some (faithful_word?.optional rfl)]
    rfl

end ContextIndices

namespace ScopeInfoIndices

theorem faithful (surplus : Surplus) : Faithful (ofData? surplus) toData where
  ne_null s absent := by cases absent
  readable s := .record (by simp [faithful_word?.readable_ofOption])
  read_write s := by
    rw [ofData?, toData, bind_of_eq_some (fields?_ofFields surplus fieldNames rfl (by decide))]
    iterate 5 rw [bind_of_eq_some (faithful_word?.optional rfl)]
    rfl

end ScopeInfoIndices

namespace Limits

theorem faithful (surplus : Surplus) : Faithful (ofData? surplus) toData where
  ne_null l absent := by cases absent
  readable l := .record (by simp [readable_nat])
  read_write l := by
    rw [ofData?, toData, bind_of_eq_some (fields?_ofFields surplus fieldNames rfl (by decide))]
    iterate 2 rw [bind_of_eq_some (faithful_word?.defaulted rfl)]
    rfl

end Limits

/-! ## Layouts -/

/-- The two levels of the offsets. -/
theorem faithful_offsets :
    Faithful (NameMap.ofData? (NameMap.ofData? word?))
      (NameMap.toData (NameMap.toData (.nat ·.toNat))) :=
  NameMap.faithful (NameMap.faithful faithful_word?)

namespace Layout

theorem faithful (surplus : Surplus) : Faithful (ofData? surplus) toData where
  ne_null l absent := by cases absent
  readable l := .record (by
    simp [faithful_string?.readable_ofOption, (TagScheme.faithful surplus).readable,
      (TypeBytes.faithful surplus).readable, (ContextIndices.faithful surplus).readable,
      (ScopeInfoIndices.faithful surplus).readable, faithful_offsets.readable,
      (Limits.faithful surplus).readable])
  read_write l := by
    rw [ofData?, toData, bind_of_eq_some (fields?_ofFields surplus fieldNames rfl (by decide)),
      bind_of_eq_some (faithful_string?.optional rfl),
      bind_of_eq_some ((TagScheme.faithful surplus).required rfl),
      bind_of_eq_some ((TypeBytes.faithful surplus).defaulted rfl),
      bind_of_eq_some ((ContextIndices.faithful surplus).defaulted rfl),
      bind_of_eq_some ((ScopeInfoIndices.faithful surplus).defaulted rfl),
      bind_of_eq_some (faithful_offsets.defaulted rfl),
      bind_of_eq_some ((Limits.faithful surplus).defaulted rfl)]
    rfl

variable {l : Layout}

theorem checked_eq_ok_iff : l.checked = .ok l ↔ l.Valid := by
  unfold checked Valid
  cases l.flaw? <;> simp

theorem checked_of_not_valid (flawed : ¬ l.Valid) :
    ∃ flaw, l.flaw? = some flaw ∧ l.checked = .error (.invalid flaw) := by
  obtain ⟨flaw, found⟩ := Option.ne_none_iff_exists'.1 flawed
  exact ⟨flaw, found, by rw [checked, found]⟩

/-- The check is all that stands between a text of the layout's tree and the layout. -/
theorem ofJson_of_read {text : String} (read : Json.read? text = some l.toData) :
    ofJson text = l.checked := by
  rw [ofJson, read]
  dsimp only
  rw [ofJsonData, (faithful .refused).read_write l]

/-- **A layout is given back by what is written of it.** The layout may be any: its tags as large as
their words are, any of its entries absent, the names of its offsets any texts in any order, and
classes without fields among them. Its tree gives the layout, and the tree can be told from its
printed text. Every JSON text of the tree gives the layout if and only if it is valid, and otherwise
says what is wrong with it. -/
theorem given_back (l : Layout) :
    (∀ surplus, ofData? surplus l.toData = some l) ∧
    Json.read? (Json.print l.toData) = some l.toData ∧
    ∀ text, Json.read? text = some l.toData →
      (ofJson text = .ok l ↔ l.Valid) ∧
      (¬ l.Valid → ∃ flaw, l.flaw? = some flaw ∧ ofJson text = .error (.invalid flaw)) := by
  refine ⟨fun surplus => ?tree, ?printed, fun text read => ⟨?valid, fun flawed => ?flawed⟩⟩
  case tree => exact (faithful surplus).read_write l
  case printed => exact ((faithful .refused).readable l).read?_print
  case valid => rw [ofJson_of_read read, checked_eq_ok_iff]
  case flawed =>
    rw [ofJson_of_read read]
    exact checked_of_not_valid flawed

end Layout

/-! ## A sample -/

/-- A layout with the greatest tags, a name to escape and a class without fields, for words of the
given size. -/
def Sample.written (pointerSize : UInt64) : Layout where
  version := some "\"x64\" \\ 5\n"
  tags :=
    { pointerSize, pointerTag := 1, pointerMask := 0xffffffffffffffff, smallIntTag := 0,
      smallIntMask := 1, valueShift := 1, paddingShift := 0, failureTag := some 3,
      failureMask := some 0xffffffffffffffff }
  types := { TypeBytes.none with array := some 0xff }
  context := { ContextIndices.none with common := some 0 }
  scopeInfo := .none
  offsets := .ofList [("Map", ∅), ("Script", .ofList [("name", 8), ("", 0xffffffffffffffff)])]
  limits := { maxAllocation := 0 }

/-- The sample is given back for words of eight bytes, and refused for words of three. -/
theorem Layout.given_back_written :
    Layout.ofJson (Json.print (Sample.written 8).toData) = .ok (Sample.written 8) ∧
    Layout.ofJson (Json.print (Sample.written 3).toData) = .error (.invalid (.pointerSize 3)) := by
  obtain ⟨-, printed, texts⟩ := given_back (Sample.written 8)
  obtain ⟨-, printed', texts'⟩ := given_back (Sample.written 3)
  refine ⟨(texts _ printed).1.2 (by decide), ?_⟩
  obtain ⟨flaw, found, refused⟩ := (texts' _ printed').2 (by decide)
  cases found
  exact refused

end Postmortem
