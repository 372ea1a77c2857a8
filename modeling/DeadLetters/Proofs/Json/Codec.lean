import DeadLetters.Proofs.Json.Records
import DeadLetters.Proofs.Json.Typed

/-!
# Typed values that are written and read again

A schema is exact if its values can be told from their text: no doubles, which may come back as
other ones, and no `null` that could stand for two values.  A value of an exact schema is written as
one JSON value, which the schema accepts as the value it was written for; and the readers of all
schemas make of a printed value what the schema accepts.  A record of exact fields with distinct
names then comes back from its text, and so does whatever the record was read as from another text.

    schema.accept (schema.written a) = some a                                  (accept_written)
    (schema.reader d).run (v.chars ++ r) agrees with schema.accept v            (reads_printed)
    record.parse (record.text a) = .ok a                                  (parse_text_of_sound)
    record.parse text = .ok a → record.Sound a                                 (sound_of_parse)
-/

namespace DeadLetters.Json

/-! ## Values that come back from their text -/

/-- A value without doubles that may stand in a text which allows depth `d`. -/
structure Value.Exact (d : Nat) (v : Value) : Prop where
  sound : v.Sound d
  integral : v.All Number.Integral

variable {d : Nat} {v : Value} {r : List Char}

theorem fits_of_lt {n : Nat} (h : n < UInt64.size) : Fits n :=
  ⟨by omega, Int.ofNat_lt.2 h⟩

theorem Value.exact_number {i : Int} (h : Fits i) : (Value.number (.int i)).Exact d :=
  ⟨⟨Nat.zero_le d, trivial, h⟩, h⟩

theorem Value.exact_object_iff {ms : List (String × Value)} :
    (Value.object ms).Exact (d + 1) ↔ Entries.Sorted ms ∧ ∀ m ∈ ms, m.2.Exact d := by
  constructor
  · rintro ⟨hs, hi⟩
    obtain ⟨hsorted, h⟩ := sound_object_iff.1 hs
    exact ⟨hsorted, fun m hm => ⟨h m hm, allMembers_iff.1 hi m hm⟩⟩
  · rintro ⟨hsorted, h⟩
    exact ⟨sound_object_iff.2 ⟨hsorted, fun m hm => (h m hm).sound⟩,
      allMembers_iff.2 fun m hm => (h m hm).integral⟩

/-! ## What is written for a value -/

namespace Schema

/-- The JSON value that is written for a value of the schema. -/
def written : (s : Schema) → s.Carrier → Value
  | text _, t => .string t
  | bool, b => .bool b
  | word32, n => .number (.int n.toNat)
  | word64, n => .number (.int n.toNat)
  | int64, i => .number (.int i.toInt)
  | count, n => .number (.int (Int.ofNat n))
  | any, v => v
  | nullable _, none => .null
  | nullable s, some a => s.written a
  | dictionary s, m => .object (m.entries.map fun e => (e.1, s.written e.2))

/-- The schemas whose values can be told from their text. -/
def isExact : Schema → Bool
  | any => false
  | nullable s => s.isExact && s.absent.isNone
  | dictionary s => s.isExact
  | _ => true

theorem chars_written (schema : Schema) (a : schema.Carrier) :
    (schema.written a).chars = schema.chars a := by
  induction schema with
  | text | bool | word32 | word64 | int64 | count | any => rfl
  | nullable schema ih =>
    cases a with
    | none => rfl
    | some a => exact ih a
  | dictionary schema ih =>
    simp only [written, chars, Value.chars, memberValues_eq, List.map_map, Function.comp_def, ih]

/-- Only for an absent value `null` is written. -/
theorem written_ne_null (schema : Schema) (hs : schema.isExact = true)
    (ha : schema.absent.isNone = true) (a : schema.Carrier) : schema.written a ≠ .null := by
  cases schema with
  | text | bool | word32 | word64 | int64 | count | dictionary => nofun
  | any => cases hs
  | nullable => cases ha

theorem sorted_written (schema : Schema) (m : Dictionary schema.Carrier) :
    Entries.Sorted (m.entries.map fun e => (e.1, schema.written e.2)) :=
  sorted_of_keys (by simp [Function.comp_def]) m.sorted

theorem exact_written (schema : Schema) (hs : schema.isExact = true) {a : schema.Carrier}
    (ha : schema.Sound d a) : (schema.written a).Exact d := by
  induction schema generalizing d with
  | text | bool => exact ⟨⟨Nat.zero_le d, trivial, trivial⟩, trivial⟩
  | word32 =>
    have hsize : UInt32.size ≤ UInt64.size := by decide
    exact Value.exact_number (fits_of_lt (Nat.lt_of_lt_of_le (UInt32.toNat_lt_size a) hsize))
  | word64 => exact Value.exact_number (fits_of_lt (UInt64.toNat_lt_size a))
  | int64 =>
    have hlow := Int64.le_toInt a
    have hhigh := Int64.toInt_lt a
    exact Value.exact_number (by simp only [Fits, UInt64.size]; omega)
  | count => exact Value.exact_number (fits_of_lt ha)
  | any => cases hs
  | nullable schema ih =>
    cases a with
    | none => exact ⟨⟨Nat.zero_le d, trivial, trivial⟩, trivial⟩
    | some a => exact ih (Bool.and_eq_true_iff.1 hs).1 (ha a rfl)
  | dictionary schema ih =>
    obtain ⟨hd, ha⟩ := ha
    obtain ⟨e, rfl⟩ : ∃ e, d = e + 1 := ⟨d - 1, by omega⟩
    refine Value.exact_object_iff.2 ⟨schema.sorted_written a, fun m hm => ?_⟩
    obtain ⟨entry, he, rfl⟩ := List.mem_map.1 hm
    exact ih hs (ha entry he)

theorem accept_integer {α : Type} {f : Int → α} {a : α} {least greatest i : Int} (wanted : String)
    (h : least ≤ i ∧ i ≤ greatest) (ha : f i = a) :
    ((acceptInteger wanted least greatest (.number (.int i))).map f).toOption = some a := by
  rw [acceptInteger, if_pos h, ← ha]
  rfl

theorem acceptNullable_of_ne {α : Type} (f : Value → Option α) (h : v ≠ .null) :
    acceptNullable f v = (f v).map some := by
  rw [acceptNullable]
  exact h

theorem ofList_entries {α : Type} (m : Dictionary α) : Dictionary.ofList m.entries = m := by
  have h := (entries_ofList m.entries).trans (Entries.ofList_of_sorted m.sorted)
  revert h
  cases Dictionary.ofList m.entries
  rintro rfl
  rfl

theorem mapM_written (schema : Schema) {es : List (String × schema.Carrier)}
    (h : ∀ e ∈ es, schema.accept (schema.written e.2) = some e.2) :
    (es.map fun e => (e.1, schema.written e.2)).mapM
      (fun m => (schema.accept m.2).map fun b => (m.1, b)) = some es := by
  induction es with
  | nil => rfl
  | cons e es ih =>
    rw [List.map_cons, List.mapM_cons, h e List.mem_cons_self,
      ih fun f hf => h f (List.mem_cons_of_mem _ hf)]
    rfl

/-- What is written for a value is accepted as that value. -/
theorem accept_written (schema : Schema) (hs : schema.isExact = true) {a : schema.Carrier}
    (ha : schema.Sound d a) : schema.accept (schema.written a) = some a := by
  induction schema generalizing d with
  | text | bool => rfl
  | word32 =>
    have hlt : UInt32.toNat a < UInt32.size := UInt32.toNat_lt_size a
    exact accept_integer "u32" ⟨by omega, by omega⟩ UInt32.ofNat_toNat
  | word64 =>
    have hlt : UInt64.toNat a < UInt64.size := UInt64.toNat_lt_size a
    exact accept_integer "u64" ⟨by omega, by omega⟩ UInt64.ofNat_toNat
  | int64 =>
    exact accept_integer "i64" ⟨Int64.minValue_le_toInt a, Int64.toInt_le a⟩ (Int64.ofInt_toInt a)
  | count =>
    have hlt : Nat.lt a UInt64.size := ha
    exact accept_integer "u64"
      ⟨Int.natCast_nonneg a, Int.le_sub_one_of_lt (Int.ofNat_lt.2 hlt)⟩ rfl
  | any => cases hs
  | nullable schema ih =>
    obtain ⟨hexact, habsent⟩ := Bool.and_eq_true_iff.1 hs
    cases a with
    | none => rfl
    | some a =>
      rw [written, accept, acceptNullable_of_ne _ (schema.written_ne_null hexact habsent a),
        ih hexact (ha a rfl)]
      rfl
  | dictionary schema ih =>
    have hentries := mapM_written schema fun e he => ih hs (ha.2 e he)
    rw [written, accept, acceptDictionary, hentries]
    exact congrArg some (ofList_entries a)

end Schema

/-! ## Readers of printed values -/

variable {s : List Char}

theorem skipGap_chars_append (v : Value) (r : List Char) :
    skipGap (v.chars ++ r) = v.chars ++ r := by
  obtain ⟨c, t, hv, hc, -⟩ := startsItem_chars v
  rw [hv, List.cons_append, skipGap_cons hc]

theorem toOption_dictionaryRun {α : Type} {inner : Reader α} {f : Value → Option α}
    {ms : List (String × Value)} {t : List Char} (hs : skipGap s = '{' :: t)
    (h : MembersAt (Reads inner f) true t ms r) :
    (dictionaryRun (some inner) s).toOption =
      (Schema.acceptDictionary f (.object ms)).map (·, r) := by
  simp only [dictionaryRun, hs]
  rw [toOption_map, h.toOption_members, Schema.acceptDictionary]
  cases ms.mapM fun m => (f m.2).map fun a => (m.1, a) <;> rfl

/-- A dictionary is not read from anything but an object. -/
theorem Stands.dictionary_foreign {α : Type} {inner : Option (Reader α)} (h : Stands s r v)
    (hv : ∀ ms, v ≠ .object ms) : (dictionaryRun inner s).toOption = none := by
  have hleaf : (leafRun "a map" (fun v => .error (.invalidType v.found "a map"))
      (skipGap s) : Reading (Dictionary α)).toOption = none :=
    h.of_skipGap.leaf ⟨fun _ => rfl, fun _ => rfl, fun _ => rfl⟩
  have hobject : ∀ t, skipGap s ≠ '{' :: t := by
    intro t ht
    cases h with
    | array hs =>
      rw [hs] at ht
      cases ht
    | object => exact hv _ rfl
    | float hl ho h => exact ho t ht
    | scalar hl ho h => exact ho t ht
  unfold dictionaryRun
  split
  · next h => exact absurd h (hobject _)
  · next h => exact absurd h (hobject _)
  · exact hleaf

theorem Schema.acceptDictionary_foreign {α : Type} (f : Value → Option α)
    (hv : ∀ ms, v ≠ .object ms) : Schema.acceptDictionary f v = none := by
  cases v with
  | object ms => exact absurd rfl (hv ms)
  | null | bool | number | string | array => rfl

/-- What a schema reads of a printed value is what it accepts. -/
theorem reads_printed (schema : Schema) (hv : v.Exact d) (hr : EndsNumeral r) :
    Reads (schema.reader d) schema.accept (v.chars ++ r) v r := by
  induction schema generalizing d v r with
  | text | bool | word32 | word64 | int64 | count =>
    exact (spelled_printed hv.sound.fits hr).reads rfl d
  | any =>
    have h := reads_reread hv.sound hr
    rw [Reads, reread_of_integral hv.integral] at h
    exact h
  | nullable schema ih =>
    refine (spelled_printed hv.sound.fits hr).stands.nullable ?_ ?_
    · rintro x rfl
      exact hv.integral.elim
    · rw [skipGap_chars_append]
      exact ih hv hr
  | dictionary schema ih =>
    have hstands := (spelled_printed hv.sound.fits hr).stands
    by_cases hobject : ∃ ms, v = .object ms
    · obtain ⟨ms, rfl⟩ := hobject
      obtain ⟨e, rfl⟩ : ∃ e, d = e + 1 := by
        have := hv.sound.depth_le
        exact ⟨d - 1, by rw [Value.depth] at this; omega⟩
      have hs := (congrArg skipGap (chars_object_append ms r)).trans (skipGap_cons rfl _)
      have all : MembersAt (Reads (schema.reader e) schema.accept) true _ ms r :=
        membersAt_printed r fun m hm u hu => ih ((Value.exact_object_iff.1 hv).2 m hm) hu
      exact toOption_dictionaryRun hs all
    · have hne : ∀ ms, v ≠ .object ms := fun ms h => hobject ⟨ms, h⟩
      show Except.toOption (((schema.dictionary).reader d).run _) = _
      rw [Schema.accept, Schema.acceptDictionary_foreign _ hne]
      cases d <;> exact hstands.dictionary_foreign hne

theorem legible_printed (fs : List Field) (hv : v.Exact d) (hr : EndsNumeral r) :
    Legible fs d (v.chars ++ r) v r :=
  ⟨(spelled_printed hv.sound.fits hr).skips, fun f _ => reads_printed f.schema hv hr⟩

/-! ## Rows -/

section Rows

variable {fs : List Field}

def Row.cons {f : Field} (a : f.schema.Carrier) (rest : Row fs) : Row (f :: fs) := (a, rest)

def Row.written : {fs : List Field} → Row fs → List (String × Value)
  | [], _ => []
  | f :: _, (a, rest) => (f.name, f.schema.written a) :: Row.written rest

theorem Row.written_cons {f : Field} (a : f.schema.Carrier) (rest : Row fs) :
    (cons a rest).written = (f.name, f.schema.written a) :: rest.written :=
  rfl

theorem members_eq_written (row : Row fs) :
    Record.members row = row.written.map fun m => (m.1, m.2.chars) := by
  induction fs with
  | nil => rfl
  | cons f fs ih =>
    obtain ⟨a, rest⟩ := row
    rw [Record.members, Row.written, List.map_cons, f.schema.chars_written, ih rest]

theorem Row.keys_written (row : Row fs) : row.written.map (·.1) = fs.map Field.name := by
  induction fs with
  | nil => rfl
  | cons f fs ih =>
    obtain ⟨a, rest⟩ := row
    rw [Row.written, List.map_cons, List.map_cons, ih rest]

theorem Row.exact_written (row : Row fs) (hs : ∀ f ∈ fs, f.schema.isExact = true)
    (h : row.Sound d) : ∀ m ∈ row.written, m.2.Exact d := by
  induction fs with
  | nil => simp [Row.written]
  | cons f fs ih =>
    obtain ⟨a, rest⟩ := row
    intro m hm
    rcases List.mem_cons.1 hm with rfl | hm
    · exact f.schema.exact_written (hs f List.mem_cons_self) h.1
    · exact ih rest (fun g hg => hs g (List.mem_cons_of_mem _ hg)) h.2 m hm

/-- The members of a row fill each slot with the value of its field. -/
theorem Slots.offerAll_written (row : Row fs) (hs : ∀ f ∈ fs, f.schema.isExact = true)
    (hn : (fs.map Field.name).Nodup) (h : row.Sound d) :
    ∃ slots, (empty fs).offerAll row.written = some slots ∧ slots.row = .ok row := by
  induction fs with
  | nil => exact ⟨(), rfl, rfl⟩
  | cons f fs ih =>
    obtain ⟨a, rest⟩ := row
    obtain ⟨hf, hfs⟩ := List.nodup_cons.1 hn
    obtain ⟨slots, hslots, hrow⟩ :=
      ih rest (fun g hg => hs g (List.mem_cons_of_mem _ hg)) hfs h.2
    have haccept := f.schema.accept_written (hs f List.mem_cons_self) h.1
    have hne : ∀ m ∈ rest.written, m.1 ≠ f.name := fun m hm he =>
      hf (rest.keys_written ▸ List.mem_map.2 ⟨m, hm, he⟩)
    have hvalues : valuesOf f.name (Row.cons a rest).written = [f.schema.written a] := by
      rw [Row.written_cons, valuesOf_cons_self, valuesOf, List.filter_eq_nil_iff.2]
      · rfl
      · simpa using hne
    have hothers : (Row.cons a rest).written.filter (fun m => m.1 ≠ f.name) = rest.written := by
      rw [Row.written_cons, List.filter_cons_of_neg (by simp), List.filter_eq_self]
      simpa using hne
    refine ⟨cons (some a) slots, ?_, ?_⟩
    · show (cons none (empty fs)).offerAll (Row.cons a rest).written = _
      rw [offerAll_cons, hvalues, hothers, settle, haccept, hslots]
      rfl
    · show (slots.row.map fun r => Row.cons a r) = _
      rw [hrow]
      rfl

end Rows

/-! ## Records -/

namespace Record

variable {α : Type} {record : Record α} {a : α} {text : String}

/-- The fields are exact, have names of their own and sound defaults, and make up the values. -/
structure Exact (record : Record α) : Prop where
  schemas : ∀ f ∈ record.fields, f.schema.isExact = true
  names : (record.fields.map Field.name).Nodup
  defaults : SoundDefaults (depthLimit - 1) record.fields
  row_ofRow : ∀ row, record.row (record.ofRow row) = row

/-- A value whose parts may stand in its text. -/
def Sound (record : Record α) (a : α) : Prop := (record.row a).Sound (depthLimit - 1)

theorem chars_eq_written (a : α) :
    record.chars a = (Value.object (record.row a).written).chars := by
  rw [chars, members_eq_written, Value.chars, memberValues_eq]

/-- A value comes back from its text. -/
theorem parse_text_of_sound (h : record.Exact) (ha : record.Sound a) :
    record.parse (record.text a) = .ok a := by
  obtain ⟨slots, hslots, hrow⟩ :=
    Slots.offerAll_written (record.row a) h.schemas h.names ha
  have haccept : record.acceptMembers (record.row a).written = some a := by
    rw [acceptMembers, hslots, Option.bind_some, hrow]
    exact congrArg some (record.ofRow_row a)
  have hexact := (record.row a).exact_written h.schemas ha
  have hs := (congrArg skipGap (chars_object_append (record.row a).written [])).trans
    (skipGap_cons rfl _)
  have run := run_object hs
    (membersAt_printed [] fun m hm u hu => legible_printed record.fields (hexact m hm) hu)
  rw [List.append_nil, haccept] at run
  rw [← toOption_eq_some_iff]
  refine toOption_parse (r := []) ?_ rfl
  rwa [Record.text, String.toList_ofList, chars_eq_written]

/-- What was read has parts that may stand in its text. -/
theorem sound_of_parse (h : record.Exact) (ha : record.parse text = .ok a) : record.Sound a := by
  obtain ⟨row, rfl, hrow⟩ := sound_parse h.defaults ha
  rw [Sound, h.row_ofRow]
  exact hrow

end Record

end DeadLetters.Json
