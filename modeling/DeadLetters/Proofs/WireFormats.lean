import DeadLetters.Filter
import DeadLetters.Proofs.Json.Codec
import DeadLetters.Proofs.Revalidation
import DeadLetters.Stats
import DeadLetters.Topic.Upload

/-!
# Wire formats

Dead letters, filters, statistics and uploads go over the wire as JSON.  Each comes back from its
text as it was.  Any text that is accepted, with members in any order, unknown members, blanks,
other spellings of strings, fields left to their defaults or the list form, is accepted as a value
whose own text is read as that value again and is written as the same text again.

    parse (text a) = .ok a
    parse s = .ok a → parse (text a) = .ok a ∧ (parse (text a)).map text = .ok (text a)
                                                                    (wireFormats_faithful)

The numbers of statistics are natural numbers here: they have to be below `2^64` to be read back,
and whatever is accepted is.
-/

namespace DeadLetters

/-- A way to write values as texts, and to read them, that keeps the `valid` ones. -/
structure Faithful {α ε : Type} (text : α → String) (parse : String → Except ε α)
    (valid : α → Prop) : Prop where
  parse_text : ∀ a, valid a → parse (text a) = .ok a
  valid_of_parse : ∀ s a, parse s = .ok a → valid a
  reparse : ∀ s a, parse s = .ok a →
    parse (text a) = .ok a ∧ (parse (text a)).map text = .ok (text a)

/-- It suffices that what is valid is read back, and that nothing else is read. -/
theorem Faithful.of_valid {α ε : Type} {text : α → String} {parse : String → Except ε α}
    {valid : α → Prop} (hback : ∀ a, valid a → parse (text a) = .ok a)
    (hvalid : ∀ s a, parse s = .ok a → valid a) : Faithful text parse valid := by
  refine ⟨hback, hvalid, fun s a h => ?_⟩
  have hagain := hback a (hvalid s a h)
  exact ⟨hagain, by rw [hagain]; rfl⟩

namespace Json

/-- The schemas of all whose values a text can tell, whatever depth it allows. -/
def Schema.isFree : Schema → Bool
  | count | any | dictionary _ => false
  | nullable s => s.isFree
  | _ => true

theorem Schema.sound_of_free (schema : Schema) (h : schema.isFree = true) {d : Nat}
    (a : schema.Carrier) : schema.Sound d a := by
  induction schema with
  | text | bool | word32 | word64 | int64 => trivial
  | count | any | dictionary => cases h
  | nullable schema ih => exact fun b _ => ih h b

theorem Schema.sound_absent (schema : Schema) {d : Nat} {a : schema.Carrier}
    (h : schema.absent = some a) : schema.Sound d a := by
  cases schema with
  | nullable =>
    cases h
    exact fun _ hb => nomatch hb
  | text | bool | word32 | word64 | int64 | count | any | dictionary => cases h

/-- A field is sound if it cannot fail to be, or is just `null` where it is not given. -/
theorem soundDefaults_of_free {fs : List Field} {d : Nat}
    (h : ∀ f ∈ fs, f.schema.isFree = true ∨ f.default.isNone = true) : SoundDefaults d fs := by
  intro f hf a ha
  rcases h f hf with hfree | hnone
  · exact f.schema.sound_of_free hfree a
  · rw [Option.isNone_iff_eq_none.1 hnone, Option.none_or] at ha
    exact f.schema.sound_absent ha

theorem Row.sound_of_free {fs : List Field} {d : Nat} (row : Row fs)
    (h : ∀ f ∈ fs, f.schema.isFree = true) : row.Sound d := by
  induction fs with
  | nil => trivial
  | cons f fs ih =>
    obtain ⟨a, rest⟩ := row
    exact ⟨f.schema.sound_of_free (h f List.mem_cons_self) a,
      ih rest fun g hg => h g (List.mem_cons_of_mem _ hg)⟩

namespace Record.Exact

variable {α : Type} {record : Record α}

theorem faithful (h : record.Exact) : Faithful record.text record.parse record.Sound :=
  .of_valid (fun _ => parse_text_of_sound h) fun _ _ => sound_of_parse h

/-- A record of free fields keeps all values. -/
theorem faithful_of_free (h : record.Exact) (hf : ∀ f ∈ record.fields, f.schema.isFree = true) :
    Faithful record.text record.parse fun _ => True :=
  .of_valid (fun a _ => parse_text_of_sound h ((record.row a).sound_of_free hf))
    fun _ _ _ => trivial

end Record.Exact

end Json

/-- With checks, a schema keeps what passes them if its record keeps everything. -/
theorem Topic.Schema.faithful {β : Type} {schema : Topic.Schema β}
    (h : Faithful schema.record.text schema.record.parse fun _ => True) :
    Faithful schema.record.text schema.parse fun b => schema.complaint? b = none :=
  .of_valid (fun b hb => parse_eq_ok_iff.2 ⟨h.parse_text b trivial, hb⟩)
    fun _ _ hb => (parse_eq_ok_iff.1 hb).2

/-! ## The records -/

theorem DeadLetter.exact_record : DeadLetter.record.Exact where
  schemas := by decide
  names := by decide
  defaults := Json.soundDefaults_of_free (by decide)
  row_ofRow _ := rfl

theorem Filter.exact_record : Filter.record.Exact where
  schemas := by decide
  names := by decide
  defaults := Json.soundDefaults_of_free (by decide)
  row_ofRow _ := rfl

theorem Stats.exact_record : Stats.record.Exact where
  schemas := by decide
  names := by decide
  defaults := Json.soundDefaults_of_free (by decide)
  row_ofRow _ := rfl

theorem Topic.Upload.exact_record : Topic.Upload.record.Exact where
  schemas := by decide
  names := by decide
  defaults := Json.soundDefaults_of_free (by decide)
  row_ofRow _ := rfl

/-- Each number is one of 64 bits. -/
structure Stats.Bounded (s : Stats) : Prop where
  total : s.total < UInt64.size
  reprocessed : s.reprocessed < UInt64.size
  pending : s.pending < UInt64.size
  byTopic : ∀ e ∈ s.byTopic.entries, e.2 < UInt64.size
  byError : ∀ e ∈ s.byError.entries, e.2 < UInt64.size

theorem Stats.sound_record_iff {s : Stats} : Stats.record.Sound s ↔ s.Bounded := by
  constructor
  · rintro ⟨total, reprocessed, pending, ⟨-, byTopic⟩, ⟨-, byError⟩, -⟩
    exact ⟨total, reprocessed, pending, byTopic, byError⟩
  · rintro ⟨total, reprocessed, pending, byTopic, byError⟩
    exact ⟨total, reprocessed, pending, ⟨by decide, byTopic⟩, ⟨by decide, byError⟩, trivial⟩

/-- All dead letters and filters, statistics of numbers of 64 bits, and uploads, with the checks of
their topic or without, come back from their texts; and so does what any text is read as. -/
theorem wireFormats_faithful :
    Faithful DeadLetter.record.text DeadLetter.record.parse (fun _ => True) ∧
      Faithful Filter.record.text Filter.record.parse (fun _ => True) ∧
      Faithful Stats.record.text Stats.record.parse Stats.Bounded ∧
      Faithful Topic.Upload.record.text Topic.Upload.record.parse (fun _ => True) ∧
      Faithful Topic.Upload.record.text Topic.Upload.schema.parse
        fun u => u.complaint? = none := by
  have letters := DeadLetter.exact_record.faithful_of_free (by decide)
  have filters := Filter.exact_record.faithful_of_free (by decide)
  have uploads := Topic.Upload.exact_record.faithful_of_free (by decide)
  have stats : Faithful Stats.record.text Stats.record.parse Stats.Bounded :=
    .of_valid (fun s hs => Stats.exact_record.faithful.parse_text s (Stats.sound_record_iff.2 hs))
      fun t s hs => Stats.sound_record_iff.1 (Stats.exact_record.faithful.valid_of_parse t s hs)
  have checked : Faithful Topic.Upload.schema.record.text Topic.Upload.schema.parse
      fun u => Topic.Upload.schema.complaint? u = none := Topic.Schema.faithful uploads
  exact ⟨letters, filters, stats, uploads, checked⟩

/-- The list form is taken as well, with escapes, blanks and the defaults of what it leaves out. -/
example : (Filter.record.parse " [\"\\u0061\", null]").toOption = some (.ofTopic "a") := by
  decide +kernel

end DeadLetters
