import DeadLetters.Payload
import DeadLetters.Proofs.Json.Records
import DeadLetters.Replay

/-!
# Validation, and validation again

A body that is kept goes through two other texts before it is checked again: it is captured as JSON
or as text, stored as JSON, and read back.  The check sees the same in the body that comes of this
as in the body that was received, with two exceptions: a JSON string is taken for text that was
received, and of a field that is given more than once only the last value is kept.

    parseValue (capture body).stored = .ok w → w is body, as text, or the value of body, reread
                                                                              (kept_cases)
    schema.parse (Replay.body w) agrees with schema.parse body                 (revalidated)
-/

namespace DeadLetters

open Json

/-! ## Schemas -/

namespace Topic.Schema

variable {β : Type} {schema : Schema β} {text text' : String} {b : β}

theorem parse_eq_ok_iff :
    schema.parse text = .ok b ↔ schema.record.parse text = .ok b ∧ schema.complaint? b = none := by
  unfold parse
  cases schema.record.parse text with
  | error e => simp
  | ok c =>
    simp only [Except.ok.injEq]
    constructor
    · intro h
      split at h
      · cases h
      · next hc => exact ⟨Except.ok.inj h, Except.ok.inj h ▸ hc⟩
    · rintro ⟨rfl, hc⟩
      rw [hc]

/-- A check passes what it is read as. -/
theorem parse_congr
    (h : (schema.record.parse text).toOption = (schema.record.parse text').toOption) :
    schema.parse text = .ok b ↔ schema.parse text' = .ok b := by
  rw [parse_eq_ok_iff, parse_eq_ok_iff, ← toOption_eq_some_iff, h, toOption_eq_some_iff]

end Topic.Schema

/-! ## Bodies that were kept -/

namespace Payload

variable {body : String} {v : Value} {e : Json.Error}

theorem capture_of_ok (h : parseValue body = .ok v) : capture body = json v := by
  rw [capture, h]

theorem capture_of_error (h : parseValue body = .error e) : capture body = text body := by
  rw [capture, h]

end Payload

namespace Replay

variable {body : String} {w : Value}

/-- What a stored body is read back as. -/
theorem kept_cases (h : parseValue (Payload.capture body).stored = .ok w) :
    (∃ e, parseValue body = .error e) ∧ w = .string body ∨
      ∃ v, parseValue body = .ok v ∧ v.Sound depthLimit ∧ v.reread = some w := by
  cases hv : parseValue body with
  | error e =>
    rw [Payload.capture_of_error hv, Payload.stored, parseValue_stringText] at h
    exact .inl ⟨⟨e, rfl⟩, (Except.ok.inj h).symm⟩
  | ok v =>
    have hsound := sound_parseValue hv
    rw [Payload.capture_of_ok hv, Payload.stored, ← toOption_eq_some_iff,
      toOption_parseValue_text hsound] at h
    exact .inr ⟨v, rfl, hsound, h⟩

/-- What is no string is checked as the text of its value. -/
theorem body_of_reread {v : Value} (h : v.reread = some w) (hs : ∀ t, v ≠ .string t) :
    Replay.body w = w.text := by
  cases v with
  | string t => exact absurd rfl (hs t)
  | null | bool =>
    cases h
    rfl
  | number | array | object =>
    obtain ⟨_, -, rfl⟩ := Option.map_eq_some_iff.1 h
    rfl

/-- The numbers of a value that is read again fit as they did. -/
theorem fits_of_stored (h : parseValue (Payload.capture body).stored = .ok w) :
    w.All Number.Fits :=
  (sound_parseValue h).fits

variable {β : Type} {schema : Topic.Schema β} {b : β}

/-- The check passes again what it has passed, and nothing else. -/
theorem revalidated (hf : schema.record.IsFlat)
    (h : parseValue (Payload.capture body).stored = .ok w)
    (hs : ∀ t, parseValue body ≠ .ok (.string t)) (hr : ¬ schema.record.Repeats body) :
    schema.parse (Replay.body w) = .ok b ↔ schema.parse body = .ok b := by
  rcases kept_cases h with ⟨-, rfl⟩ | ⟨v, hv, hsound, hw⟩
  · rfl
  · rw [body_of_reread hw fun t ht => hs t (ht ▸ hv)]
    refine Topic.Schema.parse_congr ?_
    rw [Record.parse_text hf (fits_of_stored h), Record.accept_reread hf hsound.fits hw,
      Record.toOption_parse_of_value hf hv hr]

/-- No record is read from a JSON string. -/
theorem parse_string_ne {t : String} (hf : schema.record.IsFlat)
    (h : parseValue body = .ok (.string t)) : schema.parse body ≠ .ok b := by
  intro hb
  have hread := (Topic.Schema.parse_eq_ok_iff.1 hb).1
  have haccept := Record.toOption_parse_of_value hf h (Record.not_repeats_of_parse hf h hread)
  rw [hread] at haccept
  cases haccept

/-- What passes at last although the body had been refused: a JSON string of a text that passes, or
an object that gives a field more than once and passes with the last values. -/
theorem refused_of_refused (hf : schema.record.IsFlat)
    (h : parseValue (Payload.capture body).stored = .ok w) (hbody : ∀ b, schema.parse body ≠ .ok b)
    (hw : schema.parse (Replay.body w) = .ok b) :
    (∃ t, parseValue body = .ok (.string t) ∧ schema.parse t = .ok b) ∨
      schema.record.Repeats body ∧ ∃ v, parseValue body = .ok v ∧ schema.parse v.text = .ok b := by
  rcases kept_cases h with ⟨-, rfl⟩ | ⟨v, hv, hsound, hreread⟩
  · exact absurd hw (hbody b)
  by_cases hs : ∃ t, v = .string t
  · obtain ⟨t, rfl⟩ := hs
    cases hreread
    exact .inl ⟨t, hv, hw⟩
  · have hstring : ∀ t, v ≠ .string t := fun t ht => hs ⟨t, ht⟩
    by_cases hr : schema.record.Repeats body
    · rw [body_of_reread hreread hstring] at hw
      refine .inr ⟨hr, v, hv, (Topic.Schema.parse_congr ?_).1 hw⟩
      rw [Record.parse_text hf (fits_of_stored h), Record.parse_text hf hsound.fits,
        Record.accept_reread hf hsound.fits hreread]
    · refine absurd ?_ (hbody b)
      exact (revalidated hf h (fun t ht => hstring t (Except.ok.inj (hv.symm.trans ht))) hr).1 hw

/-- What has passed is read back, unless it has doubles, and passes again as the same. -/
theorem passes_again (hf : schema.record.IsFlat) (hb : schema.parse body = .ok b)
    (hi : ∀ v, parseValue body = .ok v → v.All Number.Integral) :
    ∃ w, parseValue (Payload.capture body).stored = .ok w ∧
      schema.parse (Replay.body w) = .ok b := by
  cases hv : parseValue body with
  | error e =>
    refine ⟨.string body, ?_, hb⟩
    rw [Payload.capture_of_error hv]
    exact parseValue_stringText body
  | ok v =>
    have hstored : parseValue (Payload.capture body).stored = .ok v := by
      rw [Payload.capture_of_ok hv]
      exact parseValue_text (sound_parseValue hv) (hi v hv)
    refine ⟨v, hstored, (revalidated hf hstored (fun t ht => ?_) ?_).2 hb⟩
    · exact parse_string_ne hf ht hb
    · exact Record.not_repeats_of_parse hf hv (Topic.Schema.parse_eq_ok_iff.1 hb).1

end Replay

/-! ## The standard registry -/

namespace Topic.Upload

theorem isFlat_record : record.IsFlat := by
  decide

end Topic.Upload

namespace Replay

variable {w : Value}

/-- What is to be published on the topic of uploads is an upload. -/
theorem prepare_standard_eq_ok_iff {b : String} :
    standard.prepare Topic.Upload.topic w = some (.ok b) ↔
      b = body w ∧ ∃ u, Topic.Upload.schema.parse b = .ok u := by
  have hfind : standard.checks.find? Topic.Upload.topic = some fun body =>
      (Topic.Upload.schema.parse body).map fun _ => () :=
    (Dictionary.find?_insert _ _ _ _).trans (if_pos rfl)
  rw [prepare, hfind, Option.map_some]
  cases hp : Topic.Upload.schema.parse (body w) with
  | error f =>
    simp only [hp, Except.map, Option.some.injEq, reduceCtorEq, false_iff]
    rintro ⟨rfl, u, hu⟩
    rw [hp] at hu
    cases hu
  | ok u =>
    simp only [hp, Except.map, Option.some.injEq, Except.ok.injEq]
    constructor
    · rintro rfl
      exact ⟨rfl, u, hp⟩
    · rintro ⟨rfl, -⟩
      rfl

end Replay

end DeadLetters
