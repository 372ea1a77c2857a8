import DeadLetters.Failure
import DeadLetters.Json.Record

/-!
# Schemas of topics

The messages of a topic have bodies of one type: JSON of a record with checks on its values.  A body
that does not parse, or that a check complains of, fails validation.
-/

namespace DeadLetters.Topic

structure Schema (β : Type) where
  record : Json.Record β
  /-- What is wrong with a value, if anything. -/
  complaint? : β → Option String

/-- Reads a body. -/
def Schema.parse {β : Type} (schema : Schema β) (body : String) : Except Failure β :=
  match schema.record.parse body with
  | .error e => .error (.validation ("body does not match schema: " ++ e.message))
  | .ok b =>
    match schema.complaint? b with
    | some complaint => .error (.validation complaint)
    | none => .ok b

end DeadLetters.Topic
