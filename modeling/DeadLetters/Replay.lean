import DeadLetters.Json.Printer
import DeadLetters.Topic.Enrichment
import DeadLetters.Topic.Upload

/-!
# Replay

A dead letter may be published again only on a topic of the registry, and only if its body still
passes the schema of the topic.
-/

namespace DeadLetters

/-- The check that the bodies of each topic have to pass. -/
structure Replay where
  checks : Dictionary (String → Except Failure Unit)

namespace Replay

/-- No topic may be replayed onto. -/
def none : Replay := ⟨.empty⟩

/-- Allows a topic, with the schema of its bodies. -/
def allow {β : Type} (r : Replay) (topic : String) (schema : Topic.Schema β) : Replay :=
  ⟨r.checks.insert topic fun body => (schema.parse body).map fun _ => ()⟩

def isEligible (r : Replay) (topic : String) : Bool := (r.checks.find? topic).isSome

/-- The body that a payload stands for: text is a body as it was received. -/
def body : Json.Value → String
  | .string raw => raw
  | v => v.text

/-- The body to publish for a payload, or why it is refused; nothing unless the topic is allowed. -/
def prepare (r : Replay) (topic : String) (payload : Json.Value) : Option (Except String String) :=
  (r.checks.find? topic).map fun check =>
    match check (body payload) with
    | .ok () => .ok (body payload)
    | .error f => .error f.detail

/-- Uploads may be replayed, enrichments not. -/
def standard : Replay := Replay.none.allow Topic.Upload.topic Topic.Upload.schema

end Replay

end DeadLetters
