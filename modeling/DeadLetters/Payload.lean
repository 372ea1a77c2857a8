import DeadLetters.Json.Parser
import DeadLetters.Json.Printer

/-!
# Payloads

What a dead letter keeps of a message's body.  A payload is stored as JSON text: JSON as itself,
text as a JSON string, bytes as the text they encode.  Bytes that are not UTF-8 have no such text,
and a placeholder stands for them that is not JSON.
-/

namespace DeadLetters

inductive Payload where
  | json (value : Json.Value)
  | text (value : String)
  | bytes (value : ByteArray)

namespace Payload

/-- Stands for bytes that are not text. -/
def unserializable : String := "[unserializable payload]"

/-- The payload of a body: JSON if it parses, text otherwise. -/
def capture (body : String) : Payload :=
  match Json.parseValue body with
  | .ok v => json v
  | .error _ => text body

def typeName : Payload → String
  | json _ => "json"
  | text _ => "text"
  | bytes _ => "bytes"

/-- The text that is stored. -/
def stored : Payload → String
  | json v => v.text
  | text t => Json.stringText t
  | bytes b =>
    match String.fromUTF8? b with
    | some t => Json.stringText t
    | none => unserializable

end Payload

end DeadLetters
