import DeadLetters.Router
import DeadLetters.Topic.Script

/-!
# Processing the content topics

Uploads and enrichments are written down as content metadata.  An enrichment of content that is not
known yet fails, because its upload may still be on the way.
-/

namespace DeadLetters.Topic

/-- Where content metadata is written. -/
structure Writer where
  recordUpload : Upload → Program (Except Failure Unit)
  /-- Answers whether the content is known. -/
  mergeAttributes : Enrichment → Program (Except Failure Bool)

namespace Writer

/-- The content of an upload, if its size fits the store. -/
def contentOf (u : Upload) (now : Int64) : Except Failure Content :=
  if u.sizeBytes.toNat < UInt64.size / 2 then
    .ok {
      id := u.contentId
      bucket := u.bucket
      objectKey := u.key
      sizeBytes := .ofNat u.sizeBytes.toNat
      contentType := u.contentType
      uploadedAt := u.uploadedAt
      attributes := "\x7b\x7d"
      updatedAt := now }
  else
    .error (.validation ("sizeBytes " ++ toString u.sizeBytes.toNat ++ " is out of range"))

/-- Writes into the store. -/
def store : Writer where
  recordUpload u := do
    let now ← Program.clock
    match contentOf u now with
    | .error f => return .error f
    | .ok content =>
      match ← Program.query (.putContent content) with
      | .ok () => return .ok ()
      | .error e => return .error e.failure
  mergeAttributes e := do
    let now ← Program.clock
    match ← Program.query (.mergeContent e.contentId e.patch now) with
    | .ok known => return .ok known
    | .error e => return .error e.failure

/-- Fails always. -/
def failing (f : Failure) : Writer := ⟨fun _ => return .error f, fun _ => return .error f⟩

end Writer

/-- Writes uploads down. -/
def Upload.processor (writer : Writer) : Processor Upload where
  topic := topic
  schema := schema
  process m := do
    match ← writer.recordUpload m.body with
    | .error f => return .error f
    | .ok () =>
      Program.log ⟨.debug, "dlq::topics", "recorded upload",
        [("topic", .quoted topic), ("message_id", .plain m.id),
          ("content_id", .plain m.body.contentId)]⟩
      return .ok ()

/-- Merges enrichments into content that is known. -/
def Enrichment.processor (writer : Writer) : Processor Enrichment where
  topic := topic
  schema := schema
  process m := do
    match ← writer.mergeAttributes m.body with
    | .error f => return .error f
    | .ok true => return .ok ()
    | .ok false =>
      return .error (.processing ("content " ++ m.body.contentId ++ " is not known yet"))

/-- How a script ends, if it does. -/
def Script.outcome (s : Script) : Except Failure Unit :=
  match s.fail with
  | none => .ok ()
  | some "Validation" => .error (.validation s.detail)
  | some "NotFound" => .error (.notFound s.detail)
  | some "Storage" => .error (.storage s.detail)
  | some "Transport" => .error (Transport.Error.unbound s.detail).failure
  | some _ => .error (.processing s.detail)

/-- Does what its scripts say. -/
def Script.processor (topic : String) : Processor Script where
  topic := topic
  schema := schema
  process m := if m.body.stall then .stuck else return m.body.outcome

/-- The handlers of the content topics. -/
def handlers (writer : Writer) (service : Service) (limits : Limits) : List Handler :=
  [.of (Upload.processor writer) service limits, .of (Enrichment.processor writer) service limits]

end DeadLetters.Topic
