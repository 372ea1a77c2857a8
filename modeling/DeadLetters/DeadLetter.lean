import DeadLetters.Json.Record
import DeadLetters.Payload

/-!
# Dead letters

A dead letter is the record of a message that was given up.  It starts pending; reprocessing closes
it once, with a time and a result.
-/

namespace DeadLetters

/-- How a string is called in errors. -/
def aString : String := "a string"

structure DeadLetter where
  id : String
  messageId : String
  topic : String
  errorName : String
  errorMessage : String
  /-- Milliseconds since the epoch. -/
  failedAt : Int64
  retryCount : UInt32
  reprocessed : Bool
  reprocessedAt : Option Int64
  recoveryResult : Option String
  payloadType : String
  /-- The stored form of the payload. -/
  payload : String
  deriving DecidableEq

/-- What is known of a dead letter before it gets an id. -/
structure Draft where
  messageId : String
  topic : String
  errorName : String
  errorMessage : String
  retryCount : UInt32
  payload : Payload
  /-- When the message failed, if it was not just now. -/
  failedAt : Option Int64

namespace Draft

/-- The texts that must not be blank, by name. -/
def required (d : Draft) : List (String × String) :=
  [("original_message_id", d.messageId), ("topic_name", d.topic), ("error_name", d.errorName),
   ("error_message", d.errorMessage)]

/-- The dead letter of a draft, pending. -/
def letter (d : Draft) (id : String) (failedAt : Int64) : DeadLetter where
  id := id
  messageId := d.messageId
  topic := d.topic
  errorName := d.errorName
  errorMessage := d.errorMessage
  failedAt := failedAt
  retryCount := d.retryCount
  reprocessed := false
  reprocessedAt := none
  recoveryResult := none
  payloadType := d.payload.typeName
  payload := d.payload.stored

end Draft

namespace DeadLetter

/-- A dead letter in JSON. -/
def record : Json.Record DeadLetter where
  name := "DeadLetterRecord"
  fields := [.plain "id" (.text aString), .plain "originalMessageId" (.text aString),
    .plain "topicName" (.text aString), .plain "errorName" (.text aString),
    .plain "errorMessage" (.text aString), .plain "failedAt" .int64, .plain "retryCount" .word32,
    .plain "reprocessed" .bool, .plain "reprocessedAt" (.nullable .int64),
    .plain "recoveryResult" (.nullable (.text aString)),
    .plain "originalPayloadType" (.text aString), .plain "originalPayloadJson" (.text aString)]
  row l := (l.id, l.messageId, l.topic, l.errorName, l.errorMessage, l.failedAt, l.retryCount,
    l.reprocessed, l.reprocessedAt, l.recoveryResult, l.payloadType, l.payload, ())
  ofRow := fun (id, messageId, topic, errorName, errorMessage, failedAt, retryCount, reprocessed,
      reprocessedAt, recoveryResult, payloadType, payload, _) =>
    { id, messageId, topic, errorName, errorMessage, failedAt, retryCount, reprocessed,
      reprocessedAt, recoveryResult, payloadType, payload }
  ofRow_row _ := rfl

/-- Closes a dead letter. -/
def close (l : DeadLetter) (result : String) (time : Int64) : DeadLetter :=
  { l with reprocessed := true, reprocessedAt := some time, recoveryResult := some result }

end DeadLetter

end DeadLetters
