import DeadLetters.Message
import DeadLetters.Service.Keeping

/-!
# Giving a message up

A message that is given up becomes a dead letter.  The dead-letter topic is told first, as far as
the transport lets it, and then the dead letter is stored whatever came of that.  Texts that would
be blank are filled in, so that a message can always be stored if its topic has a name.
-/

namespace DeadLetters.Service

/-- Stands for a message id that is blank. -/
def unknownMessageId : String := "<unknown>"

/-- The draft of a given-up message. -/
def draft (payload : Payload) (f : Failure) (o : Origin) (failedAt : Int64) : Draft where
  messageId := if Text.isBlankText o.messageId then unknownMessageId else o.messageId
  topic := o.topic
  errorName := f.kind.name
  errorMessage := if Text.isBlankText f.detail then f.kind.name else Text.trim f.detail
  retryCount := o.retryCount
  payload := payload
  failedAt := some failedAt

/-- What the dead-letter topic is told, with its members in order. -/
def notification (d : Draft) : Json.Value :=
  .object (Entries.ofList
    [("originalMessageId", .string d.messageId), ("topicName", .string d.topic),
      ("errorName", .string d.errorName), ("errorMessage", .string d.errorMessage),
      ("retryCount", .number (.int d.retryCount.toNat)),
      ("failedAt", (d.failedAt.map fun t => Json.Value.number (.int t.toInt)).getD .null)])

/-- What is reported when the transport does not take a notification in time. -/
def notificationTimeout (s : Service) : Transport.Error :=
  .send s.deadLetterTopic ("timed out after " ++ toString s.operationTimeout.toNat ++ "s")

/-- Tells the dead-letter topic, as far as the transport lets it. -/
def notify (s : Service) (d : Draft) : Program Unit := do
  match s.binds with
  | none =>
    Program.log ⟨.debug, "dlq::service", "no transport, skipping dead-letter notification",
      [("message_id", .plain d.messageId)]⟩
  | some _ =>
    let sent ← (Program.send s.deadLetterTopic (notification d).text).within
    match sent.getD (.error s.notificationTimeout) with
    | .ok () => return ()
    | .error e =>
      Program.emit s.sink (.counter "dlq.notify.error" 1 [])
      Program.log (event .warn "send_to_dlq" "dead-letter notification failed, storing anyway"
        [("message_id", .plain d.messageId), ("topic", .plain d.topic),
          ("dead_letter_topic", .plain s.deadLetterTopic), ("error", .plain e.message)])

/-- Makes a dead letter of a message and returns its id. -/
def giveUp (s : Service) (payload : Payload) (f : Failure) (o : Origin) :
    Program (Except Failure String) := do
  let now ← Program.clock
  let d := draft payload f o now
  s.notify d
  s.store d

end DeadLetters.Service
