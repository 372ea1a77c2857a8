import DeadLetters.Failure

/-!
# Errors of the transport

Sending, receiving and acknowledging go through queues that are bound to topics.
-/

namespace DeadLetters.Transport

inductive Error where
  /-- No queue is bound to the topic. -/
  | unbound (topic : String)
  | send (topic reason : String)
  | receive (topic reason : String)
  | acknowledge (messageId reason : String)
  deriving DecidableEq, Repr

namespace Error

def message : Error → String
  | unbound topic => "no queue is bound to topic '" ++ topic ++ "'"
  | send topic reason => "failed to send to topic '" ++ topic ++ "': " ++ reason
  | receive topic reason => "failed to receive from topic '" ++ topic ++ "': " ++ reason
  | acknowledge id reason => "failed to ack message '" ++ id ++ "': " ++ reason

/-- The failure of an operation that the error ends. -/
def failure (e : Error) : Failure := .processing e.message

end Error

end DeadLetters.Transport
