import DeadLetters.World

/-!
# Queues

The queue service keeps one queue a topic, each at a URL.  A call for a topic without a queue, and
the acknowledgement of a message without a receipt, fail before the service is asked.  What the
service refuses is reported with a code if the call has a name for the code, and as unhandled
otherwise, and so is a service that cannot be reached.
-/

namespace DeadLetters.Queue

/-- The URL of the queue of each topic. -/
abbrev Bindings := Dictionary String

/-- What the service is asked to do. -/
inductive Call where
  | send (url body : String)
  | receive (url : String)
  | delete (url receipt : String)

/-- What the service answers. -/
inductive Outcome where
  /-- Done; receiving hands out deliveries. -/
  | answered (deliveries : List Delivery)
  | refused (code message : String)
  | unreachable

/-- The codes that a call has names for. -/
def Call.codes : Call → List String
  | send _ _ => ["InvalidMessageContents", "InvalidSecurity", "InvalidAddress", "RequestThrottled"]
  | receive _ => ["OverLimit", "InvalidSecurity", "InvalidAddress", "RequestThrottled"]
  | delete _ _ =>
    ["ReceiptHandleIsInvalid", "InvalidIdFormat", "InvalidSecurity", "InvalidAddress",
      "RequestThrottled"]

/-- Why a call failed, if it did. -/
def Call.reason? (c : Call) : Outcome → Option String
  | .answered _ => none
  | .refused code message =>
    if c.codes.contains code then some (code ++ ": " ++ message)
    else some ("unhandled error (" ++ code ++ ")")
  | .unreachable => some "unhandled error"

namespace Bindings

variable (b : Bindings)

/-- Whether a topic has a queue. -/
def binds (topic : String) : Bool := (b.find? topic).isSome

def url (topic : String) : Except Transport.Error String :=
  match b.find? topic with
  | some u => .ok u
  | none => .error (.unbound topic)

/-! ## Calls -/

def sendCall (topic payload : String) : Except Transport.Error Call :=
  (b.url topic).map fun u => .send u payload

def receiveCall (topic : String) : Except Transport.Error Call :=
  (b.url topic).map .receive

def acknowledgeCall (topic : String) (m : Message String) : Except Transport.Error Call :=
  match b.url topic, m.receipt with
  | .error e, _ => .error (.acknowledge m.id e.message)
  | .ok _, none => .error (.acknowledge m.id "message has no receipt handle")
  | .ok u, some receipt => .ok (.delete u receipt)

/-! ## Results -/

/-- The result of a call, if it was made. -/
def result (fail : String → Transport.Error) (service : Call → Outcome) :
    Except Transport.Error Call → Except Transport.Error (List Delivery)
  | .error e => .error e
  | .ok call =>
    match call.reason? (service call), service call with
    | some reason, _ => .error (fail reason)
    | none, .answered deliveries => .ok deliveries
    | none, _ => .ok []

def send (service : Call → Outcome) (topic payload : String) : Except Transport.Error Unit :=
  (result (.send topic) service (b.sendCall topic payload)).map fun _ => ()

def receive (service : Call → Outcome) (topic : String) :
    Except Transport.Error (List Delivery) :=
  result (.receive topic) service (b.receiveCall topic)

def acknowledge (service : Call → Outcome) (topic : String) (m : Message String) :
    Except Transport.Error Unit :=
  (result (.acknowledge m.id) service (b.acknowledgeCall topic m)).map fun _ => ()

end Bindings

/-! ## Receiving batches -/

/-- Logs each delivery that makes no message. -/
def warnOfSkipped (topic : String) : List Delivery → Program Unit
  | [] => return ()
  | d :: ds => do
    if d.message?.isNone then
      Program.log ⟨.warn, "dlq::sqs", "skipping SQS message without id or body",
        [("topic", .quoted topic)]⟩
    warnOfSkipped topic ds

/-- Receives a batch; deliveries without id or body are left out with a warning. -/
def receiveBatch (topic : String) : Program (Except Transport.Error (List (Message String))) := do
  match ← Program.receive topic with
  | .error e => return .error e
  | .ok deliveries =>
    warnOfSkipped topic deliveries
    return .ok (deliveries.filterMap Delivery.message?)

end DeadLetters.Queue
