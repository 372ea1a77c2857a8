import DeadLetters.Service.GivingUp
import DeadLetters.Topic.Schema

/-!
# Handling a message

A handler reads the body of a message, processes it, and decides what becomes of the message.  A
body that does not fit and a validation failure are given up at once.  Any other failure is tried
again with the next delivery until the retry ceiling is reached, and then given up.  A message that
cannot be given up is left for redelivery too.
-/

namespace DeadLetters

/-- What became of a message. -/
inductive Disposition where
  | processed
  | deadLettered (id : String) (cause : Kind)
  /-- Left for redelivery. -/
  | retry (cause : Kind) (reason : String)
  /-- Nobody handles its topic. -/
  | unroutable

namespace Disposition

/-- Whether the message is done with, so that it is acknowledged. -/
def settles : Disposition → Bool
  | retry _ _ => false
  | _ => true

/-- The members of a disposition in JSON. -/
def members : Disposition → List (String × List Char)
  | processed => [("outcome", Json.stringChars "processed")]
  | deadLettered id cause =>
    [("outcome", Json.stringChars "dead_lettered"), ("dead_letter_id", Json.stringChars id),
      ("error_name", Json.stringChars cause.name)]
  | retry cause reason =>
    [("outcome", Json.stringChars "retry"), ("error_name", Json.stringChars cause.name),
      ("reason", Json.stringChars reason)]
  | unroutable => [("outcome", Json.stringChars "unroutable")]

/-- A disposition as JSON text. -/
def text (d : Disposition) : String := String.ofList (Json.objectChars d.members)

end Disposition

/-- What is done with the messages of a topic. -/
structure Processor (β : Type) where
  topic : String
  schema : Topic.Schema β
  process : Message β → Program (Except Failure Unit)

/-- A handler as a router keeps it. -/
structure Handler where
  topic : String
  handle : Message String → Program Disposition

/-- The limits that a handler works under. -/
structure Limits where
  /-- The delivery at which a failing message is given up. -/
  ceiling : UInt32
  /-- How many seconds processing may take. -/
  timeout : Nat
  /-- How many seconds giving up may take. -/
  handOffTimeout : Nat

/-- The limits of a configuration; the ceiling is one at least. -/
def Limits.ofConfig (c : Config) : Limits :=
  ⟨max c.retryCeiling 1, c.operationTimeout.toNat, c.handOffTimeout⟩

namespace Handler

/-- A log event about a message. -/
def event {β : Type} (level : Log.Level) (message : String) (topic : String) (m : Message β)
    (fields : List (String × Log.Shown)) : Log.Event :=
  ⟨level, "dlq::handler", message,
    ("topic", .quoted topic) :: ("message_id", .plain m.id) :: fields⟩

/-- What a program that ran out of time fails with. -/
def timedOut (activity : String) (seconds : Nat) : String :=
  activity ++ " timed out after " ++ toString seconds ++ "s"

/-- Gives a message up, or leaves it for redelivery if that fails. -/
def giveUp (service : Service) (limits : Limits) (topic : String) (m : Message String)
    (f : Failure) : Program Disposition := do
  let handOff ← (service.giveUp (.capture m.body) f (.ofMessage topic m)).within
  let late := Failure.storage (timedOut "dead-letter hand-off" limits.handOffTimeout)
  match handOff.getD (.error late) with
  | .ok id => return .deadLettered id f.kind
  | .error e =>
    Program.log (event .error "failed to dead-letter message, leaving it for redelivery" topic m
      [("delivery_attempt", .nat m.attempt.toNat), ("error", .plain e.message)])
    return .retry e.kind ("dead-letter failed: " ++ e.message)

/-- What becomes of a message whose processing failed. -/
def afterFailure (service : Service) (limits : Limits) (topic : String) (m : Message String)
    (f : Failure) : Program Disposition :=
  match f.kind with
  | .validation => do
    Program.log (event .warn "message rejected by processor" topic m [("error", .plain f.message)])
    giveUp service limits topic m f
  | .notFound | .storage | .processing =>
    let f := Failure.processing f.detail
    let attempt := ("delivery_attempt", Log.Shown.nat m.attempt.toNat)
    if limits.ceiling ≤ m.attempt then do
      Program.log (event .warn "retry ceiling reached" topic m
        [attempt, ("retry_ceiling", .nat limits.ceiling.toNat), ("error", .plain f.message)])
      giveUp service limits topic m f
    else do
      Program.log (event .info "processing failed, leaving message for redelivery" topic m
        [attempt, ("error", .plain f.message)])
      return .retry f.kind f.detail

/-- Handles a message. -/
def handleWith {β : Type} (p : Processor β) (service : Service) (limits : Limits)
    (m : Message String) : Program Disposition :=
  match p.schema.parse m.body with
  | .error f => do
    Program.log (event .warn "invalid message body" p.topic m [("error", .plain f.message)])
    giveUp service limits p.topic m f
  | .ok body => do
    let outcome ← (p.process (m.withBody body)).within
    match outcome.getD (.error (.processing (timedOut "processing" limits.timeout))) with
    | .ok () => return .processed
    | .error f => afterFailure service limits p.topic m f

/-- The handler of a processor. -/
def of {β : Type} (p : Processor β) (service : Service) (limits : Limits) : Handler :=
  ⟨p.topic, handleWith p service limits⟩

end Handler

end DeadLetters
