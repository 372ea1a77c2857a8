import DeadLetters.Config
import DeadLetters.Program
import DeadLetters.Replay

/-!
# The dead-letter service

The service keeps, lists, counts, replays and purges dead letters.  The store is the source of
truth: what a queue does with a notification or a replay never decides whether a dead letter exists.

Every operation is observed once: its duration is reported and then its success, or its error under
the kind of the failure.
-/

namespace DeadLetters

structure Service where
  /-- Which topics the transport binds, if there is a transport. -/
  binds : Option (String → Bool)
  replay : Replay
  sink : Sink
  /-- The topic that is told of every dead letter. -/
  deadLetterTopic : String
  purgeWarningThreshold : UInt64
  /-- How many seconds a notification may take. -/
  operationTimeout : UInt64

namespace Service

/-- A service without transport and without replay. -/
def ofConfig (c : Config) : Service where
  binds := none
  replay := .none
  sink := .logged
  deadLetterTopic := c.deadLetterTopic
  purgeWarningThreshold := c.purgeWarningThreshold
  operationTimeout := c.operationTimeout

/-- A log event of an operation. -/
def event (level : Log.Level) (operation message : String)
    (fields : List (String × Log.Shown)) : Log.Event :=
  ⟨level, "dlq::service", message, ("operation", .quoted operation) :: fields⟩

/-- Reports a finished operation. -/
def report {α : Type} (s : Service) (operation : String) (started : Nat)
    (result : Except Failure α) : Program Unit := do
  let stopped ← Program.stopwatch
  Program.emit s.sink (.timing ("dlq." ++ operation ++ ".duration") (stopped - started) [])
  match result with
  | .ok _ => Program.emit s.sink (.counter ("dlq." ++ operation ++ ".success") 1 [])
  | .error f =>
    Program.emit s.sink (.counter ("dlq." ++ operation ++ ".error") 1 [("kind", f.kind.name)])

/-- Runs an operation and reports it. -/
def observed {α : Type} (s : Service) (operation : String)
    (body : Program (Except Failure α)) : Program (Except Failure α) := do
  let started ← Program.stopwatch
  let result ← body
  s.report operation started result
  return result

/-- Asks the store; an error is logged and ends the operation. -/
def orFail {α β : Type} (answer : Except Store.Error α) (complain : Store.Error → Log.Event)
    (next : α → Program (Except Failure β)) : Program (Except Failure β) :=
  match answer with
  | .ok a => next a
  | .error e => do
    Program.log (complain e)
    return .error e.failure

end Service

end DeadLetters
