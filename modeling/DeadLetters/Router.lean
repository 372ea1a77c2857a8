import DeadLetters.Handler

/-!
# Routing batches

A router hands each message of a batch to the handler of its topic and acknowledges it if its
disposition says so.  Messages of a topic without handler are acknowledged unprocessed.  The report
of a batch has one outcome a message, in order, and counts them.
-/

namespace DeadLetters

/-- What became of one message of a batch. -/
structure Outcome where
  messageId : String
  attempt : UInt32
  disposition : Disposition
  /-- Whether the transport confirmed the acknowledgement. -/
  acked : Bool

/-- An outcome as JSON text. -/
def Outcome.text (o : Outcome) : String :=
  String.ofList (Json.objectChars
    ([("messageId", Json.stringChars o.messageId),
        ("deliveryAttempt", Json.intChars o.attempt.toNat)]
      ++ o.disposition.members ++ [("acked", (Json.Value.bool o.acked).chars)]))

/-- What became of a batch.  No counter exceeds the number of outcomes, which are kept in memory, so
that none needs a width. -/
structure BatchReport where
  topic : String
  processed : Nat
  deadLettered : Nat
  retried : Nat
  unroutable : Nat
  /-- How many messages should have been acknowledged and were not. -/
  ackFailures : Nat
  outcomes : List Outcome

namespace BatchReport

/-- The report of a batch without messages. -/
def empty (topic : String) : BatchReport := ⟨topic, 0, 0, 0, 0, 0, []⟩

/-- Counts an outcome by its disposition. -/
def count (r : BatchReport) : Disposition → BatchReport
  | .processed => { r with processed := r.processed + 1 }
  | .deadLettered _ _ => { r with deadLettered := r.deadLettered + 1 }
  | .retry _ _ => { r with retried := r.retried + 1 }
  | .unroutable => { r with unroutable := r.unroutable + 1 }

/-- Adds an outcome: it is counted by its disposition, and again if its message should have been
acknowledged and was not. -/
def push (r : BatchReport) (o : Outcome) : BatchReport :=
  let r := r.count o.disposition
  let r := if o.disposition.settles && !o.acked then { r with ackFailures := r.ackFailures + 1 }
    else r
  { r with outcomes := r.outcomes ++ [o] }

/-- The report of a batch with these outcomes, added one after another. -/
def ofOutcomes (topic : String) (os : List Outcome) : BatchReport := os.foldl push (empty topic)

/-- A report as JSON text. -/
def text (r : BatchReport) : String :=
  let count (n : Nat) := Json.intChars n
  String.ofList (Json.objectChars
    [("topic", Json.stringChars r.topic), ("processed", count r.processed),
      ("deadLettered", count r.deadLettered), ("retried", count r.retried),
      ("unroutable", count r.unroutable), ("ackFailures", count r.ackFailures),
      ("outcomes", Json.arrayChars (r.outcomes.map fun o => o.text.toList))])

/-- Adding an outcome moves the counter of its disposition by one, and the counter of failures if
its message should have been acknowledged and was not. -/
theorem push_eq (r : BatchReport) (o : Outcome) :
    r.push o =
      { topic := r.topic
        processed := r.processed + if o.disposition matches .processed then 1 else 0
        deadLettered := r.deadLettered + if o.disposition matches .deadLettered _ _ then 1 else 0
        retried := r.retried + if o.disposition matches .retry _ _ then 1 else 0
        unroutable := r.unroutable + if o.disposition matches .unroutable then 1 else 0
        ackFailures := r.ackFailures + if o.disposition.settles && !o.acked then 1 else 0
        outcomes := r.outcomes ++ [o] } := by
  obtain ⟨id, attempt, d, acked⟩ := o
  cases d <;> cases acked <;> rfl

theorem topic_foldl_push (r : BatchReport) (os : List Outcome) :
    (os.foldl push r).topic = r.topic := by
  induction os generalizing r with
  | nil => rfl
  | cons o os ih => rw [List.foldl_cons, ih, push_eq]

/-- Outcomes are kept in the order in which they come. -/
theorem outcomes_foldl_push (r : BatchReport) (os : List Outcome) :
    (os.foldl push r).outcomes = r.outcomes ++ os := by
  induction os generalizing r with
  | nil => exact (List.append_nil _).symm
  | cons o os ih => rw [List.foldl_cons, ih, push_eq, List.append_assoc, List.singleton_append]

/-- A report is about its topic. -/
@[simp] theorem topic_ofOutcomes (topic : String) (os : List Outcome) :
    (ofOutcomes topic os).topic = topic := topic_foldl_push _ os

/-- A report tells the outcomes that were added to it, in order. -/
@[simp] theorem outcomes_ofOutcomes (topic : String) (os : List Outcome) :
    (ofOutcomes topic os).outcomes = os := outcomes_foldl_push _ os

end BatchReport

structure Router where
  /-- The handlers, one a topic. -/
  handlers : Dictionary (Message String → Program Disposition)
  sink : Sink
  /-- How many seconds an acknowledgement may take. -/
  ackTimeout : Nat

namespace Router

def event (level : Log.Level) (message : String) (fields : List (String × Log.Shown)) :
    Log.Event :=
  ⟨level, "dlq::router", message, fields⟩

/-- A router without handlers. -/
def empty (sink : Sink) (ackTimeout : Nat) : Router := ⟨.empty, sink, ackTimeout⟩

/-- Registers a handler, in place of one for the same topic. -/
def register (r : Router) (h : Handler) : Program Router := do
  if (r.handlers.find? h.topic).isSome then
    Program.log (event .warn "replaced existing handler" [("topic", .plain h.topic)])
  return { r with handlers := r.handlers.insert h.topic h.handle }

def registerAll : List Handler → Router → Program Router
  | [], r => return r
  | h :: hs, r => do registerAll hs (← r.register h)

/-- The topics with a handler, in order. -/
def topics (r : Router) : List String := r.handlers.keys

def count (r : Router) (name topic : String) : Program Unit :=
  Program.emit r.sink (.counter ("router.message." ++ name) 1 [("topic", topic)])

/-- Acknowledges a message; tells whether the transport confirmed it. -/
def acknowledge (r : Router) (topic : String) (m : Message String) : Program Bool := do
  let answer ← (Program.acknowledge topic m).within
  let late := Transport.Error.acknowledge m.id ("timed out after " ++ toString r.ackTimeout ++ "s")
  match answer.getD (.error late) with
  | .ok () =>
    r.count "acked" topic
    return true
  | .error e =>
    Program.log (event .error "failed to acknowledge message"
      [("topic", .quoted topic), ("message_id", .plain m.id), ("error", .plain e.message)])
    r.count "ack_error" topic
    return false

/-- Acknowledges a message if its disposition says so. -/
def settle (r : Router) (topic : String) (m : Message String) :
    Disposition → Program Bool
  | .retry _ _ => do
    r.count "retried" topic
    return false
  | .deadLettered _ _ => do
    r.count "dead_lettered" topic
    r.acknowledge topic m
  | .processed | .unroutable => r.acknowledge topic m

/-- Handles one message of a topic and settles it. -/
def deliver (r : Router) (topic : String) (m : Message String) : Program Outcome := do
  let disposition ← match r.handlers.find? topic with
    | some handle => handle m
    | none => pure .unroutable
  let acked ← r.settle topic m disposition
  return ⟨m.id, m.attempt, disposition, acked⟩

/-- Handles messages one after another. -/
def deliverAll (r : Router) (topic : String) : List (Message String) → Program (List Outcome)
  | [] => return []
  | m :: ms => do
    let o ← r.deliver topic m
    let os ← r.deliverAll topic ms
    return o :: os

/-- Handles a batch. -/
def processBatch (r : Router) (topic : String) (ms : List (Message String)) :
    Program BatchReport := do
  if (r.handlers.find? topic).isNone then
    Program.log (event .warn
      "no handler registered for topic, acknowledging without processing"
      [("topic", .quoted topic), ("messages", .nat ms.length)])
  let report := BatchReport.ofOutcomes topic (← r.deliverAll topic ms)
  Program.log (event .info "batch handled"
    [("topic", .quoted topic), ("processed", .nat report.processed),
      ("dead_lettered", .nat report.deadLettered), ("retried", .nat report.retried),
      ("unroutable", .nat report.unroutable), ("ack_failures", .nat report.ackFailures)])
  return report

end Router

end DeadLetters
