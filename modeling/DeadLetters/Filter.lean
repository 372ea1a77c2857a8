import DeadLetters.DeadLetter
import DeadLetters.Text.Quoted

/-!
# Filters

A filter selects dead letters by conditions that must all hold, and cuts a window out of what they
select.  Only listing looks at the window.
-/

namespace DeadLetters

structure Filter where
  topic : Option String := none
  errorName : Option String := none
  reprocessed : Option Bool := none
  /-- The earliest time of failure. -/
  start : Option Int64 := none
  /-- The latest time of failure. -/
  finish : Option Int64 := none
  limit : UInt32 := 100
  offset : UInt32 := 0
  deriving DecidableEq

namespace Filter

/-- All dead letters of a topic. -/
def ofTopic (topic : String) : Filter := { topic := some topic }

/-- A condition that holds of everything if it is not given. -/
def holds {α : Type} (condition : Option α) (test : α → Bool) : Bool :=
  match condition with
  | none => true
  | some a => test a

/-- Whether a dead letter meets all conditions. -/
def selects (f : Filter) (l : DeadLetter) : Bool :=
  holds f.topic (l.topic == ·) && holds f.errorName (l.errorName == ·)
    && holds f.reprocessed (l.reprocessed == ·) && holds f.start (· ≤ l.failedAt)
    && holds f.finish (l.failedAt ≤ ·)

/-- The part of a list that lies in the window. -/
def window {α : Type} (f : Filter) (as : List α) : List α :=
  (as.drop f.offset.toNat).take f.limit.toNat

/-- A filter in JSON. -/
def record : Json.Record Filter where
  name := "DlqFilter"
  fields := [.orElse "topicName" (.nullable (.text aString)) none,
    .orElse "errorType" (.nullable (.text aString)) none,
    .orElse "reprocessed" (.nullable .bool) none, .orElse "startDate" (.nullable .int64) none,
    .orElse "endDate" (.nullable .int64) none, .orElse "limit" .word32 (100 : UInt32),
    .orElse "offset" .word32 (0 : UInt32)]
  row f := (f.topic, f.errorName, f.reprocessed, f.start, f.finish, f.limit, f.offset, ())
  ofRow := fun (topic, errorName, reprocessed, start, finish, limit, offset, _) =>
    { topic, errorName, reprocessed, start, finish, limit, offset }
  ofRow_row _ := rfl

/-- A filter as log lines show it. -/
def form (f : Filter) : String :=
  let bool (b : Bool) := if b then "true" else "false"
  let time (t : Int64) := toString t.toInt
  "DlqFilter \x7b topic_name: " ++ Text.optional Text.quoted f.topic
    ++ ", error_type: " ++ Text.optional Text.quoted f.errorName
    ++ ", reprocessed: " ++ Text.optional bool f.reprocessed
    ++ ", start_date: " ++ Text.optional time f.start
    ++ ", end_date: " ++ Text.optional time f.finish
    ++ ", limit: " ++ toString f.limit.toNat ++ ", offset: " ++ toString f.offset.toNat ++ " \x7d"

end Filter

end DeadLetters
