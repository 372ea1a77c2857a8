import DeadLetters.DeadLetter

/-!
# Statistics

How many dead letters there are: in all, closed, still pending, by topic and by error name.
-/

namespace DeadLetters

structure Stats where
  total : Nat
  reprocessed : Nat
  pending : Nat
  byTopic : Dictionary Nat
  byError : Dictionary Nat

namespace Stats

/-- Pending are the others than the closed ones, and none if more are closed than there are. -/
def ofCounts (total reprocessed : Nat) (byTopic byError : Dictionary Nat) : Stats :=
  ⟨total, reprocessed, total - reprocessed, byTopic, byError⟩

/-- The statistics of nothing. -/
def zero : Stats := ofCounts 0 0 .empty .empty

/-- Statistics in JSON. -/
def record : Json.Record Stats where
  name := "DlqStats"
  fields := [.plain "totalMessages" .count, .plain "reprocessedMessages" .count,
    .plain "pendingMessages" .count, .plain "byTopicName" (.dictionary .count),
    .plain "byErrorType" (.dictionary .count)]
  row s := (s.total, s.reprocessed, s.pending, s.byTopic, s.byError, ())
  ofRow := fun (total, reprocessed, pending, byTopic, byError, _) =>
    { total, reprocessed, pending, byTopic, byError }
  ofRow_row _ := rfl

end Stats

end DeadLetters
