import DeadLetters.Service.Basic
import DeadLetters.Stats

/-!
# Keeping dead letters

Storing, listing, counting and purging.  Where the table of dead letters is missing there are none:
listing is empty, the statistics are zero and a purge removes nothing.
-/

namespace DeadLetters.Service

/-! ## Storing -/

/-- The names of the required texts that are blank. -/
def missingFields (d : Draft) : List String :=
  (d.required.filter fun f => Text.isBlankText f.2).map (·.1)

/-- Stores a draft that lacks nothing. -/
def insert (d : Draft) : Program (Except Failure String) := do
  let id ← Program.freshId
  let failedAt ← match d.failedAt with
    | some t => pure t
    | none => Program.clock
  let l := d.letter id failedAt
  let about := [("id", .plain l.id), ("message_id", .plain l.messageId), ("topic", .plain l.topic)]
  let answer ← Program.query (.insert l)
  orFail answer
    (fun e => event .error "store" "failed to persist dead letter"
      (about ++ [("error", .plain e.message)]))
    fun _ => do
      Program.log (event .info "store" "stored dead letter"
        (about ++ [("error_name", .plain l.errorName), ("retry_count", .nat l.retryCount.toNat)]))
      return .ok l.id

/-- Stores a draft, unless it lacks a required text, and returns its new id. -/
def store (s : Service) (d : Draft) : Program (Except Failure String) :=
  s.observed "store" do
    match missingFields d with
    | [] => insert d
    | missing =>
      let f := Failure.validation ("missing fields: " ++ ", ".intercalate missing)
      Program.log (event .warn "store" "rejected dead letter"
        [("message_id", .plain d.messageId), ("topic", .plain d.topic),
          ("error", .plain f.message)])
      return .error f

/-! ## Listing -/

/-- The dead letters that a filter selects, the latest failure first. -/
def list (s : Service) (f : Filter) : Program (Except Failure (List DeadLetter)) :=
  s.observed "list" do
    let answer ← Program.query (.list f)
    match answer with
    | .ok ls => return .ok ls
    | .error e =>
      if e.failure.isMissingTable then
        Program.log (event .warn "list" "dead_letters table does not exist yet" [])
        return .ok []
      else
        Program.log (event .error "list" "failed to list dead letters"
          [("filter", .plain f.form), ("error", .plain e.failure.message)])
        return .error e.failure

/-! ## Statistics -/

/-- Goes on with the answer of the store; an error ends the operation silently. -/
def ifAnswered {α β : Type} (answer : Except Store.Error α)
    (next : α → Program (Except Failure β)) : Program (Except Failure β) :=
  match answer with
  | .ok a => next a
  | .error e => return .error e.failure

/-- Counts by four queries, one after another. -/
def collect : Program (Except Failure Stats) := do
  ifAnswered (← Program.query (.count {})) fun total => do
    ifAnswered (← Program.query (.count { reprocessed := some true })) fun reprocessed => do
      ifAnswered (← Program.query .countByTopic) fun byTopic => do
        ifAnswered (← Program.query .countByError) fun byError =>
          return .ok (.ofCounts total reprocessed byTopic byError)

/-- Reports how many dead letters are pending. -/
def reportPending (s : Service) (stats : Stats) : Program (Except Failure Stats) := do
  Program.emit s.sink (.gauge "dlq.pending" stats.pending.toFloat [])
  return .ok stats

/-- Statistics of all dead letters. -/
def stats (s : Service) : Program (Except Failure Stats) :=
  s.observed "stats" do
    let result ← collect
    match result with
    | .ok stats => s.reportPending stats
    | .error f =>
      if f.isMissingTable then
        Program.log (event .warn "stats" "dead_letters table does not exist yet" [])
        s.reportPending .zero
      else
        Program.log (event .error "stats" "failed to collect dead letter stats"
          [("error", .plain f.message)])
        return .error f

/-! ## Purging -/

/-- Warns of a purge that matches more than the threshold. -/
def warnOfPurge (s : Service) (f : Filter) (matching : Nat) : Program Unit :=
  if s.purgeWarningThreshold.toNat < matching then do
    Program.emit s.sink (.counter "dlq.purge.large" 1 [])
    Program.log (event .warn "purge" "purging a large number of dead letters"
      [("matching", .nat matching), ("threshold", .nat s.purgeWarningThreshold.toNat),
        ("filter", .plain f.form)])
  else return ()

/-- Deletes what a filter selects. -/
def delete (f : Filter) : Program (Except Failure Nat) := do
  orFail (← Program.query (.delete f))
    (fun e => event .error "purge" "failed to delete dead letters"
      [("filter", .plain f.form), ("error", .plain e.message)])
    fun deleted => do
      Program.log (event .info "purge" "purged dead letters" [("deleted", .nat deleted)])
      return .ok deleted

/-- Deletes what a filter selects, whatever its window, and returns how many there were. -/
def purge (s : Service) (f : Filter) : Program (Except Failure Nat) :=
  s.observed "purge" do
    let answer ← Program.query (.count f)
    match answer with
    | .ok matching =>
      s.warnOfPurge f matching
      delete f
    | .error e =>
      if e.failure.isMissingTable then
        Program.log
          (event .warn "purge" "dead_letters table does not exist yet, nothing purged" [])
        return .ok 0
      else
        Program.log (event .error "purge" "failed to count dead letters"
          [("filter", .plain f.form), ("error", .plain e.failure.message)])
        return .error e.failure

end DeadLetters.Service
