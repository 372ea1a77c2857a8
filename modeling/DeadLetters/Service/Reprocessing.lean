import DeadLetters.Service.Basic

/-!
# Reprocessing dead letters

Reprocessing replays a pending dead letter and closes it with one result, whatever the replay ends
in.  A dead letter that is closed keeps its first result and is not replayed again.
-/

namespace DeadLetters.Service

/-! ## Closing -/

/-- The result of a dead letter that could not be closed because it is closed already. -/
def firstResult (id : String) : Program (Except Failure (String × Bool)) := do
  orFail (← Program.query (.get id))
    (fun e => event .error "mark_reprocessed" "failed to load dead letter"
      [("id", .quoted id), ("error", .plain e.message)])
    fun found => do
      match found with
      | none =>
        Program.log (event .warn "mark_reprocessed" "dead letter not found" [("id", .quoted id)])
        return .error (.notFound id)
      | some l =>
        Program.log (event .warn "mark_reprocessed"
          "dead letter was already reprocessed, keeping its first result" [("id", .quoted id)])
        return .ok (l.recoveryResult.getD "", false)

/-- Closes a dead letter if it is pending.  Returns the result that is stored, and whether it is the
one given here. -/
def close (id result : String) : Program (Except Failure (String × Bool)) := do
  let now ← Program.clock
  orFail (← Program.query (.mark id result now))
    (fun e => event .error "mark_reprocessed" "failed to mark dead letter"
      [("id", .quoted id), ("error", .plain e.message)])
    fun (changed : Nat) => if 0 < changed then return .ok (result, true) else firstResult id

/-- Records the result of a dead letter; a closed one keeps its first result. -/
def markReprocessed (s : Service) (id result : String) : Program (Except Failure Unit) :=
  s.observed "mark_reprocessed" do
    return (← close id result).map fun _ => ()

/-! ## Replaying -/

/-- Publishes a body on the topic of its dead letter and says what came of it. -/
def publish (s : Service) (l : DeadLetter) (body : String) : Program String := do
  match (s.binds.map fun binds => binds l.topic).getD false with
  | false =>
    Program.log (event .warn "reprocess" "no transport binding for replay"
      [("id", .plain l.id), ("topic", .quoted l.topic)])
    return "Replay binding unavailable for topic " ++ l.topic
  | true =>
    let sent ← Program.send l.topic body
    match sent with
    | .ok () =>
      Program.emit s.sink (.counter "dlq.replay.published" 1 [("topic", l.topic)])
      return "Replayed to topic " ++ l.topic
    | .error e =>
      Program.log (event .error "reprocess" "replay publish failed"
        [("id", .plain l.id), ("topic", .quoted l.topic), ("error", .plain e.message)])
      return "Replay publish failed: " ++ e.message

/-- Replays a payload and says what came of it. -/
def attempt (s : Service) (l : DeadLetter) (payload : Json.Value) : Program String := do
  match s.replay.prepare l.topic payload with
  | none => return "Unsupported topic: " ++ l.topic
  | some (.error reason) =>
    Program.log (event .warn "reprocess" "payload no longer passes the topic schema"
      [("id", .quoted l.id), ("topic", .plain l.topic), ("error", .plain reason)])
    return "Replay validation failed: " ++ reason
  | some (.ok body) => s.publish l body

/-- Closes a dead letter whose payload cannot be read; fails unless another call closed it first. -/
def closeUnreadable (id result : String) : Program (Except Failure String) := do
  match ← close id result with
  | .error f => return .error f
  | .ok (_, true) => return .error (.validation result)
  | .ok (stored, false) => return .ok stored

/-- Replays and closes a pending dead letter. -/
def replayAndClose (s : Service) (id : String) (l : DeadLetter) :
    Program (Except Failure String) := do
  match Json.parseValue l.payload with
  | .error e =>
    Program.log (event .warn "reprocess" "stored payload cannot be replayed"
      [("id", .quoted id), ("topic", .plain l.topic), ("payload_type", .plain l.payloadType),
        ("error", .plain e.message)])
    closeUnreadable id ("Payload deserialization failed: " ++ e.message)
  | .ok payload =>
    let result ← s.attempt l payload
    match ← close id result with
    | .error f => return .error f
    | .ok (stored, _) =>
      Program.log (event .info "reprocess" "dead letter reprocessed"
        [("id", .quoted id), ("topic", .plain l.topic), ("result", .plain stored)])
      return .ok stored

/-- Replays a dead letter and returns the result that it is closed with. -/
def reprocess (s : Service) (id : String) : Program (Except Failure String) :=
  s.observed "reprocess" do
    orFail (← Program.query (.get id))
      (fun e => event .error "reprocess" "failed to load dead letter"
        [("id", .quoted id), ("error", .plain e.message)])
      fun found => do
        match found with
        | none =>
          Program.log (event .warn "reprocess" "dead letter not found" [("id", .quoted id)])
          return .error (.notFound id)
        | some l =>
          if l.reprocessed then
            Program.log (event .info "reprocess" "dead letter already reprocessed"
              [("id", .quoted id)])
            return .ok (l.recoveryResult.getD "")
          else s.replayAndClose id l

/-- What a batch says of one of its dead letters. -/
def entry : Except Failure String → String
  | .ok result => result
  | .error f => "Error: " ++ f.message

/-- Reprocesses dead letters one after another; a failure does not keep the others from theirs. -/
def reprocessAll (s : Service) (ids : List String) : Program (Dictionary String) :=
  go ids .empty
where
  go : List String → Dictionary String → Program (Dictionary String)
    | [], results => return results
    | id :: ids, results => do
      let result ← s.reprocess id
      go ids (results.insert id (entry result))

end DeadLetters.Service
