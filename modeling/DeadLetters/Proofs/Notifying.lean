import DeadLetters.Proofs.Alone
import DeadLetters.Proofs.Fate
import DeadLetters.Proofs.Json.Codec
import DeadLetters.Proofs.Stalling

/-!
# Giving up, whatever the transport does

A message of a topic with a name is stored when it is given up, if the store takes it.  The transport
is told first; whether it takes the notification, fails or says nothing makes no difference to what
is stored.  What it is told is what is stored.

    what is told of a dead letter reads back as its fields                    (parse_notification)
    giving up stores one dead letter, and tells of it                               (exists_giveUp)
    with any other transport the same is stored, up to id and time         (given_up_alike)
-/

namespace DeadLetters

open Program Store

/-- The dead letter that is to be stored of a message, but for its id and its time. -/
structure DeadLetter.Remains (l : DeadLetter) (payload : Payload) (f : Failure) (o : Origin) :
    Prop where
  pending : l.Pending
  messageId : l.messageId = if Text.trim o.messageId = "" then "<unknown>" else o.messageId
  topic : l.topic = o.topic
  errorName : l.errorName = f.kind.name
  errorMessage : l.errorMessage =
    if Text.trim f.detail = "" then f.kind.name else Text.trim f.detail
  retryCount : l.retryCount = o.retryCount
  payloadType : l.payloadType = payload.typeName
  payload : l.payload = payload.stored

/-- What a notification tells of a dead letter. -/
def DeadLetter.told (l : DeadLetter) : Json.Value :=
  .object [("errorMessage", .string l.errorMessage), ("errorName", .string l.errorName),
    ("failedAt", .number (.int l.failedAt.toInt)), ("originalMessageId", .string l.messageId),
    ("retryCount", .number (.int l.retryCount.toNat)), ("topicName", .string l.topic)]

/-- How the dead-letter topic is told of a dead letter: once, if there is a transport. -/
inductive Announces (env : Surroundings) (s : Service) (l : DeadLetter) : List Exchange → Prop
  | untold (h : s.binds = none) : Announces env s l []
  | told {text : String} (n : Nat) (h : s.binds.isSome = true)
      (htext : Json.parseValue text = .ok l.told) :
      Announces env s l
        [⟨.send s.deadLetterTopic text, (env.send n s.deadLetterTopic).answer⟩]

/-- A message is given up: one dead letter is stored, under the id that is returned, and the
dead-letter topic is told of it. -/
structure GivesUp (env : Surroundings) (s : Service) (w : World) (payload : Payload) (f : Failure)
    (o : Origin) (l : DeadLetter) (w' : World) : Prop where
  exchanges : ∃ t, Announces env s l t ∧
    w.Yields env (s.giveUp payload f o) (.ok l.id) (t ++ [⟨.store (.insert l), some (.ok ())⟩]) w'
  added : w'.store = w.store.added l
  remains : l.Remains payload f o
  fresh : ∃ n, l.id = env.freshId n
  failedAt : ∃ n, l.failedAt = env.clock n

/-! ## What is told -/

namespace Service

variable {payload : Payload} {f : Failure} {o : Origin} {id : String} {now : Int64}

theorem remains_draft (payload : Payload) (f : Failure) (o : Origin) (id : String) (now : Int64) :
    ((draft payload f o now).letter id now).Remains payload f o := by
  have blank : ∀ t : String, Text.trim t = "" ↔ Text.isBlankText t = true := Text.trim_eq_empty_iff
  refine ⟨⟨rfl, rfl, rfl⟩, ?_, rfl, rfl, ?_, rfl, rfl, rfl⟩
  · simp only [blank]
    rfl
  · simp only [blank]
    rfl

/-- Texts and integers come back from their text, and so does what is told in them. -/
theorem exact_told (l : DeadLetter) : l.told.Exact Json.depthLimit := by
  have text (t : String) : (Json.Value.string t).Exact 126 :=
    Json.Schema.exact_written (.text aString) rfl trivial
  have time : (Json.Value.number (.int l.failedAt.toInt)).Exact 126 :=
    Json.Schema.exact_written .int64 rfl trivial
  have count : (Json.Value.number (.int l.retryCount.toNat)).Exact 126 :=
    Json.Schema.exact_written .word32 rfl trivial
  refine Json.Value.exact_object_iff.2 ⟨(List.pairwise_map (f := Prod.fst)).1 ?_, ?_⟩
  · show ["errorMessage", "errorName", "failedAt", "originalMessageId", "retryCount",
      "topicName"].Pairwise (· < ·)
    decide
  · simp [text, time, count]

/-- A notification reads back as what the dead letter keeps. -/
theorem parse_notification (d : Draft) (id : String) (h : d.failedAt = some now) :
    Json.parseValue (notification d).text = .ok (d.letter id now).told := by
  have hvalue : notification d = (d.letter id now).told := by
    rw [notification, h]
    simp only [Entries.ofList, List.foldl_cons, List.foldl_nil, Entries.insert, String.reduceEq,
      String.reduceLT, if_true, if_false]
    rfl
  have hexact := exact_told (d.letter id now)
  rw [hvalue]
  exact Json.parseValue_text hexact.sound hexact.integral

end Service

/-! ## The call -/

namespace World

variable {env : Surroundings} {w : World} {payload : Payload} {f : Failure} {o : Origin}

/-- A draft that lacks nothing and has its time is stored. -/
theorem exists_store (service : Service) (ht : Taking env w.store) {d : Draft} {now : Int64}
    (hd : Service.missingFields d = []) (hnow : d.failedAt = some now) :
    ∃ n w', w.Yields env (service.store d) (.ok (env.freshId n))
      [⟨.store (.insert (d.letter (env.freshId n) now)), some (.ok ())⟩] w' ∧
      w'.store = w.store.added (d.letter (env.freshId n) now) := by
  obtain ⟨started, w₁, h₁, hs₁⟩ := exists_stopwatch env w
  obtain ⟨n, w₂, h₂, hs₂⟩ := exists_freshId env w₁
  obtain ⟨w₃, h₃, hs₃⟩ := exists_query (q := .insert (d.letter (env.freshId n) now))
    (fun _ => ht.insert _ _) w₂
  rw [hs₂, hs₁, ht.answer_insert rfl] at h₃ hs₃
  obtain ⟨w₄, h₄, hs₄⟩ := exists_logged env w₃ (Service.event .info "store" "stored dead letter"
    ([("id", .plain (env.freshId n)), ("message_id", .plain d.messageId),
      ("topic", .plain d.topic)] ++ [("error_name", .plain d.errorName),
        ("retry_count", .nat d.retryCount.toNat)]))
    (Except.ok (env.freshId n) : Except Failure String)
  have hinsert : w₁.Yields env (Service.insert d) (.ok (env.freshId n))
      [⟨.store (.insert (d.letter (env.freshId n) now)), some (.ok ())⟩] w₄ := by
    unfold Service.insert
    rw [hnow]
    exact h₂.after (h₃.before h₄)
  obtain ⟨w₅, h₅, hs₅⟩ : ∃ w', w.Yields env (service.store d) (.ok (env.freshId n))
      [⟨.store (.insert (d.letter (env.freshId n) now)), some (.ok ())⟩] w' ∧
      w'.store = w₄.store := by
    unfold Service.store
    rw [hd]
    exact h₁.observed hinsert
  exact ⟨n, w₅, h₅, hs₅.trans (hs₄.trans hs₃)⟩

/-- The transport is told, whatever it replies, and the store stays as it is. -/
theorem exists_notify (service : Service) (d : Draft) {now : Int64}
    (hnow : d.failedAt = some now) (w : World) :
    ∃ t w', w.Yields env (service.notify d) () t w' ∧
      (∀ id, Announces env service (d.letter id now) t) ∧ w'.store = w.store := by
  unfold Service.notify
  cases hb : service.binds with
  | none =>
    obtain ⟨w', h, hs⟩ := exists_said (lenient_aside.log ⟨.debug, "dlq::service",
      "no transport, skipping dead-letter notification", [("message_id", .plain d.messageId)]⟩)
      (ends_log _) w
    exact ⟨[], w', h, fun _ => .untold hb, hs⟩
  | some binds =>
    obtain ⟨n, w₁, h₁, hs₁⟩ :=
      exists_send env service.deadLetterTopic (Service.notification d).text w
    have told (id : String) : Announces env service (d.letter id now)
        [⟨.send service.deadLetterTopic (Service.notification d).text,
          (env.send n service.deadLetterTopic).answer⟩] :=
      .told n (by simp [hb]) (Service.parse_notification d id hnow)
    cases hr : (env.send n service.deadLetterTopic).answer.getD (.error service.notificationTimeout)
      with
    | ok _ =>
      refine ⟨_, w₁, h₁.before ?_, told, hs₁⟩
      rw [hr]
      exact yields_done env w₁ ()
    | error e =>
      obtain ⟨w₂, h₂, hs₂⟩ := exists_said ((lenient_aside.emit service.sink
        (.counter "dlq.notify.error" 1 [])).bind fun _ => lenient_aside.log (Service.event .warn
          "send_to_dlq" "dead-letter notification failed, storing anyway"
          [("message_id", .plain d.messageId), ("topic", .plain d.topic),
            ("dead_letter_topic", .plain service.deadLetterTopic), ("error", .plain e.message)]))
        ((ends_emit _ _).bind fun _ => ends_log _) w₁
      refine ⟨_, w₂, h₁.before ?_, told, hs₂.trans hs₁⟩
      rw [hr]
      exact h₂

/-- A message of a topic with a name is given up. -/
theorem exists_giveUp (service : Service) (payload : Payload) (f : Failure)
    (ho : Text.isBlankText o.topic = false) (ht : Taking env w.store) :
    ∃ l w', GivesUp env service w payload f o l w' := by
  obtain ⟨m, w₁, h₁, hs₁⟩ := exists_clock env w
  let d := Service.draft payload f o (env.clock m)
  obtain ⟨t, w₂, h₂, told, hs₂⟩ := @exists_notify env service d _ rfl w₁
  have hsame : w₂.store = w.store := hs₂.trans hs₁
  obtain ⟨n, w₃, h₃, hs₃⟩ :=
    exists_store service (hsame ▸ ht) (Service.missingFields_draft ho) (rfl : d.failedAt = _)
  refine ⟨d.letter (env.freshId n) (env.clock m), w₃, ⟨t, told _, h₁.after (h₂.bind h₃)⟩, ?_,
    Service.remains_draft payload f o _ _, ⟨n, rfl⟩, ⟨m, rfl⟩⟩
  rw [hs₃, hsame]

end World

/-- What is kept of a message does not depend on who keeps it. -/
theorem DeadLetter.Remains.unnamed_eq {l l' : DeadLetter} {payload : Payload} {f : Failure}
    {o : Origin} (h : l.Remains payload f o) (h' : l'.Remains payload f o) :
    l'.unnamed = l.unnamed := by
  rw [DeadLetter.unnamed, DeadLetter.unnamed, DeadLetter.mk.injEq]
  exact ⟨rfl, h'.messageId.trans h.messageId.symm, h'.topic.trans h.topic.symm,
    h'.errorName.trans h.errorName.symm, h'.errorMessage.trans h.errorMessage.symm, rfl,
    h'.retryCount.trans h.retryCount.symm,
    h'.pending.reprocessed.trans h.pending.reprocessed.symm,
    h'.pending.reprocessedAt.trans h.pending.reprocessedAt.symm,
    h'.pending.recoveryResult.trans h.pending.recoveryResult.symm,
    h'.payloadType.trans h.payloadType.symm, h'.payload.trans h.payload.symm⟩

/-- A message of a topic with a name that is given up where the store takes it is kept as one dead
letter, and the dead-letter topic is told what is kept.  Where the same message is given up with
another transport, whatever that replies, the same is kept, up to id and time. -/
theorem given_up_alike {env env' : Surroundings} {w w' : World} {o : Origin} (s s' : Service)
    (payload : Payload) (f : Failure) (ho : Text.isBlankText o.topic = false)
    (ht : Taking env w.store) (ht' : Taking env' w'.store) :
    ∃ l l' v v', GivesUp env s w payload f o l v ∧ GivesUp env' s' w' payload f o l' v' ∧
      l'.unnamed = l.unnamed := by
  obtain ⟨l, v, h⟩ := World.exists_giveUp s payload f ho ht
  obtain ⟨l', v', h'⟩ := World.exists_giveUp s' payload f ho ht'
  exact ⟨l, l', v, v', h, h', h.remains.unnamed_eq h'.remains⟩

/-- A message without an id and without a reason is kept with and without a transport that is never
heard of. -/
theorem given_up_alike_silent :
    ∃ l l' v v', GivesUp Router.calm (.ofConfig {}) (.new .fresh) (.text "no") (.processing " ")
        ⟨"", "t", 1⟩ l v ∧
      GivesUp mute .uploading (.new .fresh) (.text "no") (.processing " ") ⟨"", "t", 1⟩
        l' v' ∧
      l'.unnamed = l.unnamed :=
  given_up_alike (.ofConfig {}) .uploading (.text "no") (.processing " ") (by decide)
    (taking_fresh fun _ _ => rfl) (taking_fresh fun _ _ => rfl)

end DeadLetters
