import DeadLetters.Proofs.Alone
import DeadLetters.Proofs.Lifecycle
import DeadLetters.Proofs.Republishing

/-!
# How a replay turns out

Reprocessing alone does one of three things.  An id that is not there is reported, a dead letter
that is closed returns its result, and a pending one is closed: with the first result that applies,
by one update, and with nothing else in the store changed.  It is published in two of the six
turnouts only, and then once.

    the first that applies                                               (Service.turnout)
    what is returned, exchanged and changed in each case                    (Reprocesses)
    reprocess does that in every state that operations reach           (reprocess_prescribed)
-/

namespace DeadLetters

open Program Store

/-! ## The reference -/

/-- What comes of the replay of a pending dead letter. -/
inductive Turnout where
  /-- The stored payload cannot be read. -/
  | unreadable (e : Json.Error)
  /-- The topic may not be replayed onto. -/
  | unsupported
  /-- The body does not pass the schema of the topic. -/
  | refused (reason : String)
  /-- There is no transport, or it does not bind the topic. -/
  | unbound
  | unpublished (body : String) (e : Transport.Error)
  | published (body : String)

namespace Turnout

/-- The result that a dead letter of the topic is closed with. -/
def result (topic : String) : Turnout → String
  | unreadable e => "Payload deserialization failed: " ++ e.message
  | unsupported => "Unsupported topic: " ++ topic
  | refused reason => "Replay validation failed: " ++ reason
  | unbound => "Replay binding unavailable for topic " ++ topic
  | unpublished _ e => "Replay publish failed: " ++ e.message
  | published _ => "Replayed to topic " ++ topic

def returned (topic : String) : Turnout → Except Failure String
  | unreadable e => .error (.validation (result topic (unreadable e)))
  | o => .ok (o.result topic)

/-- What is sent, and how it was answered. -/
def sends (topic : String) : Turnout → List Exchange
  | unpublished body e => [⟨.send topic body, some (.error e)⟩]
  | published body => [⟨.send topic body, some (.ok ())⟩]
  | unreadable _ | unsupported | refused _ | unbound => []

end Turnout

namespace Service

/-- Whether there is a transport, and it binds the topic. -/
def bound (s : Service) (topic : String) : Bool :=
  match s.binds with
  | none => false
  | some binds => binds topic

/-- The turnout of publishing a body, by the reply of the transport. -/
def publishing (s : Service) (topic body : String) : Except Transport.Error Unit → Turnout
  | .ok () => if s.bound topic then .published body else .unbound
  | .error e => if s.bound topic then .unpublished body e else .unbound

/-- The first turnout that applies, by the reply of the transport. -/
def turnout (s : Service) (l : DeadLetter) (reply : Except Transport.Error Unit) : Turnout :=
  match Json.parseValue l.payload with
  | .error e => .unreadable e
  | .ok payload =>
    match s.replay.prepare l.topic payload with
    | none => .unsupported
    | some (.error reason) => .refused reason
    | some (.ok body) => s.publishing l.topic body reply

theorem bound_eq (s : Service) (topic : String) :
    s.bound topic = (s.binds.map fun binds => binds topic).getD false := by
  unfold bound
  cases s.binds <;> rfl

theorem publishing_of_not_bound {s : Service} {topic body : String}
    {reply : Except Transport.Error Unit} (h : s.bound topic = false) :
    s.publishing topic body reply = .unbound := by
  cases reply <;> simp [publishing, h]

/-- What can be read does not fail. -/
theorem returned_turnout {s : Service} {l : DeadLetter} {payload : Json.Value}
    (h : Json.parseValue l.payload = .ok payload) (reply : Except Transport.Error Unit) :
    (s.turnout l reply).returned l.topic = .ok ((s.turnout l reply).result l.topic) := by
  simp only [turnout, h]
  split
  · rfl
  · rfl
  · unfold publishing
    repeat' split
    all_goals rfl

/-- How reprocessing goes on with what it has found. -/
def goesOn (s : Service) (id : String) : Option DeadLetter → Program (Except Failure String)
  | none => (log (event .warn "reprocess" "dead letter not found" [("id", .quoted id)])).bind
      fun _ => done (.error (.notFound id))
  | some l =>
    if l.reprocessed then
      (log (event .info "reprocess" "dead letter already reprocessed" [("id", .quoted id)])).bind
        fun _ => done (.ok (l.recoveryResult.getD ""))
    else s.replayAndClose id l

theorem goesOn_pending (s : Service) {id : String} {l : DeadLetter} (h : l.reprocessed = false) :
    s.goesOn id (some l) = s.replayAndClose id l := by
  simp [goesOn, h]

theorem goesOn_closed (s : Service) {id result : String} {l : DeadLetter}
    (h : l.reprocessed = true) (hresult : l.recoveryResult = some result) :
    s.goesOn id (some l) = (log (event .info "reprocess" "dead letter already reprocessed"
      [("id", .quoted id)])).bind fun _ => done (.ok result) := by
  simp [goesOn, h, hresult]

end Service

/-- What reprocessing an id does: to the rows at first, what it returns, what it exchanges with the
store and the queues, and the rows at last. -/
inductive Reprocesses (env : Surroundings) (s : Service) (id : String) :
    List Row → Except Failure String → List Exchange → List Row → Prop
  | absent {rows : List Row} (h : ∀ x ∈ rows, x.letter.id ≠ id) :
      Reprocesses env s id rows (.error (.notFound id)) [⟨.store (.get id), some (.ok none)⟩] rows
  | closed {rows : List Row} {l : DeadLetter} {result : String} (h : { letter := l } ∈ rows)
      (hid : l.id = id) (hl : l.Terminal) (hresult : l.recoveryResult = some result) :
      Reprocesses env s id rows (.ok result) [⟨.store (.get id), some (.ok (some l))⟩] rows
  | pending {before behind : List Row} {l : DeadLetter} {reply : Except Transport.Error Unit}
      {o : Turnout} (m n : Nat) (hid : l.id = id) (hl : l.Pending)
      (hreply : (env.send m l.topic).answer = some reply) (ho : s.turnout l reply = o) :
      Reprocesses env s id (before ++ { letter := l } :: behind) (o.returned l.topic)
        (⟨.store (.get id), some (.ok (some l))⟩ :: o.sends l.topic ++
          [⟨.store (.mark id (o.result l.topic) (env.clock n)), some (.ok (1 : Nat))⟩])
        (before ++ { letter := l.close (o.result l.topic) (env.clock n) } :: behind)

/-- The transport does not keep anybody waiting. -/
def Surroundings.Replies (env : Surroundings) : Prop := ∀ n topic, env.send n topic ≠ .silent

theorem Surroundings.Replies.exists_answer {env : Surroundings} (h : env.Replies) (n : Nat)
    (topic : String) : ∃ reply, (env.send n topic).answer = some reply := by
  cases hr : env.send n topic with
  | accepts => exact ⟨_, rfl⟩
  | fails reason => exact ⟨_, rfl⟩
  | silent => exact absurd hr (h n topic)

/-! ## The store -/

section

variable {s : Store} {rows before behind : List Row} {l : DeadLetter} {id result : String}
  {now : Int64}

/-- An orderly row is a dead letter that can be read. -/
theorem Orderly.eq_row (h : Orderly rows) {x : Row} (hx : x ∈ rows) : x = { letter := x.letter } := by
  have hlegible := h.legible x hx
  obtain ⟨l, legible⟩ := x
  cases hlegible
  rfl

/-- The other rows have other ids. -/
theorem Orderly.ne_of_split (h : Orderly (before ++ { letter := l } :: behind)) {x : Row}
    (hx : x ∈ before ∨ x ∈ behind) : x.letter.id ≠ l.id := by
  have hn := h.nodup
  rw [List.map_append, List.map_cons, List.nodup_append, List.nodup_cons] at hn
  obtain ⟨-, ⟨hbehind, -⟩, hbefore⟩ := hn
  rcases hx with hx | hx
  · exact hbefore _ (List.mem_map_of_mem hx) _ List.mem_cons_self
  · intro heq
    exact hbehind (heq ▸ List.mem_map_of_mem (f := fun x : Row => x.letter.id) hx)

theorem not_isPending_of_ne {x : Row} (h : x.letter.id ≠ id) : isPending id x = false := by
  rw [Bool.eq_false_iff]
  intro hp
  exact h (Row.isPending_iff.1 hp).1

/-- Closing a pending dead letter changes its row, and no other. -/
theorem Orderly.answer_mark (h : Orderly (before ++ { letter := l } :: behind)) (hl : l.Pending)
    (hs : s.letters = some (before ++ { letter := l } :: behind)) (hc : s.closed = false)
    (hf : s.faults.update = false) :
    s.answer (.mark l.id result now) = (.ok (1 : Nat),
      { s with letters := some (before ++ { letter := l.close result now } :: behind) }) := by
  have hpending : isPending l.id ({ letter := l } : Row) = true :=
    Row.isPending_iff.2 ⟨rfl, hl.reprocessed⟩
  have others : ∀ x, x ∈ before ∨ x ∈ behind → isPending l.id x = false :=
    fun x hx => not_isPending_of_ne (h.ne_of_split hx)
  have kept : ∀ rs : List Row, (∀ x ∈ rs, isPending l.id x = false) →
      rs.map (Row.close l.id result now) = rs ∧ rs.countP (isPending l.id) = 0 := by
    intro rs hrs
    refine ⟨?_, List.countP_eq_zero.2 fun x hx => by simp [hrs x hx]⟩
    exact (List.map_congr_left fun x hx => Row.close_of_not_isPending (hrs x hx)).trans
      (List.map_id' rs)
  obtain ⟨hbefore, hnone⟩ := kept before fun x hx => others x (.inl hx)
  obtain ⟨hbehind, hnone'⟩ := kept behind fun x hx => others x (.inr hx)
  refine answer_eq_ok_iff.2 ⟨hc, mark_eq_ok_iff.2 ⟨_, hs, ?_, fun _ => hf, ?_⟩⟩
  · rw [List.countP_append, List.countP_cons, hnone, hnone', hpending]
    rfl
  · rw [List.map_append, List.map_cons, hbefore, hbehind, Row.close_of_isPending hpending]

/-- What is found under an id, in rows that are in order. -/
theorem Orderly.answer_get (h : Orderly rows) (hs : s.letters = some rows)
    (hc : s.closed = false) (id : String) :
    ((∀ x ∈ rows, x.letter.id ≠ id) ∧ (s.answer (.get id)).1 = .ok none) ∨
      ∃ l, ({ letter := l } : Row) ∈ rows ∧ l.id = id ∧
        (s.answer (.get id)).1 = .ok (some l) := by
  have found : ∀ o, s.get id = .ok o → (s.answer (.get id)).1 = .ok o := by
    intro o ho
    have hok : s.answer (.get id) = (.ok o, s) := by
      refine answer_eq_ok_iff.2 ⟨hc, ?_⟩
      rw [perform, ho]
      rfl
    rw [hok]
  cases hfind : rows.find? (hasId id) with
  | none =>
    have hnone : ∀ x ∈ rows, x.letter.id ≠ id := by simpa [hasId] using hfind
    exact .inl ⟨hnone, found none (get_eq_ok_iff.2 ⟨rows, hs, .inl ⟨hnone, rfl⟩⟩)⟩
  | some x =>
    have hx := List.mem_of_find?_eq_some hfind
    refine .inr ⟨x.letter, ?_, by simpa [hasId] using List.find?_some hfind, ?_⟩
    · rw [← h.eq_row hx]
      exact hx
    · exact found _ (get_eq_ok_iff.2 ⟨rows, hs, .inr ⟨x, hfind, h.legible x hx, rfl⟩⟩)

end

/-! ## The call -/

namespace World

variable {env : Surroundings} {w : World} {service : Service} {before behind : List Row}
  {l : DeadLetter}

/-- Publishing comes to its turnout. -/
theorem exists_publish (service : Service) (l : DeadLetter) (body : String)
    (hreply : env.Replies) (w : World) :
    ∃ m reply w', (env.send m l.topic).answer = some reply ∧
      w.Yields env (service.publish l body)
        ((service.publishing l.topic body reply).result l.topic)
        ((service.publishing l.topic body reply).sends l.topic) w' ∧ w'.store = w.store := by
  unfold Service.publish
  cases hb : (service.binds.map fun binds => binds l.topic).getD false with
  | false =>
    obtain ⟨reply, hr⟩ := hreply.exists_answer 0 l.topic
    obtain ⟨w', hw', hs⟩ := exists_logged env w (Service.event .warn "reprocess"
      "no transport binding for replay" [("id", .plain l.id), ("topic", .quoted l.topic)])
      ("Replay binding unavailable for topic " ++ l.topic)
    refine ⟨0, reply, w', hr, ?_, hs⟩
    rw [service.publishing_of_not_bound (service.bound_eq l.topic ▸ hb)]
    exact hw'
  | true =>
    obtain ⟨m, w₁, h₁, hs₁⟩ := exists_send env l.topic body w
    obtain ⟨reply, hr⟩ := hreply.exists_answer m l.topic
    rw [hr] at h₁
    have hsent := h₁.of_within
    have hbound : service.bound l.topic = true := service.bound_eq l.topic ▸ hb
    cases reply with
    | ok _ =>
      obtain ⟨w₂, h₂, hs₂⟩ := exists_said (lenient_aside.emit service.sink
        (.counter "dlq.replay.published" 1 [("topic", l.topic)])) (ends_emit _ _) w₁
      refine ⟨m, .ok (), w₂, hr, ?_, hs₂.trans hs₁⟩
      simp only [Service.publishing, hbound, if_true]
      exact hsent.before (h₂.after (yields_done env w₂ _))
    | error e =>
      obtain ⟨w₂, h₂, hs₂⟩ := exists_logged env w₁ (Service.event .error "reprocess"
        "replay publish failed" [("id", .plain l.id), ("topic", .quoted l.topic),
          ("error", .plain e.message)]) ("Replay publish failed: " ++ e.message)
      refine ⟨m, .error e, w₂, hr, ?_, hs₂.trans hs₁⟩
      simp only [Service.publishing, hbound, if_true]
      exact hsent.before h₂

/-- A payload that can be read comes to its turnout, and nothing in the store changes. -/
theorem exists_attempt (service : Service) (l : DeadLetter) {payload : Json.Value}
    (hpayload : Json.parseValue l.payload = .ok payload) (hreply : env.Replies) (w : World) :
    ∃ m reply w', (env.send m l.topic).answer = some reply ∧
      w.Yields env (service.attempt l payload) ((service.turnout l reply).result l.topic)
        ((service.turnout l reply).sends l.topic) w' ∧ w'.store = w.store := by
  unfold Service.attempt
  simp only [Service.turnout, hpayload]
  obtain ⟨reply, hr⟩ := hreply.exists_answer 0 l.topic
  cases service.replay.prepare l.topic payload with
  | none => exact ⟨0, reply, w, hr, yields_done env w _, rfl⟩
  | some prepared =>
    cases prepared with
    | error reason =>
      obtain ⟨w', h, hs⟩ := exists_logged env w (Service.event .warn "reprocess"
        "payload no longer passes the topic schema" [("id", .quoted l.id),
          ("topic", .plain l.topic), ("error", .plain reason)])
        ("Replay validation failed: " ++ reason)
      exact ⟨0, reply, w', hr, h, hs⟩
    | ok body => exact exists_publish service l body hreply w

/-- A pending dead letter is closed. -/
theorem exists_close (hw : Working env w.store) (ho : Orderly w.store.rows)
    (hrows : w.store.letters = some (before ++ { letter := l } :: behind)) (hl : l.Pending)
    (result : String) :
    ∃ n w', w.Yields env (Service.close l.id result) (.ok (result, true))
      [⟨.store (.mark l.id result (env.clock n)), some (.ok (1 : Nat))⟩] w' ∧
      w'.store = { w.store with
        letters := some (before ++ { letter := l.close result (env.clock n) } :: behind) } := by
  rw [rows_of_letters hrows] at ho
  obtain ⟨n, w₁, h₁, hs₁⟩ := exists_clock env w
  obtain ⟨w₂, h₂, hs₂⟩ := exists_query (q := .mark l.id result (env.clock n))
    (fun _ => hw.accepts _ _) w₁
  rw [hs₁, ho.answer_mark hl hrows hw.closed hw.update] at h₂ hs₂
  exact ⟨n, w₂, h₁.after (h₂.before (yields_done env w₂ _)), hs₂⟩

/-- A pending dead letter is replayed and closed with its turnout. -/
theorem exists_replay (service : Service) (hw : Working env w.store) (ho : Orderly w.store.rows)
    (hrows : w.store.letters = some (before ++ { letter := l } :: behind)) (hl : l.Pending)
    (hreply : env.Replies) :
    ∃ m n reply o w', (env.send m l.topic).answer = some reply ∧ service.turnout l reply = o ∧
      w.Yields env (service.replayAndClose l.id l) (o.returned l.topic) (o.sends l.topic ++
        [⟨.store (.mark l.id (o.result l.topic) (env.clock n)), some (.ok (1 : Nat))⟩]) w' ∧
      w'.store = { w.store with
        letters := some (before ++ { letter := l.close (o.result l.topic) (env.clock n) } :: behind)
        } := by
  unfold Service.replayAndClose
  cases hp : Json.parseValue l.payload with
  | error e =>
    obtain ⟨reply, hr⟩ := hreply.exists_answer 0 l.topic
    have hturnout : service.turnout l reply = .unreadable e := by
      simp only [Service.turnout, hp]
    obtain ⟨w₁, h₁, hs₁⟩ := exists_said (lenient_aside.log (Service.event .warn "reprocess"
      "stored payload cannot be replayed" [("id", .quoted l.id), ("topic", .plain l.topic),
        ("payload_type", .plain l.payloadType), ("error", .plain e.message)])) (ends_log _) w
    rw [← hs₁] at hw ho hrows
    obtain ⟨n, w₂, h₂, hs₂⟩ := exists_close hw ho hrows hl
      ("Payload deserialization failed: " ++ e.message)
    refine ⟨0, n, reply, _, w₂, hr, hturnout, ?_, ?_⟩
    · exact h₁.after (h₂.before (yields_done env w₂ _))
    · rw [hs₂, hs₁]
      rfl
  | ok payload =>
    obtain ⟨m, reply, w₁, hr, h₁, hs₁⟩ := exists_attempt service l hp hreply w
    have hok := service.returned_turnout hp reply
    generalize hturnout : service.turnout l reply = o at h₁ hok
    rw [← hs₁] at hw ho hrows
    obtain ⟨n, w₂, h₂, hs₂⟩ := exists_close hw ho hrows hl (o.result l.topic)
    obtain ⟨w₃, h₃, hs₃⟩ := exists_logged env w₂ (Service.event .info "reprocess"
      "dead letter reprocessed" [("id", .quoted l.id), ("topic", .plain l.topic),
        ("result", .plain (o.result l.topic))])
      (Except.ok (o.result l.topic) : Except Failure String)
    refine ⟨m, n, reply, o, w₃, hr, hturnout, ?_, ?_⟩
    · rw [hok]
      exact h₁.bind (h₂.before h₃)
    · rw [hs₃, hs₂, hs₁]

/-- What is found is looked up once, and then reprocessing goes on with it. -/
theorem exists_found (service : Service) {id : String} (hw : Working env w.store)
    {found : Option DeadLetter} (hget : (w.store.answer (.get id)).1 = .ok found) :
    ∃ w₁ : World, w₁.store = w.store ∧ ∀ (r : Except Failure String) (t : List Exchange)
      (w₂ : World), w₁.Yields env (service.goesOn id found) r t w₂ →
        ∃ w', w.Yields env (service.reprocess id) r
          (⟨.store (.get id), some (.ok found)⟩ :: t) w' ∧ w'.store = w₂.store := by
  obtain ⟨started, w₁, h₁, hs₁⟩ := exists_stopwatch env w
  obtain ⟨w₂, h₂, hs₂⟩ := exists_query (q := .get id) (fun _ => hw.accepts _ _) w₁
  rw [hs₁, hget] at h₂
  rw [hs₁, answer_snd_of_not_changes w.store rfl] at hs₂
  refine ⟨w₂, hs₂, fun r t w₃ h₃ => h₁.observed (h₂.bind ?_)⟩
  cases found <;> exact h₃

/-- Reprocessing does what the reference says, in rows that are in order. -/
theorem exists_reprocess (service : Service) (id : String) {rows : List Row}
    (hw : Working env w.store) (ho : Orderly w.store.rows) (hrows : w.store.letters = some rows)
    (hreply : env.Replies) :
    ∃ r t rows' w', w.Yields env (service.reprocess id) r t w' ∧
      Reprocesses env service id rows r t rows' ∧
      w'.store = { w.store with letters := some rows' } := by
  have hkept : { w.store with letters := some rows } = w.store := by rw [← hrows]
  rw [rows_of_letters hrows] at ho
  rcases ho.answer_get hrows hw.closed id with ⟨hnone, hget⟩ | ⟨l, hl, rfl, hget⟩
  · obtain ⟨w₁, hs₁, goesOn⟩ := exists_found service hw hget
    obtain ⟨w₂, h₂, hs₂⟩ := exists_logged env w₁ (Service.event .warn "reprocess"
      "dead letter not found" [("id", .quoted id)])
      (Except.error (.notFound id) : Except Failure String)
    obtain ⟨w₃, h₃, hs₃⟩ := goesOn _ _ _ h₂
    exact ⟨_, _, rows, w₃, h₃, .absent hnone, by rw [hkept, hs₃, hs₂, hs₁]⟩
  obtain ⟨w₁, hs₁, goesOn⟩ := exists_found service hw hget
  rcases ho.settled _ hl with hp | ht
  · obtain ⟨before, behind, rfl⟩ := List.append_of_mem hl
    rw [← rows_of_letters hrows, ← hs₁] at ho
    rw [← hs₁] at hw hrows
    obtain ⟨m, n, reply, o, w₂, hr, hturnout, h₂, hs₂⟩ :=
      exists_replay service hw ho hrows hp hreply
    have hpending : l.reprocessed = false := hp.reprocessed
    rw [← service.goesOn_pending hpending] at h₂
    obtain ⟨w₃, h₃, hs₃⟩ := goesOn _ _ _ h₂
    exact ⟨_, _, _, w₃, h₃, .pending m n rfl hp hr hturnout, by rw [hs₃, hs₂, hs₁]⟩
  · obtain ⟨result, hresult⟩ := Option.isSome_iff_exists.1 ht.recoveryResult
    obtain ⟨w₂, h₂, hs₂⟩ := exists_logged env w₁ (Service.event .info "reprocess"
      "dead letter already reprocessed" [("id", .quoted l.id)])
      (Except.ok result : Except Failure String)
    have hstored : l.recoveryResult = some result := hresult
    rw [← service.goesOn_closed ht.reprocessed hstored] at h₂
    obtain ⟨w₃, h₃, hs₃⟩ := goesOn _ _ _ h₂
    exact ⟨_, _, rows, w₃, h₃, .closed hl rfl ht hresult, by rw [hkept, hs₃, hs₂, hs₁]⟩

end World

end DeadLetters
