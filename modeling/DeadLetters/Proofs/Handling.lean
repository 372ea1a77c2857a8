import DeadLetters.Proofs.Identity
import DeadLetters.Proofs.Table
import DeadLetters.World.Steady

/-!
# Handling messages to an end

What handling a message can come to, said once for each layer: how storing a draft ends
(`Inserts`), what a failed message leaves (`AfterFailure`), and how a whole handler ends.  The
exchanges of a delivery are those of its handler, and behind them, if the message is done with, the
acknowledgement.

A message is acknowledged only after its processor has succeeded, or after a dead letter with its
body, id and attempt has been stored (`acknowledged_only_if_kept`).
-/

namespace DeadLetters

open Program

/-- A dead letter keeps a message: its id, unless that is blank, its attempt and its body. -/
structure DeadLetter.StandsFor (l : DeadLetter) (topic : String) (m : Message String) : Prop where
  topic : l.topic = topic
  retryCount : l.retryCount = m.attempt
  messageId : l.messageId = if Text.isBlankText m.id then "<unknown>" else m.id
  payloadType : l.payloadType = (Payload.capture m.body).typeName
  payload : l.payload = (Payload.capture m.body).stored

theorem Service.standsFor_draft (topic : String) (m : Message String) (f : Failure)
    (now now' : Int64) (id : String) :
    ((draft (.capture m.body) f (.ofMessage topic m) now).letter id now').StandsFor topic m :=
  ⟨rfl, rfl, rfl, rfl, rfl⟩

/-! ## Storing a draft -/

namespace Service

/-- The insertions that storing a draft makes, at most one, and how it ends. -/
inductive Inserts (d : Draft) : List Exchange → Option (Except Failure String) → Prop
  /-- The draft lacks something. -/
  | rejected (f : Failure) (h : missingFields d ≠ []) : Inserts d [] (some (.error f))
  | stored (id : String) (now : Int64) (h : d.failedAt.getD now = now) :
      Inserts d [⟨.store (.insert (d.letter id now)), some (.ok ())⟩] (some (.ok id))
  | refused (id : String) (now : Int64) (e : Store.Error) (h : d.failedAt.getD now = now) :
      Inserts d [⟨.store (.insert (d.letter id now)), some (.error e)⟩] (some (.error e.failure))
  | unanswered (id : String) (now : Int64) (h : d.failedAt.getD now = now) :
      Inserts d [⟨.store (.insert (d.letter id now)), none⟩] none

theorem ends_report {α : Type} (s : Service) (operation : String) (started : Nat)
    (result : Except Failure α) : (s.report operation started result).Ends := by
  refine fun stopped => (ends_emit _ _).bind fun _ => ?_
  cases result <;> exact ends_emit _ _

theorem ends_notify (s : Service) (d : Draft) : (s.notify d).Ends := by
  unfold notify
  split
  · exact ends_log _
  · refine (ends_within _).bind fun sent => ?_
    split
    · trivial
    · exact (ends_emit _ _).bind fun _ => ends_log _

/-- Observing an operation adds nothing of a kind that is never said aside. -/
theorem observed_only {α : Type} {k : Request → Bool} (hk : Lenient fun r => k r = false)
    {s : Service} {operation : String} {body : Program (Except Failure α)} {t : List Exchange}
    {o : Option (Except Failure α)} (h : (s.observed operation body).Goes t (await o)) :
    ∃ u, body.Goes u (await o) ∧ only k t = only k u := by
  obtain ⟨started, u, hu, ht⟩ := Goes.after (k := k) h ends_stopwatch hk.stopwatch
  obtain ⟨o', v, hv, hu', ho⟩ := Goes.before (k := k) hu fun result =>
    (asks_report hk s operation started result).bind fun _ => asks_done _
  refine ⟨v, ?_, ht.trans hu'⟩
  rcases ho with ⟨rfl, rfl⟩ | ⟨result, w, rfl, hw⟩
  · exact hv
  · obtain rfl := hw.returned (ends_report s operation started result)
    exact hv

/-- An answer that is looked at, and then said in the log. -/
theorem orFail_returned {α β : Type} {answer : Except Store.Error α}
    {complain : Store.Error → Log.Event} {e : Log.Event} {b : β} {t : List Exchange}
    {o : Option (Except Failure β)}
    (h : (orFail answer complain fun _ => (log e).bind fun _ => done (.ok b)).Goes t (await o)) :
    (∃ a, answer = .ok a ∧ o = some (.ok b)) ∨
      ∃ err, answer = .error err ∧ o = some (.error err.failure) := by
  cases answer with
  | ok a => exact .inl ⟨a, rfl, Goes.returned h (ends_log _)⟩
  | error err => exact .inr ⟨err, rfl, Goes.returned h (ends_log _)⟩

theorem query_inserts {d : Draft} {id : String} {now : Int64} {complain : Store.Error → Log.Event}
    {e : Log.Event} {t : List Exchange} {o : Option (Except Failure String)}
    (h : ((query (.insert (d.letter id now))).bind fun answer =>
      orFail answer complain fun _ => (log e).bind fun _ => done (.ok id)).Goes t (await o))
    (hn : d.failedAt.getD now = now) : Inserts d (only Request.isInsert t) o := by
  obtain ⟨a, u, hu, ht, ho⟩ := Goes.before (k := Request.isInsert) h fun answer =>
    asks_orFail lenient_not_insert fun _ _ => (lenient_not_insert.log e).bind fun _ => asks_done _
  rw [ht, goes_query_await_iff.1 hu]
  rcases ho with ⟨rfl, rfl⟩ | ⟨answer, v, rfl, hv⟩
  · exact .unanswered id now hn
  · rcases orFail_returned hv with ⟨_, rfl, rfl⟩ | ⟨err, rfl, rfl⟩
    · exact .stored id now hn
    · exact .refused id now err hn

/-- A draft that lacks nothing is inserted once, with a time of failure of its own or the time of
the clock. -/
theorem insert_inserts {d : Draft} {t : List Exchange} {o : Option (Except Failure String)}
    (h : (insert d).Goes t (await o)) : Inserts d (only Request.isInsert t) o := by
  obtain ⟨id, u, hu, ht⟩ := Goes.after (k := Request.isInsert) h ends_freshId
    lenient_not_insert.freshId
  rw [ht]
  cases hd : d.failedAt with
  | none =>
    rw [hd] at hu
    obtain ⟨now, v, hv, hu⟩ := Goes.after (k := Request.isInsert) hu ends_clock
      lenient_not_insert.clock
    rw [hu]
    exact query_inserts hv (by simp [hd])
  | some now =>
    rw [hd] at hu
    exact query_inserts hu (by simp [hd])

theorem store_inserts {s : Service} {d : Draft} {t : List Exchange}
    {o : Option (Except Failure String)} (h : (s.store d).Goes t (await o)) :
    Inserts d (only Request.isInsert t) o := by
  obtain ⟨u, hu, ht⟩ := observed_only lenient_not_insert h
  rw [ht]
  cases hm : missingFields d with
  | nil =>
    rw [hm] at hu
    exact insert_inserts hu
  | cons f fs =>
    rw [hm] at hu
    rw [hu.only_eq_nil (k := Request.isInsert)
      ((lenient_not_insert.log _).bind fun _ => asks_done _), Goes.returned hu (ends_log _)]
    exact .rejected _ (by simp [hm])

theorem giveUp_inserts {s : Service} {payload : Payload} {f : Failure} {og : Origin}
    {t : List Exchange} {o : Option (Except Failure String)}
    (h : (s.giveUp payload f og).Goes t (await o)) :
    ∃ now, Inserts (draft payload f og now) (only Request.isInsert t) o := by
  obtain ⟨now, u, hu, ht⟩ := Goes.after (k := Request.isInsert) h ends_clock
    lenient_not_insert.clock
  obtain ⟨_, v, hv, hu'⟩ := Goes.after (k := Request.isInsert) hu (ends_notify _ _)
    (asks_notify lenient_not_insert _ _ rfl)
  rw [ht, hu']
  exact ⟨now, store_inserts hv⟩

end Service

/-! ## Handling -/

namespace Processor

variable {β : Type}

/-- The exchanges in which a message is processed, and what comes of it: nothing if the processor
does not come to an end.  A body that does not fit is not handed to the processor. -/
inductive Calls (p : Processor β) (m : Message String) :
    List Exchange → Option (Except Failure Unit) → Prop
  | rejected {f : Failure} (h : p.schema.parse m.body = .error f) : Calls p m [] (some (.error f))
  | ended {b : β} {call : List Exchange} {o : Option (Except Failure Unit)}
      (hb : p.schema.parse m.body = .ok b) (h : (p.process (m.withBody b)).Goes call (await o)) :
      Calls p m call o

/-- A message is processed in one way only. -/
theorem Calls.unique {p : Processor β} {m : Message String} {call call' u : List Exchange}
    {o o' : Option (Except Failure Unit)} (h : p.Calls m call o) (h' : p.Calls m call' o')
    (hu : call <+: u) (hu' : call' <+: u) : call = call' ∧ o = o' := by
  cases h with
  | rejected he =>
    cases h' with
    | rejected he' =>
      rw [he] at he'
      exact ⟨rfl, by rw [Except.error.inj he']⟩
    | ended hb' => simp [he] at hb'
  | ended hb hc =>
    cases h' with
    | rejected he' => simp [hb] at he'
    | ended hb' hc' =>
      rw [hb] at hb'
      obtain rfl := Except.ok.inj hb'
      exact hc.ended_unique hc' hu hu'

/-- The exchanges in which a message is processed with success. -/
def Succeeds (p : Processor β) (m : Message String) (call : List Exchange) : Prop :=
  p.Calls m call (some (.ok ()))

/-- The exchanges in which processing a message fails, and its failure: the body does not fit, the
processor fails, or it does not come to an end. -/
def Fails (p : Processor β) (limits : Limits) (m : Message String) (call : List Exchange)
    (f : Failure) : Prop :=
  ∃ o, p.Calls m call o ∧
    o.getD (.error (.processing (Handler.timedOut "processing" limits.timeout))) = .error f

theorem Fails.not_succeeds {p : Processor β} {limits : Limits} {m : Message String}
    {call call' u : List Exchange} {f : Failure} (h : p.Fails limits m call f) (hu : call <+: u)
    (hu' : call' <+: u) : ¬ p.Succeeds m call' := by
  intro hs
  obtain ⟨o, hc, ho⟩ := h
  obtain ⟨-, rfl⟩ := hc.unique hs hu hu'
  simp at ho

end Processor

namespace Handler

variable {β : Type} {p : Processor β} {service : Service} {limits : Limits} {topic : String}
  {m : Message String} {f : Failure} {d : Disposition} {t : List Exchange}

/-- The failure that a dead letter tells of. -/
def cause (f : Failure) : Failure := if f.kind = .validation then f else .processing f.detail

def GivesUp (limits : Limits) (m : Message String) (f : Failure) : Prop :=
  f.kind = .validation ∨ limits.ceiling ≤ m.attempt

/-- The insertions after a failure, and what becomes of the message. -/
inductive AfterFailure (limits : Limits) (topic : String) (m : Message String) (f : Failure) :
    List Exchange → Disposition → Prop
  | retried (h : ¬ GivesUp limits m f) :
      AfterFailure limits topic m f [] (.retry .processing f.detail)
  | stored {t : List Exchange} {now : Int64} {id : String} (h : GivesUp limits m f)
      (ht : Service.Inserts (Service.draft (.capture m.body) (cause f) (.ofMessage topic m) now) t
        (some (.ok id))) : AfterFailure limits topic m f t (.deadLettered id (cause f).kind)
  | unstored {t : List Exchange} {now : Int64} {o : Option (Except Failure String)} (kind : Kind)
      (reason : String) (h : GivesUp limits m f)
      (ht : Service.Inserts (Service.draft (.capture m.body) (cause f) (.ofMessage topic m) now) t
        o)
      (ho : ∀ id, o ≠ some (.ok id)) : AfterFailure limits topic m f t (.retry kind reason)

/-- A failed message is done with only if its dead letter has been stored. -/
theorem AfterFailure.eq_stored {t : List Exchange} (h : AfterFailure limits topic m f t d)
    (hd : d.settles = true) :
    ∃ id now now', t = [⟨.store (.insert ((Service.draft (.capture m.body) (cause f)
      (.ofMessage topic m) now).letter id now')), some (.ok ())⟩] := by
  cases h with
  | retried => simp [Disposition.settles] at hd
  | unstored => simp [Disposition.settles] at hd
  | stored _ ht =>
    cases ht with
    | stored => exact ⟨_, _, _, rfl⟩

theorem giveUp_inserts (h : (giveUp service limits topic m f).Goes t (done d)) :
    ∃ now o, Service.Inserts (Service.draft (.capture m.body) f (.ofMessage topic m) now)
        (only Request.isInsert t) o ∧
      ((∃ id, o = some (.ok id) ∧ d = .deadLettered id f.kind) ∨
        (∀ id, o ≠ some (.ok id)) ∧ ∃ kind reason, d = .retry kind reason) := by
  obtain ⟨t₁, t₂, o, rfl, h₁, h₂⟩ := goes_bind_done_iff.1 h
  obtain ⟨now, hi⟩ := Service.giveUp_inserts (goes_within_done_iff.1 h₁)
  have quiet : only Request.isInsert t₂ = [] := by
    refine h₂.only_eq_nil ?_
    dsimp only
    split
    · exact asks_done _
    · exact (lenient_not_insert.log _).bind fun _ => asks_done _
  refine ⟨now, o, by rwa [only_append, quiet, List.append_nil], ?_⟩
  dsimp only at h₂
  rcases o with _ | (e | id)
  · refine .inr ⟨by simp, ?_⟩
    obtain ⟨_, _, _, -, -, h₃⟩ := goes_bind_done_iff.1 h₂
    exact ⟨_, _, done.inj (goes_done_iff.1 h₃).2⟩
  · refine .inr ⟨by simp, ?_⟩
    obtain ⟨_, _, _, -, -, h₃⟩ := goes_bind_done_iff.1 h₂
    exact ⟨_, _, done.inj (goes_done_iff.1 h₃).2⟩
  · exact .inl ⟨id, rfl, done.inj (goes_done_iff.1 h₂).2⟩

/-- Giving up after a line of the log. -/
theorem log_giveUp_after {e : Log.Event} (hg : GivesUp limits m f)
    (h : ((log e).bind fun _ => giveUp service limits topic m (cause f)).Goes t (done d)) :
    AfterFailure limits topic m f (only Request.isInsert t) d := by
  obtain ⟨_, u, hu, ht⟩ := Goes.after (o := some d) h (ends_log e) (lenient_not_insert.log e)
  obtain ⟨now, o, hi, ho⟩ := giveUp_inserts hu
  rw [ht]
  rcases ho with ⟨id, rfl, rfl⟩ | ⟨hne, kind, reason, rfl⟩
  · exact .stored hg hi
  · exact .unstored kind reason hg hi hne

/-- A rejected message is given up after a line of the log. -/
theorem afterFailure_of_validation (hv : f.kind = .validation) :
    afterFailure service limits topic m f =
      (log (event .warn "message rejected by processor" topic m [("error", .plain f.message)])).bind
        fun _ => giveUp service limits topic m (cause f) := by
  have hc : cause f = f := if_pos hv
  unfold afterFailure
  rw [hc, hv]
  rfl

/-- Any other failure is one of processing, and the ceiling decides about it. -/
theorem afterFailure_of_not_validation (hv : f.kind ≠ .validation) :
    afterFailure service limits topic m f =
      if limits.ceiling ≤ m.attempt then
        (log (event .warn "retry ceiling reached" topic m
          [("delivery_attempt", .nat m.attempt.toNat),
            ("retry_ceiling", .nat limits.ceiling.toNat),
            ("error", .plain (cause f).message)])).bind
          fun _ => giveUp service limits topic m (cause f)
      else
        (log (event .info "processing failed, leaving message for redelivery" topic m
          [("delivery_attempt", .nat m.attempt.toNat), ("error", .plain (cause f).message)])).bind
          fun _ => done (.retry .processing f.detail) := by
  have hc : cause f = .processing f.detail := if_neg hv
  unfold afterFailure
  rw [hc]
  cases hk : f.kind <;> first | exact absurd hk hv | rfl

theorem afterFailure_after (h : (afterFailure service limits topic m f).Goes t (done d)) :
    AfterFailure limits topic m f (only Request.isInsert t) d := by
  by_cases hv : f.kind = .validation
  · rw [afterFailure_of_validation hv] at h
    exact log_giveUp_after (.inl hv) h
  · rw [afterFailure_of_not_validation hv] at h
    by_cases hl : limits.ceiling ≤ m.attempt
    · rw [if_pos hl] at h
      exact log_giveUp_after (.inr hl) h
    · rw [if_neg hl] at h
      rw [Goes.only_eq_nil h ((lenient_not_insert.log _).bind fun _ => asks_done _)]
      obtain ⟨_, _, _, -, -, h₃⟩ := goes_bind_done_iff.1 h
      obtain rfl := done.inj (goes_done_iff.1 h₃).2
      exact .retried fun hg => hg.elim hv hl

/-- A body that does not fit fails validation. -/
theorem kind_of_parse_eq_error {schema : Topic.Schema β} {body : String}
    (h : schema.parse body = .error f) : f.kind = .validation := by
  unfold Topic.Schema.parse at h
  split at h
  · rw [← Except.error.inj h]
    rfl
  · split at h
    · rw [← Except.error.inj h]
      rfl
    · simp at h

/-- A handled message has been processed, or its failure has had its consequences. -/
theorem handleWith_ends (h : (handleWith p service limits m).Goes t (done d)) :
    d = .processed ∧ p.Succeeds m t ∨
      ∃ call rest f, t = call ++ rest ∧ p.Fails limits m call f ∧
        AfterFailure limits p.topic m f (only Request.isInsert rest) d := by
  unfold handleWith at h
  cases hb : p.schema.parse m.body with
  | error f =>
    rw [hb] at h
    have hv := kind_of_parse_eq_error hb
    have hc : cause f = f := if_pos hv
    refine .inr ⟨[], t, f, rfl, ⟨_, .rejected hb, rfl⟩, ?_⟩
    exact log_giveUp_after (.inl hv) (hc.symm ▸ h)
  | ok b =>
    rw [hb] at h
    obtain ⟨t₁, t₂, o, rfl, h₁, h₂⟩ := goes_bind_done_iff.1 h
    have hp := goes_within_done_iff.1 h₁
    rcases o with _ | (f | ⟨⟨⟩⟩)
    · exact .inr ⟨t₁, t₂, _, rfl, ⟨none, .ended hb hp, rfl⟩, afterFailure_after h₂⟩
    · exact .inr ⟨t₁, t₂, f, rfl, ⟨_, .ended hb hp, rfl⟩, afterFailure_after h₂⟩
    · obtain ⟨rfl, hd⟩ := goes_done_iff.1 h₂
      rw [List.append_nil]
      exact .inl ⟨done.inj hd, .ended hb hp⟩

end Handler

/-! ## Delivering -/

namespace Router

variable {β : Type} {r : Router} {p : Processor β} {service : Service} {limits : Limits}
  {topic : String} {m : Message String}

/-- Behind its handler, a delivery inserts nothing, and acknowledges its message if it is done
with. -/
theorem asks_settled {d : Disposition} :
    ((r.settle topic m d).bind fun acked => done (Outcome.mk m.id m.attempt d acked)).Asks
      fun y => y.isInsert = false ∧
        (y.isAcknowledge = true → y = .acknowledge topic m ∧ d.settles = true) := by
  have lenient : Lenient fun y => y.isInsert = false ∧
      (y.isAcknowledge = true → y = .acknowledge topic m ∧ d.settles = true) := by
    refine .of_aside fun y hy => ⟨lenient_not_insert.aside hy, fun ha => ?_⟩
    simp [lenient_not_acknowledge.aside hy] at ha
  refine Asks.bind (asks_settle lenient r fun hd => ?_) fun _ => asks_done _
  exact ⟨rfl, fun _ => ⟨rfl, hd⟩⟩

/-- A delivery acknowledges its own message, after its handler has ended. -/
theorem deliver_acknowledge {t : List Exchange} {x : Exchange} {q : Program Outcome}
    (hr : r.handlers.find? topic = some (Handler.handleWith p service limits))
    (hp : p.Asks fun y => y.isAcknowledge = false)
    (h : (r.deliver topic m).Goes (t ++ [x]) q) (hx : x.request.isAcknowledge = true) :
    x.request = .acknowledge topic m ∧
      ∃ handling rest d, t = handling ++ rest ∧ d.settles = true ∧
        (Handler.handleWith p service limits m).Goes handling (done d) := by
  have noack : (Handler.handleWith p service limits m).Asks fun y => y.isAcknowledge = false :=
    Handler.asks_handleWith lenient_not_acknowledge (fun b _ => hp _) (fun _ => rfl)
      fun _ _ _ => rfl
  rw [deliver_of_some hr, goes_bind_iff] at h
  rcases h with ⟨h', hh, -⟩ | ⟨t₁, t₂, d, ht, h₁, h₂⟩
  · have hn := noack.request hh x (by simp)
    simp [hx] at hn
  · rcases t₂.eq_nil_or_concat with rfl | ⟨v, y, rfl⟩
    · have hn := noack.request h₁ x (by rw [List.append_nil] at ht; simp [← ht])
      simp [hx] at hn
    · rw [List.concat_eq_append] at ht h₂
      obtain ⟨rfl, hxy⟩ := List.append_inj' (ht.trans (List.append_assoc t₁ v [y]).symm) rfl
      obtain rfl : x = y := by simpa using hxy
      obtain ⟨he, hd⟩ := (asks_settled.request h₂ x (by simp)).2 hx
      exact ⟨he, t₁, v, d, rfl, hd, h₁⟩

/-- The insertions of a delivery are those of its handler. -/
theorem deliver_insert {handling rest : List Exchange} {d : Disposition} {q : Program Outcome}
    (hr : r.handlers.find? topic = some (Handler.handleWith p service limits))
    (h₁ : (Handler.handleWith p service limits m).Goes handling (done d))
    (h : (r.deliver topic m).Goes (handling ++ rest) q) : only Request.isInsert rest = [] := by
  rw [deliver_of_some hr] at h
  obtain ⟨n, hn, hrest⟩ := goes_append_iff.1 h
  have hm : n = (r.settle topic m d).bind fun acked => done ⟨m.id, m.attempt, d, acked⟩ := by
    refine Goes.unique ?_ hn
    refine goes_bind_iff.2 (.inr ⟨handling, [], d, by simp, h₁, .rest _⟩)
  subst hm
  exact hrest.only_eq_nil (asks_settled.mono fun y hy => hy.1)

/-- How a delivery ends: as its handler and the acknowledgement have ended. -/
theorem deliver_ends {handle : Message String → Program Disposition} {t : List Exchange}
    {o : Outcome} (hr : r.handlers.find? topic = some handle)
    (h : (r.deliver topic m).Goes t (done o)) :
    ∃ handling rest d acked, t = handling ++ rest ∧ (handle m).Goes handling (done d) ∧
      (r.settle topic m d).Goes rest (done acked) ∧ o = ⟨m.id, m.attempt, d, acked⟩ := by
  rw [deliver_of_some hr] at h
  obtain ⟨t₁, u, d, rfl, h₁, hu⟩ := goes_bind_done_iff.1 h
  obtain ⟨t₂, t₃, acked, rfl, h₂, h₃⟩ := goes_bind_done_iff.1 hu
  obtain ⟨rfl, ho⟩ := goes_done_iff.1 h₃
  exact ⟨t₁, t₂, d, acked, by simp, h₁, h₂, done.inj ho⟩

/-- An acknowledgement is asked for once, and counts as confirmed if it is. -/
theorem acknowledge_ends {t : List Exchange} {acked : Bool}
    (h : (r.acknowledge topic m).Goes t (done acked)) :
    ∃ a, only Request.isAcknowledge t = [⟨.acknowledge topic m, a⟩] ∧
      (acked = true ↔ a = some (.ok ())) := by
  obtain ⟨t₁, t₂, o, rfl, h₁, h₂⟩ := goes_bind_done_iff.1 h
  rw [goes_within_done_iff, goes_acknowledge_await_iff] at h₁
  subst h₁
  have quiet : only Request.isAcknowledge t₂ = [] := by
    refine h₂.only_eq_nil ?_
    dsimp only
    split
    · exact (lenient_not_acknowledge.emit _ _).bind fun _ => asks_done _
    · exact (lenient_not_acknowledge.log _).bind fun _ =>
        (lenient_not_acknowledge.emit _ _).bind fun _ => asks_done _
  refine ⟨o, by rw [only_append, quiet]; rfl, ?_⟩
  have failed : ∀ e : Log.Event, ((log e).bind fun _ => (r.count "ack_error" topic).bind fun _ =>
      done false).Goes t₂ (done acked) → acked = false := by
    intro e he
    obtain ⟨_, _, _, -, -, h₃⟩ := goes_bind_done_iff.1 he
    obtain ⟨_, _, _, -, -, h₄⟩ := goes_bind_done_iff.1 h₃
    exact done.inj (goes_done_iff.1 h₄).2
  rcases o with _ | (e | ⟨⟨⟩⟩)
  · simp [failed _ h₂]
  · simp [failed _ h₂]
  · obtain ⟨_, _, _, -, -, h₃⟩ := goes_bind_done_iff.1 h₂
    simp [done.inj (goes_done_iff.1 h₃).2]

/-- Exactly what is done with is acknowledged. -/
theorem settle_ends {d : Disposition} {t : List Exchange} {acked : Bool}
    (h : (r.settle topic m d).Goes t (done acked)) :
    d.settles = false ∧ acked = false ∧ only Request.isAcknowledge t = [] ∨
      d.settles = true ∧ ∃ a, only Request.isAcknowledge t = [⟨.acknowledge topic m, a⟩] ∧
        (acked = true ↔ a = some (.ok ())) := by
  cases d with
  | retry kind reason =>
    have quiet := h.only_eq_nil (k := Request.isAcknowledge)
      ((lenient_not_acknowledge.emit _ _).bind fun _ => asks_done _)
    obtain ⟨_, _, _, -, -, h₂⟩ := goes_bind_done_iff.1 h
    exact .inl ⟨rfl, done.inj (goes_done_iff.1 h₂).2, quiet⟩
  | deadLettered id cause =>
    obtain ⟨t₁, t₂, _, rfl, h₁, h₂⟩ := goes_bind_done_iff.1 h
    obtain ⟨a, ha, hacked⟩ := acknowledge_ends h₂
    rw [only_append, h₁.only_eq_nil (lenient_not_acknowledge.emit _ _)]
    exact .inr ⟨rfl, a, ha, hacked⟩
  | processed => exact .inr ⟨rfl, acknowledge_ends h⟩
  | unroutable => exact .inr ⟨rfl, acknowledge_ends h⟩

/-! ## Batches -/

theorem ends_opening (ms : List (Message String)) : (r.opening topic ms).Ends := by
  unfold opening
  split
  · exact ends_log _
  · trivial

/-- What a path through a batch is made of. -/
theorem processBatch_goes {ms : List (Message String)} {t : List Exchange}
    {o : Option BatchReport} (h : (r.processBatch topic ms).Goes t (await o)) :
    ∃ t₁ t₂ t₃ os, t = t₁ ++ (t₂ ++ t₃) ∧ (r.deliverAll topic ms).Goes t₂ (await os) ∧
      o = os.map (BatchReport.ofOutcomes topic) ∧ ∀ x ∈ t₁ ++ t₃, ∃ e, x.request = .log e := by
  rw [processBatch_eq] at h
  rcases goes_bind_await_iff.1 h with ⟨-, hs⟩ | ⟨t₁, u, _, rfl, h₁, hu⟩
  · exact absurd hs (ends_opening ms).not_stuck
  have opened := (asks_opening r topic ms fun e => ⟨e, rfl⟩ : (r.opening topic ms).Asks fun x =>
    ∃ e, x = .log e).request h₁
  rcases goes_bind_await_iff.1 hu with ⟨rfl, hs⟩ | ⟨t₂, t₃, os, rfl, h₂, h₃⟩
  · exact ⟨t₁, u, [], none, by simp, hs, rfl, by simpa using opened⟩
  · refine ⟨t₁, t₂, t₃, some os, rfl, h₂, Goes.returned h₃ (ends_log _), fun x hx => ?_⟩
    rcases List.mem_append.1 hx with hx | hx
    · exact opened x hx
    · exact (Asks.bind (asks_log_iff.2 ⟨_, rfl⟩) fun _ => asks_done _ :
        Asks (fun x => ∃ e, x = .log e) _).request h₃ x hx

/-! ## A router to try -/

/-- A router with one topic, whose bodies are scripts, under the default configuration. -/
def scripted : Router :=
  { empty .logged 30 with
    handlers := .insert .empty "t" (Handler.handleWith (Topic.Script.processor "t")
      (Service.ofConfig {}) (Limits.ofConfig {})) }

theorem find?_scripted : scripted.handlers.find? "t" = some (Handler.handleWith
    (Topic.Script.processor "t") (Service.ofConfig {}) (Limits.ofConfig {})) :=
  (Dictionary.find?_insert _ _ _ _).trans (if_pos rfl)

/-- Surroundings in which everything is accepted, and ids are the numbers of the requests. -/
def calm : Surroundings :=
  Steady.surroundings ⟨fun _ => .accepts, fun _ _ => .accepts, 0, toString⟩ false

end Router

end DeadLetters
