import DeadLetters.CommandLine.Consume
import DeadLetters.Proofs.Stalling
import DeadLetters.Proofs.Uploading

/-!
# Polling a queue

A consumer receives at most as many batches as it is allowed.  Each batch with a message goes to the
router before the next is received, and all of it: every delivery with an id and a body, once, in
the order received.  A batch without a message and a failure end the polling early.

    a round polls once, unless the count is beyond the limit              (does_round)
    every run of the rounds is made of dispatched batches                 (does_poll)
    one batch a poll is received                                         (Polled.length_receives)
    the content topics leave the queue alone                             (Router.serves_contents)
    a consumer polls as often as it may, and no more                     (consume_polls)

The limit of a consumer is a word of 32 bits, and so is the count of its polls, which goes one
beyond the limit before that is noticed.  Behind the greatest limit the count starts again from
zero, so that this limit is never noticed (`consume_flooded`).  Nothing else is said of how long
polling goes on: the theorems hold for any number of rounds that are followed.
-/

namespace DeadLetters

open Program

def Request.isReceive : Request → Bool
  | receive _ => true
  | _ => false

theorem lenient_not_receive : Lenient fun y => y.isReceive = false := by
  refine .of_aside fun y hy => ?_
  cases y <;> first | rfl | simp [Request.isAside] at hy

/-! ## What a run does -/

/-- The program makes these exchanges in a world, and has this result. -/
structure World.Does {α : Type} (env : Surroundings) (w : World) (p : Program α)
    (t : List Exchange) (o : Option α) : Prop where
  result : (w.run env p).1 = o
  journal : (w.run env p).2.journal = w.journal ++ t

namespace World

variable {α β : Type} {env : Surroundings} {w : World} {p : Program α} {f : α → Program β}
  {t u : List Exchange} {a : α} {o : Option β}

theorem does_done (a : α) : w.Does env (done a) [] (some a) := ⟨rfl, (List.append_nil _).symm⟩

theorem does_log (e : Log.Event) : w.Does env (log e) [⟨.log e, ()⟩] (some ()) := ⟨rfl, rfl⟩

theorem does_print (line : String) : w.Does env (print line) [⟨.print line, ()⟩] (some ()) :=
  ⟨rfl, rfl⟩

theorem Does.bind (hp : w.Does env p t (some a)) (hf : (w.run env p).2.Does env (f a) u o) :
    w.Does env (p.bind f) (t ++ u) o := by
  have hrun := run_bind_of (f := f) (Prod.ext hp.result rfl : w.run env p = (some a, _))
  exact ⟨by rw [hrun, hf.result], by rw [hrun, hf.journal, hp.journal, List.append_assoc]⟩

theorem Does.returns {b : β} (hp : w.Does env p t (some a)) (hf : f a = done b) :
    w.Does env (p.bind f) t (some b) := by
  have hrun := run_bind_of (f := f) (Prod.ext hp.result rfl : w.run env p = (some a, _))
  rw [hf] at hrun
  exact ⟨by rw [hrun]; rfl, by rw [hrun]; exact hp.journal⟩

/-- A program that comes to an end goes one of its ways there. -/
theorem exists_does (hp : p.Ends) :
    ∃ t a, w.Does env p t (some a) ∧ p.Goes t (done a) := by
  obtain ⟨t, hg, hl⟩ := @run_goes _ env 0 w p
  obtain ⟨a, ha⟩ := @exists_result _ env _ hp w
  rw [ha] at hg
  exact ⟨_, a, ⟨ha, hl.journal⟩, hg⟩

end World

/-! ## Receiving -/

def Delivery.isUsable (d : Delivery) : Bool := d.id.isSome && d.body.isSome

theorem Delivery.isSome_message? (d : Delivery) : d.message?.isSome = d.isUsable := by
  unfold message? isUsable
  cases d.id <;> cases d.body <;> rfl

theorem Delivery.id_of_message? {d : Delivery} {m : Message String} (h : d.message? = some m) :
    d.id = some m.id := by
  unfold message? at h
  split at h
  · next id body hid _ =>
    obtain rfl := Option.some.inj h
    rw [hid]
    show some id = some (Message.new id d.attempt body).id
    unfold Message.new
    split <;> rfl
  · cases h

/-- The ids of the messages of a batch are those of its usable deliveries. -/
theorem Delivery.ids_messages (ds : List Delivery) :
    (ds.filterMap message?).map (·.id) = (ds.filter isUsable).filterMap (·.id) := by
  induction ds with
  | nil => rfl
  | cons d ds ih =>
    have husable := d.isSome_message?
    cases hm : d.message? with
    | none =>
      rw [hm] at husable
      rw [List.filterMap_cons_none hm, List.filter_cons_of_neg (by simp [← husable]), ih]
    | some m =>
      rw [hm] at husable
      rw [List.filterMap_cons_some hm, List.filter_cons_of_pos husable.symm, List.map_cons, ih,
        List.filterMap_cons_some (id_of_message? hm)]

namespace Queue

def skipping (topic : String) : Log.Event :=
  ⟨.warn, "dlq::sqs", "skipping SQS message without id or body", [("topic", .quoted topic)]⟩

/-- The exchanges in which a batch is received: the batch, and a warning for each delivery in it
that is left out. -/
def receiving (topic : String) (ds : List Delivery) : List Exchange :=
  ⟨.receive topic, some (.ok ds)⟩ ::
    (ds.filter fun d => !d.isUsable).map fun _ => ⟨.log (skipping topic), ()⟩

variable {env : Surroundings} {w : World} {topic : String}

theorem does_warnOfSkipped (ds : List Delivery) :
    w.Does env (warnOfSkipped topic ds) (receiving topic ds).tail (some ()) := by
  induction ds generalizing w with
  | nil => exact World.does_done ()
  | cons d ds ih =>
    have hskip : d.message?.isNone = !d.isUsable := by
      rw [← d.isSome_message?, Option.not_isSome]
    cases hd : d.isUsable with
    | true =>
      have hrest : warnOfSkipped topic (d :: ds) = warnOfSkipped topic ds := by
        simp only [warnOfSkipped, hskip, hd]
        rfl
      rw [hrest]
      simpa [receiving, hd] using ih
    | false =>
      have hwarn : warnOfSkipped topic (d :: ds) =
          (log (skipping topic)).bind fun _ => warnOfSkipped topic ds := by
        simp only [warnOfSkipped, hskip, hd]
        rfl
      have hlogged : w.Does env ((log (skipping topic)).bind fun _ => warnOfSkipped topic ds)
          (⟨.log (skipping topic), ()⟩ :: (receiving topic ds).tail) (some ()) :=
        (World.does_log _).bind ih
      rw [hwarn]
      simpa [receiving, hd] using hlogged

theorem does_receive {a : Except Transport.Error (List Delivery)}
    (h : env.receive w.steps topic = some a) :
    w.Does env (receive topic) [⟨.receive topic, some a⟩] (some a) := by
  have hanswer : w.answer env (.receive topic) =
      (some a, ⟨w.store, w.steps + 1, w.journal ++ [⟨.receive topic, some a⟩]⟩) := by
    simp only [World.answer, World.react, h]
  have hrun : w.run env (receive topic) = w.answer env (.receive topic) := by
    show (await (w.answer env (.receive topic)).1).run (World.answer env) _ = _
    rw [hanswer]
    rfl
  exact ⟨by rw [hrun, hanswer], by rw [hrun, hanswer]⟩

theorem does_receiveBatch {ds : List Delivery} (h : env.receive w.steps topic = some (.ok ds)) :
    w.Does env (receiveBatch topic) (receiving topic ds)
      (some (.ok (ds.filterMap Delivery.message?))) := by
  exact (does_receive h).bind ((does_warnOfSkipped ds).returns rfl)

theorem does_receiveBatch_of_error {e : Transport.Error}
    (h : env.receive w.steps topic = some (.error e)) :
    w.Does env (receiveBatch topic) [⟨.receive topic, some (.error e)⟩] (some (.error e)) :=
  (does_receive h).returns rfl

end Queue

/-! ## Routers that leave the queue alone -/

namespace Router

variable {r : Router} {topic : String}

/-- A handler that comes to an end with every message, and receives nothing itself. -/
def Serving (handle : Message String → Program Disposition) : Prop :=
  ∀ m, (handle m).Ends ∧ (handle m).Asks fun y => y.isReceive = false

/-- The handler of the topic, if there is one, leaves the queue alone. -/
def Serves (r : Router) (topic : String) : Prop :=
  ∀ handle, r.handlers.find? topic = some handle → Serving handle

theorem serving_handleWith {β : Type} {p : Processor β} {service : Service} {limits : Limits}
    (hp : p.Asks fun y => y.isReceive = false) : Serving (Handler.handleWith p service limits) :=
  fun _ => ⟨Handler.ends_handleWith,
    Handler.asks_handleWith lenient_not_receive (fun _ _ => hp _) (fun _ => rfl) fun _ _ _ => rfl⟩

/-- A router that has registered the handlers of the content topics leaves every queue alone. -/
theorem serves_contents {env : Surroundings} {w : World} {sink : Sink} {ackTimeout : Nat}
    {service : Service} {limits : Limits}
    (h : (w.run env (registerAll (Topic.handlers .store service limits)
      (empty sink ackTimeout))).1 = some r) : r.Serves topic := by
  obtain ⟨w', hrun⟩ : ∃ w', w.run env _ = _ :=
    run_registerAll (Topic.handlers .store service limits) (empty sink ackTimeout)
  rw [hrun] at h
  obtain rfl := Option.some.inj h
  have hwriter : Topic.Writer.store.Asks fun y => y.isReceive = false :=
    Topic.Writer.asks_store lenient_not_receive (fun _ => rfl) fun _ _ _ => rfl
  intro handle hh
  have hfind := (Dictionary.find?_insert _ _ _ _).symm.trans hh
  by_cases he : topic = Topic.Enrichment.topic
  · obtain rfl := Option.some.inj ((if_pos he).symm.trans hfind)
    exact serving_handleWith (Topic.Enrichment.asks_processor hwriter)
  · have hfind := (Dictionary.find?_insert _ _ _ _).symm.trans ((if_neg he).symm.trans hfind)
    by_cases hu : topic = Topic.Upload.topic
    · obtain rfl := Option.some.inj ((if_pos hu).symm.trans hfind)
      exact serving_handleWith (Topic.Upload.asks_processor lenient_not_receive hwriter)
    · cases (if_neg hu).symm.trans hfind

theorem Serves.ends_processBatch (h : r.Serves topic) (ms : List (Message String)) :
    (r.processBatch topic ms).Ends :=
  ends_processBatch_of (fun handle hr m => (h handle hr m).1) ms

theorem Serves.asks_processBatch (h : r.Serves topic) (ms : List (Message String)) :
    (r.processBatch topic ms).Asks fun y => y.isReceive = false :=
  Router.asks_processBatch lenient_not_receive r fun m _ =>
    asks_deliver lenient_not_receive r (fun handle hh => (h handle hh m).2) rfl

/-- An outcome tells which message it is about. -/
theorem messageId_of_deliver {m : Message String} {t : List Exchange} {o : Outcome}
    (h : (r.deliver topic m).Goes t (done o)) : o.messageId = m.id := by
  cases hr : r.handlers.find? topic with
  | none =>
    rw [deliver_of_none hr] at h
    obtain ⟨_, _, _, -, -, h₂⟩ := goes_bind_done_iff.1 h
    rw [done.inj (goes_done_iff.1 h₂).2]
  | some handle =>
    obtain ⟨_, _, _, _, -, -, -, rfl⟩ := deliver_ends hr h
    rfl

/-- There is one outcome a message, in order. -/
theorem ids_of_deliverAll {ms : List (Message String)} {t : List Exchange} {os : List Outcome}
    (h : (r.deliverAll topic ms).Goes t (done os)) :
    os.map (·.messageId) = ms.map (·.id) := by
  induction ms generalizing t os with
  | nil => rw [done.inj (goes_done_iff.1 h).2, List.map_nil, List.map_nil]
  | cons m ms ih =>
    obtain ⟨_, _, o, -, ho, h₂⟩ := goes_bind_done_iff.1 h
    obtain ⟨_, _, os', -, hos, h₃⟩ := goes_bind_done_iff.1 h₂
    rw [done.inj (goes_done_iff.1 h₃).2, List.map_cons, List.map_cons, messageId_of_deliver ho,
      ih hos]

theorem ids_of_processBatch {ms : List (Message String)} {t : List Exchange} {report : BatchReport}
    (h : (r.processBatch topic ms).Goes t (done report)) :
    report.outcomes.map (·.messageId) = ms.map (·.id) := by
  obtain ⟨_, _, _, os, -, hos, hreport, -⟩ := processBatch_goes (o := some report) h
  obtain ⟨outcomes, rfl, rfl⟩ := Option.map_eq_some_iff.1 hreport.symm
  rw [BatchReport.outcomes_ofOutcomes]
  exact ids_of_deliverAll hos

end Router

namespace CommandLine

/-! ## Polls -/

/-- A poll that brought a message: what was delivered, and how the batch was handled. -/
structure Poll where
  deliveries : List Delivery
  handling : List Exchange
  report : BatchReport

/-- How polling came to its end, or that it did not. -/
inductive Stop where
  /-- The count was beyond the limit. -/
  | limit
  /-- A poll brought no message. -/
  | empty (deliveries : List Delivery)
  /-- A poll failed. -/
  | failed (e : Transport.Error)
  /-- All rounds have been followed, and polling goes on. -/
  | ongoing

def Poll.exchanges (topic : String) (p : Poll) : List Exchange :=
  Queue.receiving topic p.deliveries ++ p.handling ++ [⟨.print p.report.text, ()⟩]

namespace Stop

/-- How many polls the end takes. -/
def polls : Stop → Nat
  | limit | ongoing => 0
  | empty _ | failed _ => 1

def exchanges (topic : String) : Stop → List Exchange
  | limit | ongoing => []
  | empty ds => Queue.receiving topic ds
  | failed e => [⟨.receive topic, some (.error e)⟩]

/-- Where a consumer stands that stops so, if it has counted this far. -/
def result (counted : UInt32) : Stop → Polling
  | limit | empty _ => .ended (.ok ())
  | failed e => .ended (.error e)
  | ongoing => .going counted

/-- What the queue has answered for polling to stop so: a batch without an id or a body in any of
its deliveries, or the failure. -/
def Caused (env : Surroundings) (topic : String) : Stop → Prop
  | limit | ongoing => True
  | empty ds => (∃ k, env.receive k topic = some (.ok ds)) ∧ ∀ d ∈ ds, d.isUsable = false
  | failed e => ∃ k, env.receive k topic = some (.error e)

end Stop

/-- The batch of the poll, which has a message, is dispatched to the router: each delivery with an
id and a body once, in order, as the outcomes tell. -/
structure Poll.Dispatched (r : Router) (topic : String) (p : Poll) : Prop where
  handled : (r.processBatch topic (p.deliveries.filterMap Delivery.message?)).Goes p.handling
    (done p.report)
  outcomes : p.report.outcomes.map (·.messageId) =
    (p.deliveries.filter Delivery.isUsable).filterMap (·.id)
  usable : ∃ d ∈ p.deliveries, d.isUsable = true

/-- Polling for some rounds, when so many polls have been counted: each batch is dispatched before
the next is received, and polling stops before the limit only if a poll brings no message or fails.
The limit is noticed unless it is the greatest word. -/
structure Polled (env : Surroundings) (r : Router) (topic : String) (maxPolls : UInt32)
    (counted rounds : Nat) (t : List Exchange) (polls : List Poll) (stop : Stop) : Prop where
  exchanges : t = polls.flatMap (Poll.exchanges topic) ++ stop.exchanges topic
  dispatched : ∀ p ∈ polls, p.Dispatched r topic
  caused : stop.Caused env topic
  followed : polls.length + stop.polls ≤ rounds
  ongoing : stop = .ongoing → polls.length = rounds
  bound : maxPolls.toNat + 1 < UInt32.size → counted + polls.length + stop.polls ≤ maxPolls.toNat
  limit : stop = .limit → counted + polls.length = maxPolls.toNat
  noticed : stop = .limit → maxPolls.toNat + 1 < UInt32.size

section Polling

variable {env : Surroundings} {w : World} {r : Router} {topic : String} {maxPolls count : UInt32}
  {counted rounds : Nat} {t : List Exchange} {polls : List Poll} {stop : Stop}

/-! Words. -/

/-- A count is one more, or starts again behind the greatest word. -/
theorem toNat_next (count : UInt32) : (count + 1).toNat = (count.toNat + 1) % UInt32.size :=
  UInt32.toNat_add count 1

/-- The count steps over a limit only from the limit itself, and never over the greatest. -/
theorem limit_of_lt_next (hle : count ≤ maxPolls) (hlt : maxPolls < count + 1) :
    count.toNat = maxPolls.toNat ∧ maxPolls.toNat + 1 < UInt32.size := by
  have hcount := UInt32.le_iff_toNat_le.1 hle
  have hnext := UInt32.lt_iff_toNat_lt.1 hlt
  have hsize := maxPolls.toNat_lt_size
  rw [toNat_next] at hnext
  have hwrap : count.toNat + 1 ≠ UInt32.size := by
    intro hw
    rw [hw, Nat.mod_self] at hnext
    exact Nat.not_lt_zero _ hnext
  rw [Nat.mod_eq_of_lt (by omega)] at hnext
  omega

/-- Below the greatest limit a count that stays below it does not start again. -/
theorem toNat_next_of_le (hle : count ≤ maxPolls) (hm : maxPolls.toNat + 1 < UInt32.size) :
    (count + 1).toNat = count.toNat + 1 := by
  have hcount := UInt32.le_iff_toNat_le.1 hle
  rw [toNat_next, Nat.mod_eq_of_lt (by omega)]

/-! Rounds. -/

/-- A batch with messages is dispatched in its poll. -/
theorem dispatched_of_goes {ds : List Delivery} {m : Message String} {ms : List (Message String)}
    {u : List Exchange} {report : BatchReport} (hm : ds.filterMap Delivery.message? = m :: ms)
    (h : (r.processBatch topic (m :: ms)).Goes u (done report)) :
    Poll.Dispatched r topic ⟨ds, u, report⟩ where
  handled := by rwa [hm]
  outcomes := by rw [← Delivery.ids_messages, hm, Router.ids_of_processBatch h]
  usable := by
    obtain ⟨d, hd, hmessage⟩ := List.mem_filterMap.1 (hm ▸ List.mem_cons_self)
    exact ⟨d, hd, by rw [← d.isSome_message?, hmessage, Option.isSome_some]⟩

theorem does_round_of_limit (h : maxPolls < count + 1) :
    w.Does env (round r topic maxPolls count) [] (some (.ended (.ok ()))) := by
  unfold round
  rw [if_pos h]
  exact World.does_done _

/-- A round below the limit polls once: the poll stops the loop, or its batch is dispatched. -/
theorem does_round (hr : r.Serves topic) (hq : ∀ k, env.receive k topic ≠ none) (w : World)
    (h : ¬ maxPolls < count + 1) :
    (∃ stop : Stop, stop.polls = 1 ∧ stop.Caused env topic ∧
      w.Does env (round r topic maxPolls count) (stop.exchanges topic)
        (some (stop.result count))) ∨
    ∃ p : Poll, p.Dispatched r topic ∧
      w.Does env (round r topic maxPolls count) (p.exchanges topic) (some (.going (count + 1))) := by
  unfold round
  rw [if_neg h]
  obtain ⟨a, ha⟩ := Option.ne_none_iff_exists'.1 (hq w.steps)
  cases a with
  | error e =>
    exact .inl ⟨.failed e, rfl, ⟨_, ha⟩, (Queue.does_receiveBatch_of_error ha).returns rfl⟩
  | ok ds =>
    have hreceived := Queue.does_receiveBatch ha
    cases hm : ds.filterMap Delivery.message? with
    | nil =>
      rw [hm] at hreceived
      refine .inl ⟨.empty ds, rfl, ⟨⟨_, ha⟩, fun d hd => ?_⟩, hreceived.returns rfl⟩
      rw [← d.isSome_message?, List.filterMap_eq_nil_iff.1 hm d hd, Option.isSome_none]
    | cons m ms =>
      rw [hm] at hreceived
      obtain ⟨u, report, hdone, hgoes⟩ := @World.exists_does _ env
        (w.run env (Queue.receiveBatch topic)).2 _ (hr.ends_processBatch (m :: ms))
      refine .inr ⟨_, dispatched_of_goes hm hgoes, ?_⟩
      rw [Poll.exchanges, List.append_assoc]
      exact hreceived.bind (hdone.bind ((World.does_print report.text).returns rfl))

/-! The loop. -/

/-- A dispatched batch comes before the polls that follow it. -/
theorem Polled.next {counted' : Nat} {p : Poll}
    (h : Polled env r topic maxPolls counted' rounds t polls stop) (hp : p.Dispatched r topic)
    (hc : maxPolls.toNat + 1 < UInt32.size → counted' = counted + 1) :
    Polled env r topic maxPolls counted (rounds + 1) (p.exchanges topic ++ t) (p :: polls)
      stop where
  exchanges := by rw [h.exchanges, List.flatMap_cons, List.append_assoc]
  dispatched := List.forall_mem_cons.2 ⟨hp, h.dispatched⟩
  caused := h.caused
  followed := by
    have := h.followed
    rw [List.length_cons]
    omega
  ongoing := fun hs => congrArg (· + 1) (h.ongoing hs)
  bound := by
    intro hm
    have := h.bound hm
    rw [hc hm] at this
    rw [List.length_cons]
    omega
  limit := by
    intro hs
    have := h.limit hs
    rw [hc (h.noticed hs)] at this
    rw [List.length_cons]
    omega
  noticed := h.noticed

theorem polled_nil (hcount : count ≤ maxPolls) :
    Polled env r topic maxPolls count.toNat 0 [] [] .ongoing :=
  ⟨rfl, nofun, trivial, Nat.le_refl 0, fun _ => rfl, fun _ => UInt32.le_iff_toNat_le.1 hcount,
    nofun, nofun⟩

theorem polled_limit (hcount : count.toNat = maxPolls.toNat)
    (hm : maxPolls.toNat + 1 < UInt32.size) :
    Polled env r topic maxPolls count.toNat (rounds + 1) [] [] .limit :=
  ⟨rfl, nofun, trivial, Nat.zero_le _, nofun, fun _ => Nat.le_of_eq hcount, fun _ => hcount,
    fun _ => hm⟩

/-- A poll that stops the loop takes a round, and is counted. -/
theorem polled_stop (hone : stop.polls = 1) (hcaused : stop.Caused env topic)
    (hcount : count ≤ maxPolls) (h : ¬ maxPolls < count + 1) :
    Polled env r topic maxPolls count.toNat (rounds + 1) (stop.exchanges topic) [] stop where
  exchanges := rfl
  dispatched := nofun
  caused := hcaused
  followed := by
    rw [hone, List.length_nil]
    omega
  ongoing := by
    rintro rfl
    cases hone
  bound := by
    intro hm
    have hnext := UInt32.le_iff_toNat_le.1 (UInt32.not_lt.1 h)
    rw [toNat_next_of_le hcount hm] at hnext
    rwa [hone, List.length_nil]
  limit := by
    rintro rfl
    cases hone
  noticed := by
    rintro rfl
    cases hone

/-- Every run of the rounds is made of dispatched batches. -/
theorem does_poll (hr : r.Serves topic) (hq : ∀ k, env.receive k topic ≠ none) (rounds : Nat)
    (w : World) (hcount : count ≤ maxPolls) :
    ∃ t polls stop, w.Does env (poll r topic maxPolls rounds count) t
        (some (stop.result (count + .ofNat polls.length))) ∧
      Polled env r topic maxPolls count.toNat rounds t polls stop := by
  -- on the rounds that are left; each starts in the world that the one before has left
  induction rounds generalizing count w with
  | zero =>
    refine ⟨[], [], .ongoing, ?_, polled_nil hcount⟩
    rw [show count + UInt32.ofNat ([] : List Poll).length = count from UInt32.add_zero count]
    exact World.does_done _
  | succ rounds ih =>
    by_cases hlimit : maxPolls < count + 1
    · obtain ⟨heq, hm⟩ := limit_of_lt_next hcount hlimit
      exact ⟨[], [], .limit, (does_round_of_limit hlimit).returns rfl, polled_limit heq hm⟩
    rcases does_round hr hq w hlimit with ⟨stop, hone, hcaused, hdoes⟩ | ⟨p, hp, hdoes⟩
    · refine ⟨_, [], stop, hdoes.returns ?_, polled_stop hone hcaused hcount hlimit⟩
      cases stop with
      | limit | ongoing => cases hone
      | empty | failed => rfl
    · obtain ⟨t, polls, stop, hrest, hpolled⟩ := ih
        (w.run env (round r topic maxPolls count)).2 (UInt32.not_lt.1 hlimit)
      refine ⟨_, _, stop, hdoes.bind ?_, hpolled.next hp (toNat_next_of_le hcount)⟩
      have hcounted : count + UInt32.ofNat (p :: polls).length =
          count + 1 + UInt32.ofNat polls.length := by
        rw [List.length_cons, UInt32.ofNat_add, UInt32.add_comm (UInt32.ofNat polls.length),
          UInt32.add_assoc]
        rfl
      rw [hcounted]
      exact hrest

/-! How many batches are received. -/

theorem only_receiving (ds : List Delivery) :
    only Request.isReceive (Queue.receiving topic ds) = [⟨.receive topic, some (.ok ds)⟩] := by
  rw [Queue.receiving, only_cons, if_pos (by rfl), List.cons_inj_right, only,
    List.filter_eq_nil_iff]
  intro x hx
  obtain ⟨d, -, rfl⟩ := List.mem_map.1 hx
  exact Bool.false_ne_true

theorem Poll.Dispatched.only_receives {p : Poll} (hp : p.Dispatched r topic)
    (hr : r.Serves topic) : only Request.isReceive (p.exchanges topic) =
      [⟨.receive topic, some (.ok p.deliveries)⟩] := by
  rw [Poll.exchanges, only_append, only_append, only_receiving,
    hp.handled.only_eq_nil (hr.asks_processBatch _)]
  rfl

theorem Stop.length_receives (stop : Stop) :
    (only Request.isReceive (stop.exchanges topic)).length = stop.polls := by
  cases stop with
  | limit | ongoing => rfl
  | empty ds => exact congrArg List.length (only_receiving ds)
  | failed e => rfl

/-- One batch a poll is received. -/
theorem Polled.length_receives (h : Polled env r topic maxPolls counted rounds t polls stop)
    (hr : r.Serves topic) :
    (only Request.isReceive t).length = polls.length + stop.polls := by
  have hpolls : ∀ ps : List Poll, (∀ p ∈ ps, p.Dispatched r topic) →
      (only Request.isReceive (ps.flatMap (Poll.exchanges topic))).length = ps.length := by
    intro ps hps
    induction ps with
    | nil => rfl
    | cons p ps ih =>
      obtain ⟨hp, hps⟩ := List.forall_mem_cons.1 hps
      rw [List.flatMap_cons, only_append, hp.only_receives hr, List.length_append, ih hps,
        List.length_singleton, List.length_cons, Nat.add_comm]
  rw [h.exchanges, only_append, List.length_append, hpolls polls h.dispatched,
    Stop.length_receives]

/-! ## Consuming -/

/-- What is said before a topic is polled: that nobody handles it, if so. -/
def unhandled (topic : String) : Log.Event :=
  ⟨.warn, "dlq::consume",
    "no handler for topic '" ++ topic ++ "', messages will be acknowledged unprocessed", []⟩

def announced (r : Router) (topic : String) : List Exchange :=
  if r.topics.contains topic then [] else [⟨.log (unhandled topic), ()⟩]

/-- Polling comes behind the announcement, and nothing has been counted before. -/
theorem exists_does_consume (hr : r.Serves topic) (hq : ∀ k, env.receive k topic ≠ none)
    (w : World) (maxPolls : UInt32) (rounds : Nat) :
    ∃ t polls stop, w.Does env (consume r topic maxPolls rounds) (announced r topic ++ t)
        (some (stop.result (.ofNat polls.length))) ∧
      Polled env r topic maxPolls 0 rounds t polls stop := by
  have hpoll : ∀ v : World, ∃ t polls stop, v.Does env (poll r topic maxPolls rounds 0) t
      (some (stop.result (.ofNat polls.length))) ∧
        Polled env r topic maxPolls 0 rounds t polls stop := by
    intro v
    obtain ⟨t, polls, stop, hdoes, hpolled⟩ := does_poll hr hq rounds v UInt32.zero_le
    exact ⟨t, polls, stop, UInt32.zero_add (.ofNat polls.length) ▸ hdoes, hpolled⟩
  unfold consume announced
  cases r.topics.contains topic with
  | true => exact hpoll w
  | false =>
    obtain ⟨t, polls, stop, hdoes, hpolled⟩ := hpoll (w.run env (log (unhandled topic))).2
    exact ⟨t, polls, stop, (World.does_log _).bind hdoes, hpolled⟩

/-- A loop that is over stays as it is, however many rounds it is followed. -/
theorem run_poll_of_ended {result : Except Transport.Error Unit}
    (h : (w.run env (poll r topic maxPolls rounds count)).1 = some (.ended result)) (more : Nat) :
    w.run env (poll r topic maxPolls (rounds + more) count) =
      w.run env (poll r topic maxPolls rounds count) := by
  rw [poll_add, World.run_bind_of (Prod.ext h rfl)]
  exact Prod.ext h.symm rfl

theorem run_consume_of_ended {result : Except Transport.Error Unit}
    (h : (w.run env (consume r topic maxPolls rounds)).1 = some (.ended result)) (more : Nat) :
    w.run env (consume r topic maxPolls (rounds + more)) =
      w.run env (consume r topic maxPolls rounds) := by
  unfold consume at h ⊢
  cases hc : r.topics.contains topic with
  | true =>
    rw [hc] at h
    exact run_poll_of_ended h more
  | false =>
    rw [hc] at h
    exact run_poll_of_ended (w := (w.run env (log (unhandled topic))).2) h more

/-- A consumer, followed for any number of rounds, polls until a poll brings no usable delivery, and
then it returns, or fails, and then it returns the failure, or the limit is noticed.  The usable
deliveries of each batch are handed to the router once, in order, before the next batch is received.
Below the greatest limit it receives at most as many batches as it is allowed, and returns in the
round behind that at the latest.  The greatest limit is never noticed.  Once polling is over, more
rounds change nothing. -/
theorem consume_polls (hr : r.Serves topic) (hq : ∀ k, env.receive k topic ≠ none) (w : World)
    (maxPolls : UInt32) (rounds : Nat) :
    ∃ t polls stop,
      (w.run env (consume r topic maxPolls rounds)).2.journal =
        w.journal ++ (announced r topic ++ t) ∧
      (w.run env (consume r topic maxPolls rounds)).1 =
        some (stop.result (.ofNat polls.length)) ∧
      Polled env r topic maxPolls 0 rounds t polls stop ∧
      (only Request.isReceive t).length = polls.length + stop.polls ∧
      (maxPolls.toNat + 1 < UInt32.size →
        (only Request.isReceive t).length ≤ maxPolls.toNat ∧
        (maxPolls.toNat < rounds → stop ≠ .ongoing)) ∧
      (maxPolls.toNat + 1 = UInt32.size → stop ≠ .limit) ∧
      (stop ≠ .ongoing → ∀ more, w.run env (consume r topic maxPolls (rounds + more)) =
        w.run env (consume r topic maxPolls rounds)) := by
  obtain ⟨t, polls, stop, hdoes, hpolled⟩ := exists_does_consume hr hq w maxPolls rounds
  have hreceives := hpolled.length_receives hr
  refine ⟨t, polls, stop, hdoes.journal, hdoes.result, hpolled, hreceives, ?below, ?greatest,
    ?more⟩
  case below =>
    intro hm
    have hbound := hpolled.bound hm
    refine ⟨by omega, fun hlt hs => ?_⟩
    have hrounds := hpolled.ongoing hs
    omega
  case greatest => exact fun hm hs => Nat.ne_of_lt (hpolled.noticed hs) hm
  case more =>
    intro hs
    cases stop with
    | ongoing => exact absurd rfl hs
    | limit | empty | failed => exact run_consume_of_ended hdoes.result

end Polling

theorem serves_scripted : Router.scripted.Serves "t" := by
  intro handle hh
  obtain rfl := Option.some.inj (Router.find?_scripted.symm.trans hh)
  exact Router.serving_handleWith (Topic.Script.asks_processor "t")

/-- Surroundings whose queue hands out what is due at each request. -/
def Surroundings.handing (due : Nat → List Delivery) : Surroundings :=
  { Router.calm with receive := fun k _ => some (.ok (due k)) }

/-- One poll brings a message, and the next brings none, long before the limit. -/
theorem consume_polls_twice :
    let env := Surroundings.handing fun k => if k = 0 then [.failing 1] else []
    Router.scripted.Serves "t" ∧ (∀ k, env.receive k "t" ≠ none) ∧
      ∃ t polls stop, ((World.new .fresh).run env (consume .scripted "t" 10 11)).2.journal = t ∧
        Polled env .scripted "t" 10 0 11 t polls stop ∧ polls.length = 1 ∧ stop = .empty [] := by
  intro env
  have hq : ∀ k, env.receive k "t" ≠ none := fun _ => nofun
  obtain ⟨t, polls, stop, hjournal, -, hpolled, hlength, hbelow, -⟩ :=
    consume_polls serves_scripted hq (.new .fresh) 10 11
  have ht : ((World.new .fresh).run env (consume .scripted "t" 10 11)).2.journal = t := hjournal
  have htwo : (only Request.isReceive
      ((World.new .fresh).run env (consume .scripted "t" 10 11)).2.journal).length = 2 := by
    decide +kernel
  rw [ht, hlength] at htwo
  refine ⟨serves_scripted, hq, t, polls, stop, ht, hpolled, ?_⟩
  cases stop with
  | ongoing => exact absurd rfl ((hbelow (by decide)).2 (by decide))
  | limit =>
    have hten : 0 + polls.length = 10 := hpolled.limit rfl
    exact absurd (hten.symm.trans ((Nat.zero_add _).trans htwo)) (by decide)
  | failed e =>
    obtain ⟨k, hk⟩ := hpolled.caused
    cases hk
  | empty ds =>
    refine ⟨Nat.succ.inj htwo, ?_⟩
    obtain ⟨⟨k, hk⟩, hds⟩ := hpolled.caused
    obtain rfl : (if k = 0 then [.failing 1] else []) = ds := Except.ok.inj (Option.some.inj hk)
    by_cases h0 : k = 0
    · rw [if_pos h0] at hds
      exact absurd (hds _ List.mem_cons_self) (by decide)
    · rw [if_neg h0]

/-- At the greatest limit, a queue that always brings a message is polled in every round, however
many are followed, and nothing is ever returned. -/
theorem consume_flooded :
    let env := Surroundings.handing fun _ => [.failing 1]
    Router.scripted.Serves "t" ∧ (∀ k, env.receive k "t" ≠ none) ∧
      ∀ rounds, ((World.new .fresh).run env (consume .scripted "t" 4294967295 rounds)).1 =
          some (.going (.ofNat rounds)) ∧
        (only Request.isReceive ((World.new .fresh).run env
          (consume .scripted "t" 4294967295 rounds)).2.journal).length = rounds := by
  intro env
  have hq : ∀ k, env.receive k "t" ≠ none := fun _ => nofun
  refine ⟨serves_scripted, hq, fun rounds => ?_⟩
  obtain ⟨t, polls, stop, hdoes, hpolled⟩ :=
    exists_does_consume serves_scripted hq (.new .fresh) 4294967295 rounds
  have hjournal : ((World.new .fresh).run env
      (consume .scripted "t" 4294967295 rounds)).2.journal = t := hdoes.journal
  obtain rfl : stop = .ongoing := by
    cases stop with
    | ongoing => rfl
    | limit => exact absurd (hpolled.noticed rfl) (by decide)
    | failed e =>
      obtain ⟨k, hk⟩ := hpolled.caused
      cases hk
    | empty ds =>
      obtain ⟨⟨k, hk⟩, hds⟩ := hpolled.caused
      obtain rfl : [.failing 1] = ds := Except.ok.inj (Option.some.inj hk)
      exact absurd (hds _ List.mem_cons_self) (by decide)
  have hlength : polls.length = rounds := hpolled.ongoing rfl
  refine ⟨hdoes.result.trans (by rw [hlength]; rfl), ?_⟩
  rw [hjournal, hpolled.length_receives serves_scripted, hlength]
  rfl

end CommandLine

end DeadLetters
