import DeadLetters.Proofs.Alone
import DeadLetters.Proofs.Isolation
import DeadLetters.Proofs.Series

/-!
# The account of a batch

The messages of a batch are handled together, by any schedule.  Each has its own exchanges in the
run: those of its handler, and behind them those of the router, which either counts a retry, or
counts the dead letter if there is one, acknowledges the message, and counts what came of that.  The
report counts the outcomes one by one.

    each outcome that is added keeps the counters of a report exact    (BatchReport.Exact.push)
    a delivery is its handler's exchanges, and then its account               (deliver_settles)
    the exchanges of a batch are those of its messages, interleaved         (together_accounts)
    the report, the acknowledgements and the counters agree                   (batch_accounted)
-/

namespace DeadLetters

open Program

/-! ## Counters of a report -/

namespace BatchReport

/-- The counters of a report count its outcomes. -/
structure Exact (b : BatchReport) : Prop where
  processed : b.processed = b.outcomes.countP fun o => o.disposition matches .processed
  deadLettered :
    b.deadLettered = b.outcomes.countP fun o => o.disposition matches .deadLettered _ _
  retried : b.retried = b.outcomes.countP fun o => o.disposition matches .retry _ _
  unroutable : b.unroutable = b.outcomes.countP fun o => o.disposition matches .unroutable
  ackFailures : b.ackFailures = b.outcomes.countP fun o => o.disposition.settles && !o.acked

theorem exact_empty (topic : String) : (empty topic).Exact := ⟨rfl, rfl, rfl, rfl, rfl⟩

theorem Exact.push {b : BatchReport} (h : b.Exact) (o : Outcome) : (b.push o).Exact := by
  have counted : ∀ {n : Nat} {p : Outcome → Bool}, n = b.outcomes.countP p →
      n + (if p o then 1 else 0) = (b.outcomes ++ [o]).countP p := by
    intro n p hn
    rw [List.countP_append, List.countP_singleton, hn]
  rw [push_eq]
  exact ⟨counted h.processed, counted h.deadLettered, counted h.retried, counted h.unroutable,
    counted h.ackFailures⟩

theorem Exact.foldl_push {b : BatchReport} (h : b.Exact) (os : List Outcome) :
    (os.foldl BatchReport.push b).Exact := by
  induction os generalizing b with
  | nil => exact h
  | cons o os ih => exact ih (h.push o)

/-- The counters of the report of a batch are exact. -/
theorem exact_ofOutcomes (topic : String) (os : List Outcome) : (ofOutcomes topic os).Exact :=
  (exact_empty topic).foldl_push os

/-- Each outcome has one disposition. -/
theorem Exact.total {b : BatchReport} (h : b.Exact) :
    b.processed + b.deadLettered + b.retried + b.unroutable = b.outcomes.length := by
  rw [h.processed, h.deadLettered, h.retried, h.unroutable]
  induction b.outcomes with
  | nil => rfl
  | cons o os ih =>
    simp only [List.countP_cons, List.length_cons] at ih ⊢
    cases o.disposition <;> simp <;> omega

end BatchReport

/-! ## Counters of a router -/

/-- What a router counts. -/
inductive Meter where
  | acked
  | ackError
  | deadLettered
  | retried
  deriving DecidableEq

namespace Meter

def name : Meter → String
  | acked => "acked"
  | ackError => "ack_error"
  | deadLettered => "dead_lettered"
  | retried => "retried"

def key (k : Meter) : String := Router.heading ++ k.name

theorem heading_prefix (k : Meter) : Router.heading.toList <+: k.key.toList := by
  rw [key, String.toList_append]
  exact List.prefix_append _ _

/-- Where a counter is read: its total, and its series for a topic. -/
inductive At (k : Meter) (topic : String) : String → Prop
  | total : At k topic k.key
  | series : At k topic (seriesKey k.key [("topic", topic)])

/-- Whether an outcome is counted. -/
def counts : Meter → Outcome → Bool
  | acked, o => o.acked
  | ackError, o => o.disposition.settles && !o.acked
  | deadLettered, o => (o.disposition matches .deadLettered _ _)
  | retried, o => (o.disposition matches .retry _ _)

/-- What a report tells of a counter. -/
def reading : Meter → BatchReport → Nat
  | acked, b => b.outcomes.countP Outcome.acked
  | ackError, b => b.ackFailures
  | deadLettered, b => b.deadLettered
  | retried, b => b.retried

theorem reading_eq (k : Meter) {b : BatchReport} (h : b.Exact) :
    k.reading b = b.outcomes.countP k.counts := by
  cases k with
  | acked => rfl
  | ackError => exact h.ackFailures
  | deadLettered => exact h.deadLettered
  | retried => exact h.retried

theorem key_inj {k k' : Meter} : k.key = k'.key ↔ k = k' := by
  refine ⟨fun h => ?_, congrArg key⟩
  have hname : k.name = k'.name := by
    have h' := congrArg String.toList h
    rw [key, key, String.toList_append, String.toList_append, List.append_cancel_left_eq] at h'
    exact String.toList_inj.1 h'
  cases k <;> cases k' <;> first | rfl | exact absurd hname (by decide)

/-- Names do not have what opens tags. -/
theorem not_mem_key (k : Meter) : '\x7b' ∉ k.key.toList := by
  rw [key, String.toList_append]
  cases k <;> decide

theorem At.heading_prefix {k : Meter} {topic key : String} (h : k.At topic key) :
    Router.heading.toList <+: key.toList := by
  cases h with
  | total => exact k.heading_prefix
  | series =>
    obtain ⟨r, hr⟩ := toList_seriesKey k.key [("topic", topic)]
    rw [hr]
    exact k.heading_prefix.trans (List.prefix_append _ _)

/-- A series with a topic is that of one name. -/
theorem seriesKey_inj {k k' : Meter} {topic : String} :
    seriesKey k.key [("topic", topic)] = seriesKey k'.key [("topic", topic)] ↔ k = k' := by
  have htopic : '=' ∉ "topic".toList := by decide
  rw [seriesKey_single_inj k.not_mem_key k'.not_mem_key htopic htopic, and_iff_left rfl, key_inj]

end Meter

namespace Router

variable {r : Router} {topic : String} {m : Message String} {t : List Exchange}

/-! ## The account of a message -/

/-- The sample of a router, where samples are recorded. -/
def counted (r : Router) (topic : String) (k : Meter) : List Exchange :=
  if r.sink = .recorded then [⟨.sample (.counter k.key 1 [("topic", topic)]), ()⟩] else []

def confirms : Option (Except Transport.Error Unit) → Bool
  | some (.ok ()) => true
  | some (.error _) | none => false

/-- An acknowledgement, and how it is counted. -/
def acknowledging (r : Router) (topic : String) (m : Message String)
    (a : Option (Except Transport.Error Unit)) : List Exchange :=
  ⟨.acknowledge topic m, a⟩ :: r.counted topic (if confirms a then .acked else .ackError)

/-- What the router does about a message, by its disposition and the answer of the acknowledger. -/
def account (r : Router) (topic : String) (m : Message String)
    (a : Option (Except Transport.Error Unit)) : Disposition → List Exchange
  | .retry _ _ => r.counted topic .retried
  | .deadLettered _ _ => r.counted topic .deadLettered ++ r.acknowledging topic m a
  | .processed | .unroutable => r.acknowledging topic m a

theorem count_accounts {k : Meter} (h : (r.count k.name topic).Goes t (done ())) :
    only Request.isRouters t = r.counted topic k := by
  have hown : (Request.sample (.counter k.key 1 [("topic", topic)])).isRouters = true :=
    List.isPrefixOf_iff_prefix.2 k.heading_prefix
  unfold counted
  unfold count at h
  cases hs : r.sink with
  | recorded =>
    rw [hs] at h
    rcases goes_ask_iff.1 (show (ask (.sample _) done).Goes t (done ()) from h) with
      ⟨-, hd⟩ | ⟨⟨⟩, u, rfl, hu⟩
    · cases hd
    · obtain ⟨rfl, -⟩ := goes_done_iff.1 hu
      rw [if_pos rfl]
      exact (only_cons _ _ _).trans (if_pos hown)
  | logged =>
    rw [hs] at h
    exact h.only_eq_nil (lenient_not_routers.log _)

theorem acknowledge_accounts {acked : Bool} (h : (r.acknowledge topic m).Goes t (done acked)) :
    ∃ a, only Request.isRouters t = r.acknowledging topic m a ∧ acked = confirms a := by
  obtain ⟨t₁, t₂, a, rfl, h₁, h₂⟩ := goes_bind_done_iff.1 h
  rw [goes_within_done_iff, goes_acknowledge_await_iff] at h₁
  subst h₁
  refine ⟨a, ?_⟩
  have failed : ∀ e : Log.Event, ((log e).bind fun _ => (r.count "ack_error" topic).bind fun _ =>
      done false).Goes t₂ (done acked) →
        only Request.isRouters t₂ = r.counted topic .ackError ∧ acked = false := by
    intro e he
    obtain ⟨u₁, u₂, ⟨⟩, rfl, h₃, h₄⟩ := goes_bind_done_iff.1 he
    obtain ⟨u₃, u₄, ⟨⟩, rfl, h₅, h₆⟩ := goes_bind_done_iff.1 h₄
    obtain ⟨rfl, hd⟩ := goes_done_iff.1 h₆
    rw [only_append, h₃.only_eq_nil (lenient_not_routers.log e), List.append_nil,
      count_accounts (k := .ackError) h₅]
    exact ⟨rfl, done.inj hd⟩
  have counted : only Request.isRouters t₂ =
      r.counted topic (if confirms a then .acked else .ackError) ∧ acked = confirms a := by
    rcases a with _ | (e | ⟨⟨⟩⟩)
    · exact failed _ h₂
    · exact failed _ h₂
    · obtain ⟨u₁, u₂, ⟨⟩, rfl, h₃, h₄⟩ := goes_bind_done_iff.1 h₂
      obtain ⟨rfl, hd⟩ := goes_done_iff.1 h₄
      rw [List.append_nil]
      exact ⟨count_accounts (k := .acked) h₃, done.inj hd⟩
  rw [only_append, counted.1]
  exact ⟨rfl, counted.2⟩

theorem settle_accounts {d : Disposition} {acked : Bool}
    (h : (r.settle topic m d).Goes t (done acked)) :
    ∃ a, only Request.isRouters t = r.account topic m a d ∧
      acked = (d.settles && confirms a) := by
  cases d with
  | retry kind reason =>
    obtain ⟨u₁, u₂, ⟨⟩, rfl, h₁, h₂⟩ := goes_bind_done_iff.1 h
    obtain ⟨rfl, hd⟩ := goes_done_iff.1 h₂
    rw [List.append_nil, count_accounts (k := .retried) h₁]
    exact ⟨none, rfl, done.inj hd⟩
  | deadLettered id cause =>
    obtain ⟨u₁, u₂, ⟨⟩, rfl, h₁, h₂⟩ := goes_bind_done_iff.1 h
    obtain ⟨a, ha, hacked⟩ := acknowledge_accounts h₂
    rw [only_append, count_accounts (k := .deadLettered) h₁, ha]
    exact ⟨a, rfl, hacked⟩
  | processed => exact acknowledge_accounts h
  | unroutable => exact acknowledge_accounts h

/-! ## Handlers -/

/-- Whoever handles a topic comes to an end, and leaves acknowledging and counting to the router. -/
def Delegates (r : Router) (topic : String) : Prop :=
  ∀ handle, r.handlers.find? topic = some handle → ∀ m, (handle m).Ends ∧ (handle m).Leaves

/-- In these exchanges the handler of the topic comes to the disposition; or there is no handler,
and nothing is asked. -/
def Disposes (r : Router) (topic : String) (m : Message String) (t : List Exchange)
    (d : Disposition) : Prop :=
  match r.handlers.find? topic with
  | some handle => (handle m).Goes t (done d)
  | none => t = [] ∧ d = .unroutable

theorem Delegates.ends_deliver (h : r.Delegates topic) (m : Message String) :
    (r.deliver topic m).Ends := by
  cases hh : r.handlers.find? topic with
  | some handle => exact Router.ends_deliver hh (h handle hh m).1
  | none =>
    rw [deliver_of_none hh]
    exact (ends_settle _).bind fun _ => trivial

/-- A message of a batch, and what was done about it in a run: what its handler asked for, what the
router asked for behind that, what became of the message, and what the acknowledger answered if it
was called. -/
structure Settlement where
  message : Message String
  handling : List Exchange
  settling : List Exchange
  outcome : Outcome
  answer : Option (Except Transport.Error Unit)

namespace Settlement

/-- The call of the acknowledger, if there is one. -/
def acknowledgement (topic : String) (c : Settlement) : List Exchange :=
  if c.outcome.disposition.settles then [⟨.acknowledge topic c.message, c.answer⟩] else []

def account (r : Router) (topic : String) (c : Settlement) : List Exchange :=
  r.account topic c.message c.answer c.outcome.disposition

end Settlement

/-- The outcome is that of the message: its handler came to the disposition in these exchanges, and
the router settled the message by it, and by nothing else. -/
structure Settled (r : Router) (topic : String) (c : Settlement) : Prop where
  messageId : c.outcome.messageId = c.message.id
  attempt : c.outcome.attempt = c.message.attempt
  disposes : r.Disposes topic c.message c.handling c.outcome.disposition
  settles : (r.settle topic c.message c.outcome.disposition).Goes c.settling (done c.outcome.acked)
  account : only Request.isRouters (c.handling ++ c.settling) = c.account r topic
  acked : c.outcome.acked = true ↔
    c.outcome.disposition.settles = true ∧ c.answer = some (.ok ())

theorem confirms_iff {a : Option (Except Transport.Error Unit)} :
    confirms a = true ↔ a = some (.ok ()) := by
  rcases a with _ | (e | ⟨⟨⟩⟩) <;> simp [confirms]

/-- What a handler has come to is settled by the router, and only the router acknowledges and
counts. -/
theorem settled_of_goes {d : Disposition} {acked : Bool} {handling settling : List Exchange}
    (hd : r.Disposes topic m handling d) (hq : only Request.isRouters handling = [])
    (h : (r.settle topic m d).Goes settling (done acked)) :
    ∃ a, r.Settled topic ⟨m, handling, settling, ⟨m.id, m.attempt, d, acked⟩, a⟩ := by
  obtain ⟨a, ha, hacked⟩ := settle_accounts h
  refine ⟨a, rfl, rfl, hd, h, by rw [only_append, hq, List.nil_append, ha]; rfl, ?_⟩
  rw [hacked, Bool.and_eq_true, confirms_iff]

/-- A delivery is what its handler asks for, and behind that what the router does. -/
theorem deliver_settles (hr : r.Delegates topic) {o : Outcome}
    (h : (r.deliver topic m).Goes t (done o)) :
    ∃ c : Settlement, c.message = m ∧ c.outcome = o ∧ r.Settled topic c ∧
      t = c.handling ++ c.settling := by
  cases hh : r.handlers.find? topic with
  | some handle =>
    obtain ⟨t₁, t₂, d, acked, rfl, h₁, h₂, rfl⟩ := deliver_ends hh h
    have hd : r.Disposes topic m t₁ d := by
      unfold Disposes
      rwa [hh]
    obtain ⟨a, hc⟩ := settled_of_goes hd (h₁.only_eq_nil (hr handle hh m).2) h₂
    exact ⟨_, rfl, rfl, hc, rfl⟩
  | none =>
    rw [deliver_of_none hh] at h
    obtain ⟨t₁, t₂, acked, rfl, h₁, h₂⟩ := goes_bind_done_iff.1 h
    obtain ⟨rfl, ho⟩ := goes_done_iff.1 h₂
    have hd : r.Disposes topic m [] .unroutable := by
      unfold Disposes
      rw [hh]
      exact ⟨rfl, rfl⟩
    obtain ⟨a, hc⟩ := settled_of_goes hd rfl h₁
    exact ⟨_, rfl, done.inj ho.symm, hc, List.append_nil _⟩

theorem only_acknowledge_counted (k : Meter) :
    only Request.isAcknowledge (r.counted topic k) = [] := by
  unfold counted
  split <;> rfl

/-- A message is acknowledged once if it is done with, and not at all otherwise. -/
theorem only_acknowledge_account (c : Settlement) :
    only Request.isAcknowledge (c.account r topic) = c.acknowledgement topic := by
  obtain ⟨m, -, -, ⟨id, attempt, d, acked⟩, a⟩ := c
  have hack : only Request.isAcknowledge (r.acknowledging topic m a) =
      [⟨.acknowledge topic m, a⟩] :=
    (only_cons _ _ _).trans ((if_pos rfl).trans (congrArg _ (only_acknowledge_counted _)))
  cases d with
  | retry kind reason => exact only_acknowledge_counted _
  | deadLettered id cause =>
    show only _ (r.counted topic .deadLettered ++ r.acknowledging topic m a) = _
    rw [only_append, only_acknowledge_counted, hack]
    rfl
  | processed => exact hack
  | unroutable => exact hack

/-! ## Counters -/

theorem adds_counted (hs : r.sink = .recorded) {k : Meter} {key : String} (h : k.At topic key)
    (k' : Meter) : added key (r.counted topic k') = if k' = k then 1 else 0 := by
  have hone : added key (r.counted topic k') =
      (if key = k'.key then 1 else 0) +
        if key = seriesKey k'.key [("topic", topic)] then 1 else 0 := by
    rw [counted, if_pos hs]
    simp [added, Exchange.adds, Exchange.sampled?, Sample.adds]
  rw [hone]
  cases h with
  | total =>
    rw [if_neg (ne_seriesKey k.not_mem_key k'.key _), Nat.add_zero]
    exact if_congr (Meter.key_inj.trans eq_comm) rfl rfl
  | series =>
    rw [if_neg (ne_seriesKey k'.not_mem_key k.key _).symm, Nat.zero_add]
    exact if_congr (Meter.seriesKey_inj.trans eq_comm) rfl rfl

/-- What a router does about a message adds one to what its outcome is counted as. -/
theorem adds_account (hs : r.sink = .recorded) {k : Meter} {key : String} (h : k.At topic key)
    {c : Settlement} (hc : r.Settled topic c) :
    added key (c.account r topic) = if k.counts c.outcome then 1 else 0 := by
  have hcounted := adds_counted hs h
  have hack : ∀ m a, added key (r.acknowledging topic m a) =
      if (if confirms a then Meter.acked else .ackError) = k then 1 else 0 := by
    intro m a
    rw [← hcounted]
    exact (congrArg (· + _) rfl).trans (Nat.zero_add _)
  obtain ⟨m, _, _, ⟨id, attempt, d, acked⟩, a⟩ := c
  obtain rfl : acked = (d.settles && confirms a) := by
    rw [Bool.eq_iff_iff, Bool.and_eq_true, confirms_iff]
    exact hc.acked
  cases d with
  | retry kind reason =>
    refine (hcounted _).trans ?_
    cases k <;> rfl
  | deadLettered id cause =>
    refine (added_append _ _ _).trans ?_
    rw [hcounted, hack]
    cases k <;> cases confirms a <;> rfl
  | processed =>
    refine (hack m a).trans ?_
    cases k <;> cases confirms a <;> rfl
  | unroutable =>
    refine (hack m a).trans ?_
    cases k <;> cases confirms a <;> rfl

theorem adds_accounts (hs : r.sink = .recorded) {k : Meter} {key : String} (h : k.At topic key)
    {cs : List Settlement} (hcs : ∀ c ∈ cs, r.Settled topic c) :
    added key (cs.flatMap fun c => c.account r topic) =
      (cs.map Settlement.outcome).countP k.counts := by
  induction cs with
  | nil => rfl
  | cons c cs ih =>
    rw [List.flatMap_cons, added_append, adds_account hs h (hcs c List.mem_cons_self),
      ih fun d hd => hcs d (List.mem_cons_of_mem c hd), List.map_cons, List.countP_cons,
      Nat.add_comm]

/-! ## Deliveries together -/

section

variable {env : Surroundings} {ms : List (Message String)} {w w' : World} {cs : List Settlement}

/-- Events that lead from a store to another, in which each message of a batch has its own
exchanges: those of its handler, and then those of the router. -/
structure Interleaves (cs : List Settlement) (s : Store) (t : List Event) (s' : Store) : Prop where
  history : History s t s'
  thread_lt : ∀ e ∈ t, e.thread < cs.length
  own : ∀ (i : Nat) (c : Settlement), cs[i]? = some c → own i t = c.handling ++ c.settling

/-- What programs ask of a kind is what each of them asks, in some order. -/
theorem perm_only_own {k : Request → Bool} {n : Nat} {t : List Event}
    (h : ∀ e ∈ t, e.thread < n) :
    (only k (t.map Event.exchange)).Perm
      ((List.range n).flatMap fun i => only k (own i t)) := by
  classical
  have hfilter : ∀ u : List Exchange,
      u.filterMap (Option.guard fun x => k x.request) = only k u := fun u => by
    rw [List.filterMap_eq_filter]
    rfl
  have hperm := perm_flatMap_own (Option.guard fun x => k x.request) h
  simp only [hfilter] at hperm
  rwa [← hfilter, List.filterMap_map]

/-- Between two worlds, what has been done is what the messages of a batch have needed. -/
structure Does (r : Router) (topic : String) (cs : List Settlement) (w : World) (t : List Event)
    (w' : World) : Prop where
  settled : ∀ c ∈ cs, r.Settled topic c
  journal : w'.journal = w.journal ++ t.map Event.exchange
  interleaves : Interleaves cs w.store t w'.store

/-- What the router has done is the accounts of its messages, in some order. -/
theorem Does.perm {t : List Event} (h : r.Does topic cs w t w') :
    (only Request.isRouters (t.map Event.exchange)).Perm
      (cs.flatMap fun c => c.account r topic) := by
  have haccounts : ((List.range cs.length).flatMap fun i => only Request.isRouters (own i t)) =
      cs.flatMap fun c => c.account r topic :=
    flatMap_range fun i c hc => by
      rw [h.interleaves.own i c hc, (h.settled c (List.mem_of_getElem? hc)).account]
  rw [← haccounts]
  exact perm_only_own h.interleaves.thread_lt

/-- Each message of a batch has its outcome, whatever the order of the deliveries. -/
theorem together_accounts (hr : r.Delegates topic) (env : Surroundings) (schedule : List Nat)
    (ms : List (Message String)) (w : World) :
    ∃ cs t, cs.map Settlement.message = ms ∧
      (World.together env schedule (ms.map (r.deliver topic)) w).1 =
        (cs.map Settlement.outcome).map some ∧
      r.Does topic cs w t (World.together env schedule (ms.map (r.deliver topic)) w).2 := by
  obtain ⟨t, ht, hlt, hlength, hg⟩ :=
    @World.together_steps _ env schedule (ms.map (r.deliver topic)) w
  rw [List.length_map] at hlt hlength
  have each : ∀ i : Fin ms.length, ∃ c : Settlement, c.message = ms[i] ∧
      (World.together env schedule (ms.map (r.deliver topic)) w).1[i.val]? = some (some c.outcome) ∧
      r.Settled topic c ∧ own i t = c.handling ++ c.settling := by
    intro i
    obtain ⟨o, ho, hgoes⟩ := hg i (r.deliver topic ms[i]) (by simp)
    cases o with
    | none => exact absurd hgoes (hr.ends_deliver _).not_stuck
    | some o =>
      obtain ⟨c, hm, rfl, hc, hown⟩ := deliver_settles hr hgoes
      exact ⟨c, hm, ho, hc, hown⟩
  choose c hmessage houtcome hsettled hown using each
  refine ⟨List.ofFn c, t, ?_, ?_, List.forall_mem_ofFn_iff.2 hsettled, ht.journal, ht.history, ?_,
    fun i d hd => ?_⟩
  · rw [List.map_ofFn, show Settlement.message ∘ c = fun i => ms[i] from funext hmessage]
    exact List.ofFn_getElem
  · refine List.ext_getElem? fun i => ?_
    rw [List.map_map, List.map_ofFn, List.getElem?_ofFn]
    by_cases hi : i < ms.length
    · rw [dif_pos hi]
      exact houtcome ⟨i, hi⟩
    · rw [dif_neg hi]
      exact List.getElem?_eq_none (by omega)
  · rwa [List.length_ofFn]
  · rw [List.getElem?_ofFn] at hd
    by_cases hi : i < ms.length
    · rw [dif_pos hi, Option.some.injEq] at hd
      exact hd ▸ hown ⟨i, hi⟩
    · rw [dif_neg hi] at hd
      cases hd

/-- Without a handler nothing asks the store. -/
theorem Does.store_eq {t : List Event} (h : r.Does topic cs w t w')
    (hn : r.handlers.find? topic = none) : w'.store = w.store := by
  refine h.interleaves.history.eq_of_elsewhere fun e he q hq => ?_
  have hthread := h.interleaves.thread_lt e he
  have hc := h.settled cs[e.thread] (List.getElem_mem hthread)
  have hown := h.interleaves.own e.thread _ (List.getElem?_eq_getElem hthread)
  have hdisposes := hc.disposes
  unfold Disposes at hdisposes
  rw [hn] at hdisposes
  rw [hdisposes.1, List.nil_append] at hown
  have hquery := (asks_settle lenient_not_query r fun _ => rfl).request hc.settles _
    (hown ▸ mem_own_of_mem he)
  rw [show e.exchange.request = .store q from hq] at hquery
  cases hquery

/-! ## Batches -/

/-- A batch whose messages are handled together: its deliveries take turns by a schedule, between
the lines before and behind a batch. -/
def handleTogether (r : Router) (env : Surroundings) (schedule : List Nat) (topic : String)
    (ms : List (Message String)) (w : World) : Option BatchReport × World :=
  let opened := (w.run env (r.opening topic ms)).2
  let (results, handled) := World.together env schedule (ms.map (r.deliver topic)) opened
  match results.mapM id with
  | some os =>
    let report := BatchReport.ofOutcomes topic os
    (some report, (handled.answer env (.log (closing topic report))).2)
  | none => (none, handled)

theorem handleTogether_of {os : List Outcome} {schedule : List Nat}
    (h : (World.together env schedule (ms.map (r.deliver topic))
      (w.run env (r.opening topic ms)).2).1 = os.map some) :
    r.handleTogether env schedule topic ms w = (some (.ofOutcomes topic os),
      ((World.together env schedule (ms.map (r.deliver topic))
        (w.run env (r.opening topic ms)).2).2.answer env
          (.log (closing topic (.ofOutcomes topic os)))).2) := by
  have hall : (os.map some).mapM id = some os := by
    clear h
    induction os with
    | nil => rfl
    | cons o os ih => simp [ih]
  unfold handleTogether
  simp only [h, hall]

/-- A batch that is handled message by message is one under the empty schedule. -/
theorem run_processBatch_eq (hr : r.Delegates topic) (env : Surroundings)
    (ms : List (Message String)) (w : World) :
    w.run env (r.processBatch topic ms) = r.handleTogether env [] topic ms w := by
  obtain ⟨os, hrun, hos⟩ := @run_deliverAll r topic env ms hr.ends_deliver
    (w.run env (r.opening topic ms)).2
  obtain ⟨⟨⟩, hopening⟩ := @World.exists_result _ env _ (ends_opening ms) w
  rw [handleTogether_of hos, processBatch_eq,
    World.run_bind_of (Prod.ext hopening rfl), World.run_bind_of hrun]
  rfl

end

section

variable {env : Surroundings} {ms : List (Message String)} {w w' : World}
  {cs : List Settlement} {report : BatchReport}

/-- The report of a batch, and what has been done between two worlds, account for its messages: `cs`
tells of each of them, in order.  The run is an interleaving of what was done about them, between
the lines before and behind a batch. -/
structure Accounts (r : Router) (topic : String) (ms : List (Message String))
    (cs : List Settlement) (report : BatchReport) (w w' : World) : Prop where
  messages : cs.map Settlement.message = ms
  settled : ∀ c ∈ cs, r.Settled topic c
  reported : report.topic = topic
  outcomes : report.outcomes = cs.map Settlement.outcome
  processed : report.processed = cs.countP fun c => c.outcome.disposition matches .processed
  deadLettered :
    report.deadLettered = cs.countP fun c => c.outcome.disposition matches .deadLettered _ _
  retried : report.retried = cs.countP fun c => c.outcome.disposition matches .retry _ _
  unroutable : report.unroutable = cs.countP fun c => c.outcome.disposition matches .unroutable
  total : report.processed + report.deadLettered + report.retried + report.unroutable = ms.length
  failures :
    report.ackFailures = cs.countP fun c => c.outcome.disposition.settles && !confirms c.answer
  journal : ∃ before t, (r.opening topic ms).Goes before (done ()) ∧
    w'.journal = w.journal ++
      (before ++ (t.map Event.exchange ++ [⟨.log (closing topic report), ()⟩])) ∧
    Interleaves cs w.store t w'.store
  acknowledged : ∃ new, only Request.isAcknowledge w'.journal =
      only Request.isAcknowledge w.journal ++ new ∧
    new.Perm (cs.flatMap fun c => c.acknowledgement topic)
  counters : r.sink = .recorded → ∀ (k : Meter) (key : String), k.At topic key →
    (tallyOf w'.journal).counter key =
      ((tallyOf w.journal).counter key + k.reading report) % UInt64.size
  unhandled : r.handlers.find? topic = none →
    (∀ o ∈ report.outcomes, o.disposition = .unroutable) ∧ w'.store = w.store

/-- There is a report, and it accounts for the messages. -/
def Accounted (r : Router) (topic : String) (ms : List (Message String)) (w : World)
    (result : Option BatchReport × World) : Prop :=
  ∃ report cs, result.1 = some report ∧ r.Accounts topic ms cs report w result.2

theorem only_acknowledge_routers (t : List Exchange) :
    only Request.isAcknowledge (only Request.isRouters t) = only Request.isAcknowledge t := by
  rw [only, only, List.filter_filter]
  refine List.filter_congr fun x _ => ?_
  obtain ⟨y, a⟩ := x
  cases y <;> rfl

/-- What is added to a journal tells the acknowledgements of a batch, and what is counted of it. -/
structure Adds (r : Router) (topic : String) (cs : List Settlement) (w : World) (u : List Exchange)
    (w' : World) : Prop where
  settled : ∀ c ∈ cs, r.Settled topic c
  journal : w'.journal = w.journal ++ u
  perm : (only Request.isRouters u).Perm (cs.flatMap fun c => c.account r topic)

theorem Adds.acknowledged {u : List Exchange} (h : r.Adds topic cs w u w') :
    ∃ new, only Request.isAcknowledge w'.journal = only Request.isAcknowledge w.journal ++ new ∧
      new.Perm (cs.flatMap fun c => c.acknowledgement topic) := by
  refine ⟨only Request.isAcknowledge u, by rw [h.journal, only_append], ?_⟩
  have heach : only Request.isAcknowledge (cs.flatMap fun c => c.account r topic) =
      cs.flatMap fun c => c.acknowledgement topic := by
    rw [only, List.filter_flatMap]
    exact congrArg (fun f => cs.flatMap f) (funext only_acknowledge_account)
  rw [← heach, ← only_acknowledge_routers u]
  exact h.perm.filter _

theorem Adds.counter {u : List Exchange} (h : r.Adds topic cs w u w') (hs : r.sink = .recorded)
    {k : Meter} {key : String} (hk : k.At topic key) :
    (tallyOf w'.journal).counter key = ((tallyOf w.journal).counter key +
      (cs.map Settlement.outcome).countP k.counts) % UInt64.size := by
  have hadded : added key u = (cs.map Settlement.outcome).countP k.counts := by
    rw [added_eq_added_only hk.heading_prefix, added_perm h.perm]
    exact adds_accounts hs hk h.settled
  rw [h.journal, counter_tallyOf_append, hadded]

/-- Acknowledgements fail that are called for and not confirmed. -/
theorem Settled.failure {c : Settlement} (h : r.Settled topic c) :
    (c.outcome.disposition.settles && !c.outcome.acked) =
      (c.outcome.disposition.settles && !confirms c.answer) := by
  cases hd : c.outcome.disposition.settles with
  | false => rfl
  | true =>
    have hacked : c.outcome.acked = confirms c.answer := by
      rw [Bool.eq_iff_iff, confirms_iff, h.acked, hd]
      exact and_iff_right rfl
    rw [hacked]

/-- What is said before and behind a batch adds nothing to what its deliveries have done. -/
theorem Does.adds {v : World} {before after : List Exchange} {t : List Event}
    (h : r.Does topic cs v t w')
    (hbefore : only Request.isRouters before = []) (hafter : only Request.isRouters after = [])
    {w'' : World} (hv : v.journal = w.journal ++ before) (hw : w''.journal = w'.journal ++ after) :
    r.Adds topic cs w (before ++ (t.map Event.exchange ++ after)) w'' where
  settled := h.settled
  journal := by rw [hw, h.journal, hv, List.append_assoc, List.append_assoc]
  perm := by
    rw [only_append, only_append, hbefore, hafter, List.nil_append, List.append_nil]
    exact h.perm

/-- The deliveries of a batch, between the lines before and behind it, make up its account. -/
theorem Does.accounts {v : World} {before : List Exchange} {t : List Event}
    (h : r.Does topic cs v t w') (hv : v.journal = w.journal ++ before)
    (hstore : v.store = w.store)
    (hbefore : (r.opening topic (cs.map Settlement.message)).Goes before (done ()))
    (hreport : report = .ofOutcomes topic (cs.map Settlement.outcome)) :
    r.Accounts topic (cs.map Settlement.message) cs report w
      (w'.answer env (.log (closing topic report))).2 := by
  have hexact : report.Exact := hreport ▸ BatchReport.exact_ofOutcomes ..
  have houtcomes : report.outcomes = cs.map Settlement.outcome :=
    hreport ▸ BatchReport.outcomes_ofOutcomes ..
  have hadds : r.Adds topic cs w _ (w'.answer env (.log (closing topic report))).2 :=
    h.adds (hbefore.only_eq_nil (asks_opening r topic _ fun _ => rfl)) rfl hv
      (World.journal_answer ..)
  have counted : ∀ {n : Nat} {p : Outcome → Bool}, n = report.outcomes.countP p →
      n = cs.countP fun c => p c.outcome := by
    intro n p hn
    rw [hn, houtcomes]
    exact List.countP_map
  refine ⟨rfl, h.settled, hreport ▸ BatchReport.topic_ofOutcomes .., houtcomes,
    counted hexact.processed, counted hexact.deadLettered, counted hexact.retried,
    counted hexact.unroutable, ?total, ?failures, ?journal, hadds.acknowledged, ?counters,
    ?unhandled⟩
  case total => rw [hexact.total, houtcomes, List.length_map, List.length_map]
  case failures =>
    refine (counted hexact.ackFailures).trans (List.countP_congr fun c hc => ?_)
    exact Bool.eq_iff_iff.1 (h.settled c hc).failure
  case journal => exact ⟨before, t, hbefore, hadds.journal, hstore ▸ h.interleaves⟩
  case counters =>
    intro hs k key hk
    rw [k.reading_eq hexact, houtcomes]
    exact hadds.counter hs hk
  case unhandled =>
    intro hn
    refine ⟨fun o ho => ?_, (h.store_eq hn).trans hstore⟩
    rw [houtcomes] at ho
    obtain ⟨c, hc, rfl⟩ := List.mem_map.1 ho
    have hdisposes := (h.settled c hc).disposes
    unfold Disposes at hdisposes
    rw [hn] at hdisposes
    exact hdisposes.2

/-- A batch whose messages are handled together is accounted for. -/
theorem handleTogether_accounted (hr : r.Delegates topic) (env : Surroundings)
    (schedule : List Nat) (ms : List (Message String)) (w : World) :
    r.Accounted topic ms w (r.handleTogether env schedule topic ms w) := by
  obtain ⟨cs, t, rfl, hresults, hdoes⟩ :=
    together_accounts hr env schedule ms (w.run env (r.opening topic ms)).2
  obtain ⟨u, hgoes, hleads⟩ :=
    @World.run_goes _ env 0 w (r.opening topic (cs.map Settlement.message))
  obtain ⟨⟨⟩, hopening⟩ := @World.exists_result _ env _ (ends_opening _) w
  rw [hopening] at hgoes
  have hstore : (w.run env (r.opening topic (cs.map Settlement.message))).2.store = w.store := by
    unfold opening
    split <;> rfl
  rw [handleTogether_of hresults]
  exact ⟨_, cs, rfl, hdoes.accounts hleads.journal hstore hgoes rfl⟩

/-- A batch is accounted for, whether its messages take turns by a schedule or come one after
another. -/
theorem batch_accounted (hr : r.Delegates topic) (env : Surroundings)
    (ms : List (Message String)) (w : World) :
    (∀ schedule, r.Accounted topic ms w (r.handleTogether env schedule topic ms w)) ∧
      r.Accounted topic ms w (w.run env (r.processBatch topic ms)) := by
  refine ⟨fun schedule => handleTogether_accounted hr env schedule ms w, ?_⟩
  rw [run_processBatch_eq hr]
  exact handleTogether_accounted hr env [] ms w

end

/-- The handlers of the content topics leave the router's part to the router. -/
theorem ForContents.delegates {service : Service} {limits : Limits}
    (hr : r.ForContents .store service limits) (topic : String) : r.Delegates topic := by
  intro handle hh m
  by_cases hu : topic = Topic.Upload.topic
  · rw [hu, hr.upload, Option.some.injEq] at hh
    subst hh
    exact ⟨Handler.ends_handleWith, Handler.leaves_handleWith Topic.leaves_upload⟩
  by_cases he : topic = Topic.Enrichment.topic
  · rw [he, hr.enrichment, Option.some.injEq] at hh
    subst hh
    exact ⟨Handler.ends_handleWith, Handler.leaves_handleWith Topic.leaves_enrichment⟩
  · rw [hr.other topic hu he] at hh
    cases hh

/-- The router of the content topics, with counters that can be read. -/
def counting : Router := { contents with sink := .recorded }

theorem delegates_counting (topic : String) : counting.Delegates topic := by
  have hcontents : contents.ForContents .store (.ofConfig {}) (.ofConfig {}) :=
    forContents_of_registerAll (show ((World.new .fresh).run calm (registerAll
      (Topic.handlers .store (.ofConfig {}) (.ofConfig {})) (empty .logged 30))).1 =
        some contents from rfl)
  have hcounting : counting.ForContents .store (.ofConfig {}) (.ofConfig {}) :=
    ⟨hcontents.upload, hcontents.enrichment, hcontents.other⟩
  exact hcounting.delegates topic

/-- Surroundings in which no one hears of the acknowledgement of one message. -/
def deaf (id : String) : Surroundings :=
  { calm with acknowledge := fun _ _ m => if m.id = id then .silent else .accepts }

/-- A batch in which one id stands twice, and one acknowledgement is lost. -/
theorem batch_accounted_mixed :
    counting.Delegates Topic.Enrichment.topic ∧
      counting.Accounted Topic.Enrichment.topic mixed (.new (.knowing "\x7b\x7d"))
        (counting.handleTogether (deaf "3") [3, 1, 0, 2, 3] Topic.Enrichment.topic mixed
          (.new (.knowing "\x7b\x7d"))) ∧
      ((counting.handleTogether (deaf "3") [3, 1, 0, 2, 3] Topic.Enrichment.topic mixed
          (.new (.knowing "\x7b\x7d"))).1.map fun b =>
        (b.processed, b.deadLettered, b.retried, b.ackFailures)) = some (1, 2, 1, 1) := by
  refine ⟨delegates_counting _, (batch_accounted (delegates_counting _) _ _ _).1 _, ?_⟩
  decide +kernel

end Router

end DeadLetters
