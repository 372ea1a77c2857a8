import DeadLetters.Proofs.Path
import DeadLetters.Service.Reprocessing
import DeadLetters.Topic.Processing

/-!
# Footprints

Which requests each operation makes, said once for each.  What concerns neither the store nor a
queue, such as a line of the log or a look at the clock, is said aside; a property of requests that
holds of everything said aside holds of all requests of an operation as soon as it holds of the few
that are left.  Of samples it need only hold of those that are allowed, which have to include those
of the service where the operation counts something:

    giving up      publishes on the dead-letter topic, and inserts its draft        (asks_giveUp)
    reprocessing   gets the dead letter, publishes on its topic, closes it        (asks_reprocess)
    handling       processes the message, or gives it up                         (asks_handleWith)
    delivering     handles the message, and acknowledges it                         (asks_deliver)
    the topics     write content, never dead letters                              (asks_processor)
-/

namespace DeadLetters

/-- Whether a request concerns neither the store nor a queue. -/
def Request.isAside : Request → Bool
  | store _ | send _ _ | acknowledge _ _ | receive _ => false
  | clock | stopwatch | freshId | log _ | sample _ | print _ => true

def Request.touchesLetters : Request → Bool
  | store (.insert _) | store (.mark _ _ _) | store (.delete _) => true
  | _ => false

def Request.isInsert : Request → Bool
  | store (.insert _) => true
  | _ => false

def Request.isAcknowledge : Request → Bool
  | acknowledge _ _ => true
  | _ => false

def Request.isSend : Request → Bool
  | send _ _ => true
  | _ => false

def Request.isQuery : Request → Bool
  | store _ => true
  | _ => false

theorem Request.isInsert_of_touches {r : Request} (h : r.touchesLetters = false) :
    r.isInsert = false := by
  cases r with
  | store q => cases q <;> first | rfl | simp [touchesLetters] at h
  | _ => rfl

/-! ## What is said aside -/

def Sample.name : Sample → String
  | counter name _ _ | gauge name _ _ | timing name _ _ => name

/-- Whether a sample is one of the service's, as its name says. -/
def Sample.isService (s : Sample) : Bool := "dlq.".toList.isPrefixOf s.name.toList

def Sample.Any (_ : Sample) : Prop := True

/-- The samples of the service are among those that are allowed. -/
class AllowsService (allowed : Sample → Prop) : Prop where
  service : ∀ s : Sample, s.isService = true → allowed s

instance : AllowsService Sample.Any := ⟨fun _ _ => trivial⟩

instance : AllowsService fun s => s.isService = true := ⟨fun _ h => h⟩

/-- A property of requests that holds of whatever is said aside, samples only where allowed. -/
def LenientTo (allowed : Sample → Prop) (ok : Request → Prop) : Prop :=
  ∀ r, r.isAside = true → (∀ s, r = .sample s → allowed s) → ok r

/-- A property of requests that holds of whatever is said aside. -/
abbrev Lenient (ok : Request → Prop) : Prop := LenientTo Sample.Any ok

namespace LenientTo

variable {allowed : Sample → Prop} {ok : Request → Prop} (h : LenientTo allowed ok)

include h

theorem clock : Program.clock.Asks ok := Program.asks_clock_iff.2 (h _ rfl nofun)

theorem stopwatch : Program.stopwatch.Asks ok := Program.asks_stopwatch_iff.2 (h _ rfl nofun)

theorem freshId : Program.freshId.Asks ok := Program.asks_freshId_iff.2 (h _ rfl nofun)

theorem log (e : Log.Event) : (Program.log e).Asks ok := Program.asks_log_iff.2 (h _ rfl nofun)

/-- A sink records what is allowed, and logs anything. -/
theorem emit_of_allowed (sink : Sink) {s : Sample} (hs : allowed s) :
    (Program.emit sink s).Asks ok := by
  refine Program.asks_emit (h _ rfl fun s' he => ?_) (h _ rfl nofun)
  rwa [← Request.sample.inj he]

theorem emit_service [AllowsService allowed] (sink : Sink) {s : Sample} (rest : String)
    (hs : s.name = "dlq." ++ rest) : (Program.emit sink s).Asks ok := by
  have hservice : s.isService = true := by
    rw [Sample.isService, hs, String.toList_append]
    rfl
  exact h.emit_of_allowed sink (AllowsService.service s hservice)

end LenientTo

namespace Lenient

variable {ok : Request → Prop}

theorem of_aside (h : ∀ r : Request, r.isAside = true → ok r) : Lenient ok := fun r hr _ => h r hr

theorem aside (h : Lenient ok) {r : Request} (hr : r.isAside = true) : ok r :=
  h r hr fun _ _ => trivial

theorem emit (h : Lenient ok) (sink : Sink) (s : Sample) : (Program.emit sink s).Asks ok :=
  h.emit_of_allowed sink trivial

end Lenient

theorem lenient_aside : Lenient fun r => r.isAside = true := .of_aside fun _ h => h

theorem lenient_not_touches : Lenient fun r => r.touchesLetters = false := by
  refine .of_aside fun r hr => ?_
  cases r <;> first | rfl | simp [Request.isAside] at hr

theorem lenient_not_send : Lenient fun r => r.isSend = false := by
  refine .of_aside fun r hr => ?_
  cases r <;> first | rfl | simp [Request.isAside] at hr

theorem lenient_not_query : Lenient fun r => r.isQuery = false := by
  refine .of_aside fun r hr => ?_
  cases r <;> first | rfl | simp [Request.isAside] at hr

theorem lenient_not_insert : Lenient fun r => r.isInsert = false :=
  .of_aside fun _ hr => Request.isInsert_of_touches (lenient_not_touches.aside hr)

theorem lenient_not_acknowledge : Lenient fun r => r.isAcknowledge = false := by
  refine .of_aside fun r hr => ?_
  cases r <;> first | rfl | simp [Request.isAside] at hr

namespace Service

open Program

variable {α β : Type} {allowed : Sample → Prop} [AllowsService allowed] {ok : Request → Prop}
  (h : LenientTo allowed ok)

/-! ## Operations of the service -/

include h

theorem asks_report (s : Service) (operation : String) (started : Nat)
    (result : Except Failure α) : (s.report operation started result).Asks ok := by
  refine h.stopwatch.bind fun stopped => ?_
  refine (h.emit_service _ _ (String.append_assoc ..)).bind fun _ => ?_
  cases result <;> exact h.emit_service _ _ (String.append_assoc ..)

theorem asks_observed (s : Service) (operation : String) {body : Program (Except Failure α)}
    (hb : body.Asks ok) : (s.observed operation body).Asks ok := by
  refine h.stopwatch.bind fun started => hb.bind fun result => ?_
  exact (asks_report h s operation started result).bind fun _ => asks_done _

omit [AllowsService allowed] in
theorem asks_orFail {answer : Except Store.Error α} {complain : Store.Error → Log.Event}
    {next : α → Program (Except Failure β)} (hn : ∀ a, answer = .ok a → (next a).Asks ok) :
    (orFail answer complain next).Asks ok := by
  cases answer with
  | ok a => exact hn a rfl
  | error e => exact (h.log _).bind fun _ => asks_done _

omit [AllowsService allowed] in
/-- Whatever the time of failure, the dead letter has the one of the draft if there is one. -/
theorem asks_insert {d : Draft}
    (hi : ∀ id now, d.failedAt.getD now = now → ok (.store (.insert (d.letter id now)))) :
    (insert d).Asks ok := by
  refine h.freshId.bind fun id => ?_
  have after : ∀ now, d.failedAt.getD now = now →
      (query (.insert (d.letter id now))).Asks ok := fun now hn => asks_query_iff.2 (hi id now hn)
  cases hd : d.failedAt with
  | none =>
    refine h.clock.bind fun now => (after now (by simp [hd])).bind fun answer => ?_
    exact asks_orFail h fun _ _ => (h.log _).bind fun _ => asks_done _
  | some now =>
    refine (after now (by simp [hd])).bind fun answer => ?_
    exact asks_orFail h fun _ _ => (h.log _).bind fun _ => asks_done _

theorem asks_store (s : Service) {d : Draft}
    (hi : ∀ id now, d.failedAt.getD now = now → ok (.store (.insert (d.letter id now)))) :
    (s.store d).Asks ok := by
  refine asks_observed h s "store" ?_
  split
  · exact asks_insert h hi
  · exact (h.log _).bind fun _ => asks_done _

theorem asks_notify (s : Service) (d : Draft)
    (hs : ok (.send s.deadLetterTopic (notification d).text)) : (s.notify d).Asks ok := by
  unfold notify
  split
  · exact h.log _
  · refine (asks_send_iff.2 hs).within.bind fun sent => ?_
    split
    · exact asks_done _
    · exact (h.emit_service _ "notify.error" rfl).bind fun _ => h.log _

/-- Giving up makes one dead letter, of the given payload, failure and origin. -/
theorem asks_giveUp (s : Service) {payload : Payload} {f : Failure} {o : Origin}
    (hs : ∀ text, ok (.send s.deadLetterTopic text))
    (hi : ∀ id now, ok (.store (.insert ((draft payload f o now).letter id now)))) :
    (s.giveUp payload f o).Asks ok := by
  refine h.clock.bind fun now => (asks_notify h s _ (hs _)).bind fun _ => asks_store h s ?_
  rintro id now' hn
  obtain rfl : now = now' := hn
  exact hi id now

omit [AllowsService allowed] in
theorem asks_firstResult {id : String} (hg : ok (.store (.get id))) :
    (firstResult id).Asks ok := by
  refine (asks_query_iff.2 hg).bind fun answer => asks_orFail h fun found _ => ?_
  cases found <;> exact (h.log _).bind fun _ => asks_done _

omit [AllowsService allowed] in
theorem asks_close {id result : String} (hm : ∀ now, ok (.store (.mark id result now)))
    (hg : ok (.store (.get id))) : (close id result).Asks ok := by
  refine h.clock.bind fun now => (asks_query_iff.2 (hm now)).bind fun answer => ?_
  refine asks_orFail h fun (changed : Nat) _ => ?_
  by_cases hc : 0 < changed
  · rw [if_pos hc]
    exact asks_done _
  · rw [if_neg hc]
    exact asks_firstResult h hg

theorem asks_markReprocessed (s : Service) {id result : String}
    (hm : ∀ now, ok (.store (.mark id result now))) (hg : ok (.store (.get id))) :
    (s.markReprocessed id result).Asks ok :=
  asks_observed h s _ ((asks_close h hm hg).bind fun _ => asks_done _)

theorem asks_publish (s : Service) (l : DeadLetter) (body : String)
    (hs : ok (.send l.topic body)) : (s.publish l body).Asks ok := by
  unfold publish
  split
  · exact (h.log _).bind fun _ => asks_done _
  · refine (asks_send_iff.2 hs).bind fun sent => ?_
    split
    · exact (h.emit_service _ "replay.published" rfl).bind fun _ => asks_done _
    · exact (h.log _).bind fun _ => asks_done _

/-- What is published is what the registry has made of the payload. -/
theorem asks_attempt (s : Service) (l : DeadLetter) (payload : Json.Value)
    (hs : ∀ body, s.replay.prepare l.topic payload = some (.ok body) → ok (.send l.topic body)) :
    (s.attempt l payload).Asks ok := by
  unfold attempt
  split
  · exact asks_done _
  · exact (h.log _).bind fun _ => asks_done _
  · next hbody => exact asks_publish h s l _ (hs _ hbody)

omit [AllowsService allowed] in
theorem asks_closeUnreadable {id result : String} (hm : ∀ now, ok (.store (.mark id result now)))
    (hg : ok (.store (.get id))) : (closeUnreadable id result).Asks ok := by
  refine (asks_close h hm hg).bind fun closed => ?_
  split <;> exact asks_done _

theorem asks_replayAndClose (s : Service) {id : String} {l : DeadLetter}
    (hs : ∀ payload body, Json.parseValue l.payload = .ok payload →
      s.replay.prepare l.topic payload = some (.ok body) → ok (.send l.topic body))
    (hm : ∀ result now, ok (.store (.mark id result now))) (hg : ok (.store (.get id))) :
    (s.replayAndClose id l).Asks ok := by
  unfold replayAndClose
  split
  · exact (h.log _).bind fun _ => asks_closeUnreadable h (hm _) hg
  · next payload hp =>
    refine (asks_attempt h s l payload fun body => hs payload body hp).bind fun result => ?_
    refine (asks_close h (hm _) hg).bind fun closed => ?_
    split
    · exact asks_done _
    · exact (h.log _).bind fun _ => asks_done _

theorem asks_reprocess (s : Service) {id : String} (hs : ∀ topic body, ok (.send topic body))
    (hm : ∀ result now, ok (.store (.mark id result now))) (hg : ok (.store (.get id))) :
    (s.reprocess id).Asks ok := by
  refine asks_observed h s _ ((asks_query_iff.2 hg).bind fun answer => ?_)
  refine asks_orFail h fun found _ => ?_
  cases found with
  | none => exact (h.log _).bind fun _ => asks_done _
  | some l =>
    cases hl : l.reprocessed with
    | true =>
      simp only [hl]
      exact (h.log _).bind fun _ => asks_done _
    | false =>
      simp only [hl]
      exact asks_replayAndClose h s (fun _ body _ _ => hs l.topic body) hm hg

theorem asks_reprocessAll (s : Service) (ids : List String)
    (hs : ∀ topic body, ok (.send topic body))
    (hm : ∀ id result now, ok (.store (.mark id result now))) (hg : ∀ id, ok (.store (.get id))) :
    (s.reprocessAll ids).Asks ok := by
  suffices hgo : ∀ results, (reprocessAll.go s ids results).Asks ok from hgo .empty
  induction ids with
  | nil => exact fun _ => asks_done _
  | cons id ids ih =>
    intro results
    exact (asks_reprocess h s hs (hm id) (hg id)).bind fun _ => ih _

/-! Questions about the dead letters, and their purge. -/

theorem asks_list (s : Service) {f : Filter} (hl : ok (.store (.list f))) :
    (s.list f).Asks ok := by
  refine asks_observed h s _ ((asks_query_iff.2 hl).bind fun answer => ?_)
  split
  · exact asks_done _
  · split <;> exact (h.log _).bind fun _ => asks_done _

omit h in
theorem asks_ifAnswered {answer : Except Store.Error α} {next : α → Program (Except Failure β)}
    (hn : ∀ a, (next a).Asks ok) : (ifAnswered answer next).Asks ok := by
  cases answer with
  | ok a => exact hn a
  | error e => exact asks_done _

omit h in
theorem asks_collect (hc : ∀ f, ok (.store (.count f))) (ht : ok (.store .countByTopic))
    (he : ok (.store .countByError)) : collect.Asks ok := by
  refine (asks_query_iff.2 (hc _)).bind fun _ => asks_ifAnswered fun total => ?_
  refine (asks_query_iff.2 (hc _)).bind fun _ => asks_ifAnswered fun reprocessed => ?_
  refine (asks_query_iff.2 ht).bind fun _ => asks_ifAnswered fun byTopic => ?_
  exact (asks_query_iff.2 he).bind fun _ => asks_ifAnswered fun byError => asks_done _

theorem asks_reportPending (s : Service) (stats : Stats) : (s.reportPending stats).Asks ok :=
  (h.emit_service _ "pending" rfl).bind fun _ => asks_done _

theorem asks_stats (s : Service) (hc : ∀ f, ok (.store (.count f)))
    (ht : ok (.store .countByTopic)) (he : ok (.store .countByError)) : s.stats.Asks ok := by
  refine asks_observed h s _ ((asks_collect hc ht he).bind fun result => ?_)
  split
  · exact asks_reportPending h s _
  · split
    · exact (h.log _).bind fun _ => asks_reportPending h s _
    · exact (h.log _).bind fun _ => asks_done _

theorem asks_warnOfPurge (s : Service) (f : Filter) (matching : Nat) :
    (s.warnOfPurge f matching).Asks ok := by
  unfold warnOfPurge
  split
  · exact (h.emit_service _ "purge.large" rfl).bind fun _ => h.log _
  · exact asks_done _

theorem asks_purge (s : Service) {f : Filter} (hc : ok (.store (.count f)))
    (hd : ok (.store (.delete f))) : (s.purge f).Asks ok := by
  refine asks_observed h s _ ((asks_query_iff.2 hc).bind fun answer => ?_)
  split
  · refine (asks_warnOfPurge h s f _).bind fun _ => (asks_query_iff.2 hd).bind fun _ => ?_
    exact asks_orFail h fun _ _ => (h.log _).bind fun _ => asks_done _
  · split <;> exact (h.log _).bind fun _ => asks_done _

end Service

/-! ## Handling and delivering -/

namespace Router

open Program

variable {r : Router} {topic : String} {m : Message String}

theorem deliver_of_some {handle : Message String → Program Disposition}
    (h : r.handlers.find? topic = some handle) :
    r.deliver topic m = (handle m).bind fun d => (r.settle topic m d).bind fun acked =>
      done ⟨m.id, m.attempt, d, acked⟩ := by
  simp only [deliver, h]
  rfl

theorem deliver_of_none (h : r.handlers.find? topic = none) :
    r.deliver topic m = (r.settle topic m .unroutable).bind fun acked =>
      done ⟨m.id, m.attempt, .unroutable, acked⟩ := by
  simp only [deliver, h]
  rfl

/-- What is said before a batch: that nobody handles its topic, if so. -/
def opening (r : Router) (topic : String) (ms : List (Message String)) : Program Unit :=
  if (r.handlers.find? topic).isNone then
    log (event .warn "no handler registered for topic, acknowledging without processing"
      [("topic", .quoted topic), ("messages", .nat ms.length)])
  else done ()

/-- What is said behind a batch: how many messages had each outcome. -/
def closing (topic : String) (report : BatchReport) : Log.Event :=
  event .info "batch handled"
    [("topic", .quoted topic), ("processed", .nat report.processed),
      ("dead_lettered", .nat report.deadLettered), ("retried", .nat report.retried),
      ("unroutable", .nat report.unroutable), ("ack_failures", .nat report.ackFailures)]

theorem processBatch_eq (r : Router) (topic : String) (ms : List (Message String)) :
    r.processBatch topic ms = (r.opening topic ms).bind fun _ =>
      (r.deliverAll topic ms).bind fun os =>
        (log (closing topic (.ofOutcomes topic os))).bind fun _ =>
          done (.ofOutcomes topic os) := by
  cases h : r.handlers.find? topic <;> simp only [processBatch, opening, h] <;> rfl

end Router

section Delivering

open Program

variable {β : Type} {ok : Request → Prop}

section Handling

variable {allowed : Sample → Prop} [AllowsService allowed] (h : LenientTo allowed ok)

include h

/-- A handler gives a message up on its own topic, with the attempt of the message. -/
theorem Handler.asks_giveUp (service : Service) (limits : Limits) {topic : String}
    {m : Message String} {f : Failure} (hs : ∀ text, ok (.send service.deadLetterTopic text))
    (hi : ∀ id now, ok (.store (.insert
      ((Service.draft (.capture m.body) f (.ofMessage topic m) now).letter id now)))) :
    (Handler.giveUp service limits topic m f).Asks ok := by
  refine (Service.asks_giveUp h service hs hi).within.bind fun handOff => ?_
  dsimp only
  split
  · exact asks_done _
  · exact (h.log _).bind fun _ => asks_done _

theorem Handler.asks_afterFailure (service : Service) (limits : Limits) {topic : String}
    {m : Message String} {f : Failure} (hs : ∀ text, ok (.send service.deadLetterTopic text))
    (hi : ∀ f id now, ok (.store (.insert
      ((Service.draft (.capture m.body) f (.ofMessage topic m) now).letter id now)))) :
    (Handler.afterFailure service limits topic m f).Asks ok := by
  unfold afterFailure
  split
  · exact (h.log _).bind fun _ => Handler.asks_giveUp h service limits hs (hi _)
  all_goals
    dsimp only
    split
    · exact (h.log _).bind fun _ => Handler.asks_giveUp h service limits hs (hi _)
    · exact (h.log _).bind fun _ => asks_done _

theorem Handler.asks_handleWith {p : Processor β} {service : Service} {limits : Limits}
    {m : Message String}
    (hp : ∀ b, p.schema.parse m.body = .ok b → (p.process (m.withBody b)).Asks ok)
    (hs : ∀ text, ok (.send service.deadLetterTopic text))
    (hi : ∀ f id now, ok (.store (.insert
      ((Service.draft (.capture m.body) f (.ofMessage p.topic m) now).letter id now)))) :
    (Handler.handleWith p service limits m).Asks ok := by
  unfold handleWith
  split
  · exact (h.log _).bind fun _ => Handler.asks_giveUp h service limits hs (hi _)
  · next b hb =>
    refine (hp b hb).within.bind fun outcome => ?_
    split
    · exact asks_done _
    · exact Handler.asks_afterFailure h service limits hs hi

end Handling

/-! A router has counters of its own. -/

variable (h : Lenient ok)

include h

namespace Router

theorem asks_acknowledge (r : Router) {topic : String} {m : Message String}
    (ha : ok (.acknowledge topic m)) : (r.acknowledge topic m).Asks ok := by
  refine (asks_acknowledge_iff.2 ha).within.bind fun answer => ?_
  dsimp only
  split
  · exact (h.emit _ _).bind fun _ => asks_done _
  · exact (h.log _).bind fun _ => (h.emit _ _).bind fun _ => asks_done _

/-- Only what is done with is acknowledged. -/
theorem asks_settle (r : Router) {topic : String} {m : Message String} {d : Disposition}
    (ha : d.settles = true → ok (.acknowledge topic m)) : (r.settle topic m d).Asks ok := by
  cases d with
  | retry => exact (h.emit _ _).bind fun _ => asks_done _
  | deadLettered => exact (h.emit _ _).bind fun _ => asks_acknowledge h r (ha rfl)
  | processed => exact asks_acknowledge h r (ha rfl)
  | unroutable => exact asks_acknowledge h r (ha rfl)

theorem asks_deliver (r : Router) {topic : String} {m : Message String}
    (hh : ∀ handle, r.handlers.find? topic = some handle → (handle m).Asks ok)
    (ha : ok (.acknowledge topic m)) : (r.deliver topic m).Asks ok := by
  have settled : ∀ d, (r.settle topic m d).Asks ok := fun d => asks_settle h r fun _ => ha
  cases hr : r.handlers.find? topic with
  | none =>
    rw [deliver_of_none hr]
    exact (settled _).bind fun _ => asks_done _
  | some handle =>
    rw [deliver_of_some hr]
    exact (hh handle hr).bind fun d => (settled d).bind fun _ => asks_done _

omit h in
theorem asks_deliverAll (r : Router) {topic : String} {ms : List (Message String)}
    (hd : ∀ m ∈ ms, (r.deliver topic m).Asks ok) : (r.deliverAll topic ms).Asks ok := by
  induction ms with
  | nil => exact asks_done _
  | cons m ms ih =>
    refine (hd m (by simp)).bind fun o => ?_
    exact (ih fun m' hm => hd m' (by simp [hm])).bind fun os => asks_done _

omit h in
theorem asks_opening (r : Router) (topic : String) (ms : List (Message String))
    (hl : ∀ e, ok (.log e)) : (r.opening topic ms).Asks ok := by
  unfold opening
  split
  · exact asks_log_iff.2 (hl _)
  · exact asks_done _

theorem asks_processBatch (r : Router) {topic : String} {ms : List (Message String)}
    (hd : ∀ m ∈ ms, (r.deliver topic m).Asks ok) : (r.processBatch topic ms).Asks ok := by
  rw [processBatch_eq]
  refine (asks_opening r topic ms fun e => h.aside rfl).bind fun _ => ?_
  exact (asks_deliverAll r hd).bind fun os => (h.log _).bind fun _ => asks_done _

end Router

end Delivering

/-! ## The content topics -/

def Processor.Asks {β : Type} (ok : Request → Prop) (p : Processor β) : Prop :=
  ∀ m, (p.process m).Asks ok

/-- A processor that neither acknowledges messages nor changes dead letters. -/
def Processor.KeepsOut {β : Type} (p : Processor β) : Prop :=
  p.Asks fun r => r.isAcknowledge = false ∧ r.touchesLetters = false

namespace Processor

variable {β : Type} {p : Processor β}

theorem Asks.mono {ok ok' : Request → Prop} (hp : p.Asks ok) (h : ∀ r, ok r → ok' r) :
    p.Asks ok' := fun m => Program.Asks.mono (hp m) h

theorem KeepsOut.not_acknowledge (hp : p.KeepsOut) : p.Asks fun r => r.isAcknowledge = false :=
  hp.mono fun _ hr => hr.1

theorem KeepsOut.not_touches (hp : p.KeepsOut) : p.Asks fun r => r.touchesLetters = false :=
  hp.mono fun _ hr => hr.2

theorem KeepsOut.not_insert (hp : p.KeepsOut) : p.Asks fun r => r.isInsert = false :=
  hp.mono fun _ hr => Request.isInsert_of_touches hr.2

end Processor

theorem lenient_keptOut :
    Lenient fun r => r.isAcknowledge = false ∧ r.touchesLetters = false :=
  .of_aside fun _ hr => ⟨lenient_not_acknowledge.aside hr, lenient_not_touches.aside hr⟩

namespace Topic

open Program

variable {allowed : Sample → Prop} {ok : Request → Prop} (h : LenientTo allowed ok)

structure Writer.Asks (ok : Request → Prop) (w : Writer) : Prop where
  recordUpload : ∀ u, (w.recordUpload u).Asks ok
  mergeAttributes : ∀ e, (w.mergeAttributes e).Asks ok

include h

theorem Writer.asks_store (hp : ∀ c, ok (.store (.putContent c)))
    (hm : ∀ id patch now, ok (.store (.mergeContent id patch now))) : Writer.store.Asks ok := by
  refine ⟨fun u => h.clock.bind fun now => ?_, fun e => h.clock.bind fun now => ?_⟩
  · split
    · exact asks_done _
    · refine (asks_query_iff.2 (hp _)).bind fun answer => ?_
      split <;> exact asks_done _
  · refine (asks_query_iff.2 (hm _ _ _)).bind fun answer => ?_
    split <;> exact asks_done _

theorem Upload.asks_processor {w : Writer} (hw : w.Asks ok) : (Upload.processor w).Asks ok := by
  refine fun m => (hw.recordUpload _).bind fun recorded => ?_
  split
  · exact asks_done _
  · exact (h.log _).bind fun _ => asks_done _

omit h in
theorem Enrichment.asks_processor {w : Writer} (hw : w.Asks ok) :
    (Enrichment.processor w).Asks ok := by
  refine fun m => (hw.mergeAttributes _).bind fun merged => ?_
  split <;> exact asks_done _

omit h in
theorem Script.asks_processor (topic : String) : (Script.processor topic).Asks ok := by
  intro m
  show (if m.body.stall then _ else _ : Program (Except Failure Unit)).Asks ok
  split
  · exact asks_stuck
  · exact asks_done _

omit h in
theorem keepsOut_upload : (Upload.processor .store).KeepsOut :=
  Upload.asks_processor lenient_keptOut
    (Writer.asks_store lenient_keptOut (fun _ => ⟨rfl, rfl⟩) fun _ _ _ => ⟨rfl, rfl⟩)

omit h in
theorem keepsOut_enrichment : (Enrichment.processor .store).KeepsOut :=
  Enrichment.asks_processor
    (Writer.asks_store lenient_keptOut (fun _ => ⟨rfl, rfl⟩) fun _ _ _ => ⟨rfl, rfl⟩)

end Topic

end DeadLetters
