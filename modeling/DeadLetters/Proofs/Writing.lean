import DeadLetters.Proofs.Metadata
import DeadLetters.Proofs.Operation
import DeadLetters.Proofs.Redelivery
import DeadLetters.Proofs.Uploading

/-!
# Who writes content metadata

Content metadata is written by the handlers of the content topics and by nobody else.  A message
that is processed writes once: its upload, or its attributes into content that is known.  A message
that is not processed writes nothing.

    the router of the content topics hands each message to its handler  (forContents_of_registerAll)
    a delivery writes what its message brings, if it is processed                 (deliver_writes)
    no operation on dead letters asks for a write                           (Operation.asks_aloof)
-/

namespace DeadLetters

open Program

theorem lenient_aloof : Lenient fun y => y.changesContents = false := by
  refine .of_aside fun y hy => ?_
  cases y <;> first | rfl | cases hy

theorem Program.Goes.writes_eq_nil {α : Type} {p q : Program α} {t : List Exchange}
    (h : p.Goes t q) (hp : p.Asks fun y => y.changesContents = false) : writes t = [] :=
  List.filter_eq_nil_iff.2 fun x hx => by simp [Exchange.not_writes (hp.request h x hx)]

/-! ## Operations on dead letters -/

namespace Operation

/-- An operation on dead letters, which handles no messages. -/
def Aloof : Operation → Prop
  | deliver .. | batch .. => False
  | _ => True

theorem asks_aloof {o : Operation} (h : o.Aloof) :
    o.thread.program.Asks fun y => y.changesContents = false := by
  have lenient := lenient_aloof
  cases o with
  | store s d => exact Service.asks_store lenient s fun _ _ _ => rfl
  | giveUp s payload f og => exact Service.asks_giveUp lenient s (fun _ => rfl) fun _ _ => rfl
  | markReprocessed s id result =>
    exact Service.asks_markReprocessed lenient s (fun _ => rfl) rfl
  | reprocess s id => exact Service.asks_reprocess lenient s (fun _ _ => rfl) (fun _ _ => rfl) rfl
  | reprocessAll s ids =>
    exact Service.asks_reprocessAll lenient s ids (fun _ _ => rfl) (fun _ _ _ => rfl) fun _ => rfl
  | purge s f => exact Service.asks_purge lenient s rfl rfl
  | list s f => exact Service.asks_list lenient s rfl
  | stats s => exact Service.asks_stats lenient s (fun _ => rfl) rfl rfl
  | deliver | batch => exact h.elim

end Operation

/-! ## The router of the content topics -/

/-- A router that hands the messages of the content topics, and no others, to their handlers. -/
structure Router.ForContents (r : Router) (writer : Topic.Writer) (service : Service)
    (limits : Limits) : Prop where
  upload : r.handlers.find? Topic.Upload.topic =
    some (Handler.handleWith (Topic.Upload.processor writer) service limits)
  enrichment : r.handlers.find? Topic.Enrichment.topic =
    some (Handler.handleWith (Topic.Enrichment.processor writer) service limits)
  other : ∀ topic, topic ≠ Topic.Upload.topic → topic ≠ Topic.Enrichment.topic →
    r.handlers.find? topic = none

theorem Router.forContents_of_registerAll {env : Surroundings} {w : World} {sink : Sink}
    {ackTimeout : Nat} {writer : Topic.Writer} {service : Service} {limits : Limits} {r : Router}
    (h : (w.run env (registerAll (Topic.handlers writer service limits)
      (empty sink ackTimeout))).1 = some r) : r.ForContents writer service limits := by
  obtain ⟨w', hrun⟩ : ∃ w', w.run env _ = _ :=
    run_registerAll (Topic.handlers writer service limits) (empty sink ackTimeout)
  rw [hrun] at h
  rw [← Option.some.inj h]
  refine ⟨?_, ?_, fun topic hu he => ?_⟩
  · refine (Dictionary.find?_insert _ _ _ _).trans ?_
    refine (if_neg (show Topic.Upload.topic ≠ Topic.Enrichment.topic by decide)).trans ?_
    exact (Dictionary.find?_insert _ _ _ _).trans (if_pos rfl)
  · exact (Dictionary.find?_insert _ _ _ _).trans (if_pos rfl)
  · refine (Dictionary.find?_insert _ _ _ _).trans ((if_neg he).trans ?_)
    exact (Dictionary.find?_insert _ _ _ _).trans (if_neg hu)

/-! ## What a processor asks for -/

/-- The changes of content metadata that are asked for. -/
def asked (t : List Exchange) : List Exchange := only Request.changesContents t

theorem asked_append (t u : List Exchange) : asked (t ++ u) = asked t ++ asked u := only_append _ t u

theorem writes_asked (t : List Exchange) : writes (asked t) = writes t := by
  rw [writes, asked, only, List.filter_filter, writes]
  refine List.filter_congr fun x _ => ?_
  cases hx : x.request.changesContents with
  | true => rw [Bool.and_true]
  | false => rw [Exchange.not_writes hx, Bool.false_and]

theorem Program.Goes.asked_eq_nil {α : Type} {p q : Program α} {t : List Exchange}
    (h : p.Goes t q) (hp : p.Asks fun y => y.changesContents = false) : asked t = [] :=
  h.only_eq_nil hp

namespace Topic

variable {t : List Exchange}

/-- The change that an upload asks for, if its size fits, and what comes of it. -/
def Upload.Asked (u : Upload) (t : List Exchange) (o : Option (Except Failure Unit)) : Prop :=
  (∃ now f, Writer.contentOf u now = .error f ∧ t = [] ∧ o = some (.error f)) ∨
    ∃ now c a, Writer.contentOf u now = .ok c ∧ t = [⟨.store (.putContent c), a⟩] ∧
      o = a.map (Except.mapError Store.Error.failure)

/-- What comes of attributes, as the store has answered. -/
def Enrichment.outcome (e : Enrichment) : Except Store.Error Bool → Except Failure Unit
  | .ok true => .ok ()
  | .ok false => .error (.processing ("content " ++ e.contentId ++ " is not known yet"))
  | .error err => .error err.failure

/-- The change that attributes ask for, and what comes of it. -/
def Enrichment.Asked (e : Enrichment) (t : List Exchange) (o : Option (Except Failure Unit)) :
    Prop :=
  ∃ now a, t = [⟨.store (.mergeContent e.contentId e.patch now), a⟩] ∧ o = a.map e.outcome

theorem Writer.recordUpload_asks {u : Upload} {o : Option (Except Failure Unit)}
    (h : (store.recordUpload u).Goes t (await o)) : u.Asked (asked t) o := by
  rcases goes_bind_await_iff.1 h with ⟨-, hs⟩ | ⟨t₁, t₂, now, rfl, h₁, h₂⟩
  · exact absurd hs ends_clock.not_stuck
  rw [asked_append, h₁.asked_eq_nil lenient_aloof.clock, List.nil_append]
  split at h₂
  · next f hf =>
    obtain ⟨rfl, ho⟩ := goes_await_iff (o := some _).1 h₂
    exact .inl ⟨now, f, hf, rfl, await_injective ho⟩
  · next c hc =>
    rcases goes_bind_await_iff.1 h₂ with ⟨rfl, hs⟩ | ⟨t₃, t₄, a, rfl, h₃, h₄⟩
    · obtain rfl := goes_query_await_iff (o := none).1 hs
      exact .inr ⟨now, c, none, hc, rfl, rfl⟩
    · obtain rfl := goes_query_await_iff (o := some a).1 h₃
      refine .inr ⟨now, c, some a, hc, ?_⟩
      rcases a with e | ⟨⟨⟩⟩
      · obtain ⟨rfl, ho⟩ := goes_await_iff (o := some _).1 h₄
        exact ⟨rfl, await_injective ho⟩
      · obtain ⟨rfl, ho⟩ := goes_await_iff (o := some _).1 h₄
        exact ⟨rfl, await_injective ho⟩

theorem Writer.mergeAttributes_asks {e : Enrichment} {o : Option (Except Failure Bool)}
    (h : (store.mergeAttributes e).Goes t (await o)) :
    ∃ now a, asked t = [⟨.store (.mergeContent e.contentId e.patch now), a⟩] ∧
      o = a.map (Except.mapError Store.Error.failure) := by
  rcases goes_bind_await_iff.1 h with ⟨-, hs⟩ | ⟨t₁, t₂, now, rfl, h₁, h₂⟩
  · exact absurd hs ends_clock.not_stuck
  rw [asked_append, h₁.asked_eq_nil lenient_aloof.clock, List.nil_append]
  rcases goes_bind_await_iff.1 h₂ with ⟨rfl, hs⟩ | ⟨t₃, t₄, a, rfl, h₃, h₄⟩
  · obtain rfl := goes_query_await_iff (o := none).1 hs
    exact ⟨now, none, rfl, rfl⟩
  · obtain rfl := goes_query_await_iff (o := some a).1 h₃
    refine ⟨now, some a, ?_⟩
    rcases a with e' | known
    · obtain ⟨rfl, ho⟩ := goes_await_iff (o := some _).1 h₄
      exact ⟨rfl, await_injective ho⟩
    · obtain ⟨rfl, ho⟩ := goes_await_iff (o := some _).1 h₄
      exact ⟨rfl, await_injective ho⟩

/-- An upload that is written down is told of in the log. -/
theorem Upload.process_asks {m : Message Upload} {o : Option (Except Failure Unit)}
    (h : ((processor .store).process m).Goes t (await o)) : m.body.Asked (asked t) o := by
  rcases goes_bind_await_iff.1 h with ⟨rfl, hs⟩ | ⟨t₁, t₂, a, rfl, h₁, h₂⟩
  · exact Writer.recordUpload_asks (o := none) hs
  have recorded := Writer.recordUpload_asks (o := some a) h₁
  rcases a with f | ⟨⟨⟩⟩
  · obtain ⟨rfl, ho⟩ := goes_await_iff (o := some _).1 h₂
    rw [await_injective ho, List.append_nil]
    exact recorded
  · have hlog : asked t₂ = [] :=
      h₂.asked_eq_nil ((lenient_aloof.log _).bind fun _ => asks_done _)
    rw [asked_append, hlog, List.append_nil, Goes.returned h₂ (ends_log _)]
    exact recorded

theorem Enrichment.process_asks {m : Message Enrichment} {o : Option (Except Failure Unit)}
    (h : ((processor .store).process m).Goes t (await o)) : m.body.Asked (asked t) o := by
  rcases goes_bind_await_iff.1 h with ⟨rfl, hs⟩ | ⟨t₁, t₂, b, rfl, h₁, h₂⟩
  · obtain ⟨now, a, hasked, ha⟩ := Writer.mergeAttributes_asks (o := none) hs
    refine ⟨now, a, hasked, ?_⟩
    rw [Option.map_eq_none_iff.1 ha.symm]
    rfl
  obtain ⟨now, a, hasked, ha⟩ := Writer.mergeAttributes_asks (o := some b) h₁
  obtain ⟨answer, rfl, rfl⟩ := Option.map_eq_some_iff.1 ha.symm
  refine ⟨now, some answer, ?_⟩
  rcases answer with f | (_ | _)
  · obtain ⟨rfl, ho⟩ := goes_await_iff (o := some _).1 h₂
    rw [List.append_nil]
    exact ⟨hasked, await_injective ho⟩
  · obtain ⟨rfl, ho⟩ := goes_await_iff (o := some _).1 h₂
    rw [List.append_nil]
    exact ⟨hasked, await_injective ho⟩
  · obtain ⟨rfl, ho⟩ := goes_await_iff (o := some _).1 h₂
    rw [List.append_nil]
    exact ⟨hasked, await_injective ho⟩

/-! What is asked for is written if it succeeds, and otherwise nothing is. -/

def Upload.Written (u : Upload) (t : List Exchange) : Prop :=
  ∃ now c, Writer.contentOf u now = .ok c ∧ t = [⟨.store (.putContent c), some (.ok ())⟩]

def Enrichment.Written (e : Enrichment) (t : List Exchange) : Prop :=
  ∃ now, t = [⟨.store (.mergeContent e.contentId e.patch now), some (.ok true)⟩]

theorem Upload.Asked.writes {u : Upload} {o : Option (Except Failure Unit)}
    (h : u.Asked (asked t) o) :
    o = some (.ok ()) ∧ u.Written (writes t) ∨ o ≠ some (.ok ()) ∧ writes t = [] := by
  rw [← writes_asked t]
  rcases h with ⟨now, f, -, ht, rfl⟩ | ⟨now, c, a, hc, ht, rfl⟩
  · rw [ht]
    exact .inr ⟨nofun, rfl⟩
  · rw [ht]
    rcases a with _ | (e | ⟨⟨⟩⟩)
    · exact .inr ⟨nofun, rfl⟩
    · exact .inr ⟨nofun, rfl⟩
    · exact .inl ⟨rfl, now, c, hc, rfl⟩

theorem Enrichment.Asked.writes {e : Enrichment} {o : Option (Except Failure Unit)}
    (h : e.Asked (asked t) o) :
    o = some (.ok ()) ∧ e.Written (writes t) ∨ o ≠ some (.ok ()) ∧ writes t = [] := by
  obtain ⟨now, a, ht, rfl⟩ := h
  rw [← writes_asked t, ht]
  rcases a with _ | (f | (_ | _))
  · exact .inr ⟨nofun, rfl⟩
  · exact .inr ⟨nofun, rfl⟩
  · exact .inr ⟨nofun, rfl⟩
  · exact .inl ⟨rfl, now, rfl⟩

end Topic

/-! ## Handling and delivering -/

section Delivering

variable {β : Type} {p : Processor β} {service : Service} {limits : Limits} {topic : String}
  {m : Message String} {t : List Exchange} {d : Disposition}

/-- A handled message has been processed, and nothing else, or its failure has had its consequences,
in which no content metadata is written. -/
theorem Handler.handleWith_calls (h : (Handler.handleWith p service limits m).Goes t (done d)) :
    ∃ call rest o, t = call ++ rest ∧ p.Calls m call o ∧ asked rest = [] ∧
      (o = some (.ok ()) ∧ d = .processed ∧ rest = [] ∨
        ∃ f, o.getD (.error (.processing (timedOut "processing" limits.timeout))) = .error f ∧
          AfterFailure limits p.topic m f (only Request.isInsert rest) d) := by
  unfold handleWith at h
  cases hb : p.schema.parse m.body with
  | error f =>
    rw [hb] at h
    have hv := kind_of_parse_eq_error hb
    have hc : cause f = f := if_pos hv
    refine ⟨[], t, _, rfl, .rejected hb, ?_, .inr ⟨f, rfl, log_giveUp_after (.inl hv) (hc.symm ▸ h)⟩⟩
    refine h.asked_eq_nil ((lenient_aloof.log _).bind fun _ => ?_)
    exact Handler.asks_giveUp lenient_aloof service limits (fun _ => rfl) fun _ _ => rfl
  | ok b =>
    rw [hb] at h
    obtain ⟨t₁, t₂, o, rfl, h₁, h₂⟩ := goes_bind_done_iff.1 h
    have quiet : ∀ f : Failure, (afterFailure service limits p.topic m f).Goes t₂ (done d) →
        asked t₂ = [] := fun f hf =>
      hf.asked_eq_nil (Handler.asks_afterFailure lenient_aloof service limits (fun _ => rfl)
        fun _ _ _ => rfl)
    refine ⟨t₁, t₂, o, rfl, .ended hb (goes_within_done_iff.1 h₁), ?_⟩
    rcases o with _ | (f | ⟨⟨⟩⟩)
    · exact ⟨quiet _ h₂, .inr ⟨_, rfl, afterFailure_after h₂⟩⟩
    · exact ⟨quiet _ h₂, .inr ⟨f, rfl, afterFailure_after h₂⟩⟩
    · obtain ⟨rfl, hd⟩ := goes_done_iff.1 h₂
      exact ⟨rfl, .inl ⟨rfl, done.inj hd, rfl⟩⟩

/-- A handler writes what its processor writes, and calls it processed if the processor succeeds. -/
theorem Handler.handleWith_writes {P : β → List Exchange → Prop}
    (hp : ∀ {b : β} {call : List Exchange} {o : Option (Except Failure Unit)},
      (p.process (m.withBody b)).Goes call (await o) →
        o = some (.ok ()) ∧ P b (writes call) ∨ o ≠ some (.ok ()) ∧ writes call = [])
    (h : (Handler.handleWith p service limits m).Goes t (done d)) :
    d = .processed ∧ (∃ b, p.schema.parse m.body = .ok b ∧ P b (writes t)) ∨
      d ≠ .processed ∧ writes t = [] := by
  obtain ⟨call, rest, o, rfl, hcalls, hrest, hend⟩ := handleWith_calls h
  have hquiet : writes rest = [] := by
    rw [← writes_asked, hrest]
    rfl
  rw [writes_append, hquiet, List.append_nil]
  cases hcalls with
  | rejected hb =>
    rcases hend with ⟨ho, -, -⟩ | ⟨f, -, hafter⟩
    · cases ho
    · exact .inr ⟨hafter.ne_processed, rfl⟩
  | @ended b _ _ hb hgoes =>
    rcases hp hgoes with ⟨rfl, hw⟩ | ⟨hne, hw⟩
    · rcases hend with ⟨-, rfl, -⟩ | ⟨f, hf, -⟩
      · exact .inl ⟨rfl, b, hb, hw⟩
      · cases hf
    · rcases hend with ⟨ho, -, -⟩ | ⟨f, -, hafter⟩
      · exact absurd ho hne
      · exact .inr ⟨hafter.ne_processed, hw⟩

/-- What a message of a topic writes, as it has been processed or not. -/
inductive Wrote (topic : String) (m : Message String) : Disposition → List Exchange → Prop
  | uploaded {u : Topic.Upload} {w : List Exchange} (ht : topic = Topic.Upload.topic)
      (hu : Topic.Upload.schema.parse m.body = .ok u) (hw : u.Written w) :
      Wrote topic m .processed w
  | enriched {e : Topic.Enrichment} {w : List Exchange} (ht : topic = Topic.Enrichment.topic)
      (he : Topic.Enrichment.schema.parse m.body = .ok e) (hw : e.Written w) :
      Wrote topic m .processed w
  | nothing {d : Disposition} (hd : d ≠ .processed) : Wrote topic m d []

theorem wrote_upload (h : (Handler.handleWith (Topic.Upload.processor .store)
    service limits m).Goes t (done d)) : Wrote Topic.Upload.topic m d (writes t) := by
  rcases Handler.handleWith_writes (fun hg => (Topic.Upload.process_asks hg).writes) h with
    ⟨rfl, u, hu, hw⟩ | ⟨hd, hw⟩
  · exact .uploaded rfl hu hw
  · exact hw ▸ .nothing hd

theorem wrote_enrichment
    (h : (Handler.handleWith (Topic.Enrichment.processor .store) service limits m).Goes t (done d)) :
    Wrote Topic.Enrichment.topic m d (writes t) := by
  rcases Handler.handleWith_writes (fun hg => (Topic.Enrichment.process_asks hg).writes) h with
    ⟨rfl, e, he, hw⟩ | ⟨hd, hw⟩
  · exact .enriched rfl he hw
  · exact hw ▸ .nothing hd

theorem Router.settle_writes {r : Router} {q : Program Bool}
    (h : (r.settle topic m d).Goes t q) : writes t = [] :=
  h.writes_eq_nil (asks_settle lenient_aloof r fun _ => rfl)

/-- A delivery writes what its message brings, if it is processed. -/
theorem Router.deliver_writes {r : Router} (hr : r.ForContents .store service limits) {o : Outcome}
    (h : (r.deliver topic m).Goes t (done o)) : Wrote topic m o.disposition (writes t) := by
  have handled : ∀ {handle : Message String → Program Disposition},
      r.handlers.find? topic = some handle →
      (∀ {u d}, (handle m).Goes u (done d) → Wrote topic m d (writes u)) →
      Wrote topic m o.disposition (writes t) := by
    intro handle hh hw
    obtain ⟨t₁, t₂, d, acked, rfl, h₁, h₂, rfl⟩ := deliver_ends hh h
    rw [writes_append, settle_writes h₂, List.append_nil]
    exact hw h₁
  by_cases hu : topic = Topic.Upload.topic
  · subst hu
    exact handled hr.upload wrote_upload
  by_cases he : topic = Topic.Enrichment.topic
  · subst he
    exact handled hr.enrichment wrote_enrichment
  · rw [deliver_of_none (hr.other topic hu he)] at h
    obtain ⟨t₁, t₂, acked, rfl, h₁, h₂⟩ := goes_bind_done_iff.1 h
    obtain ⟨rfl, ho⟩ := goes_done_iff.1 h₂
    rw [List.append_nil, settle_writes h₁, done.inj ho]
    exact .nothing nofun

/-- Every delivery comes to an end. -/
theorem Router.ForContents.ends_deliver {r : Router} (hr : r.ForContents .store service limits)
    (topic : String) (m : Message String) : (r.deliver topic m).Ends := by
  by_cases hu : topic = Topic.Upload.topic
  · subst hu
    exact Router.ends_deliver hr.upload Handler.ends_handleWith
  by_cases he : topic = Topic.Enrichment.topic
  · subst he
    exact Router.ends_deliver hr.enrichment Handler.ends_handleWith
  · rw [deliver_of_none (hr.other topic hu he)]
    exact (ends_settle _).bind fun _ => trivial

end Delivering

end DeadLetters
