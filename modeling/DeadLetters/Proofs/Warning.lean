import DeadLetters.Proofs.Softening

/-!
# Warnings

No failure is silent.  A program heeds failures if behind each of them, before it ends, there is a
warning or an error in the log, or else its result answers for what has failed.  That is said of the
tree of a program, step by step, and holds of each path to its end.

    behind what fails there is a warning, or a result that answers for it        (Heeds.warned)
    each call of the service warns of what fails, and if it fails itself    (Call.warned_of_goes)
-/

namespace DeadLetters

open Program Store

/-- Whether a request writes a warning or an error to the log. -/
def Request.isLoud : Request → Bool
  | log e => e.level = .warn || e.level = .error
  | _ => false

/-- Whether a query or a publication has failed.  A publication that is never answered has failed
too: who waits for it gives up after some time. -/
def Exchange.failed : Exchange → Bool
  | ⟨.store _, some (.error _)⟩ | ⟨.send _ _, some (.error _)⟩ | ⟨.send _ _, none⟩ => true
  | _ => false

/-- What is said aside cannot fail. -/
theorem Exchange.failed_of_isAside {r : Request} (hr : r.isAside = true) (a : r.Answer) :
    Exchange.failed ⟨r, a⟩ = false := by
  cases r <;> first | rfl | simp [Request.isAside] at hr

namespace Program

variable {α β : Type}

/-- Whatever fails, the program warns before it ends, or it ends fairly with what is left to warn
of. -/
def Heeds (fair : Bool → α → Prop) : Bool → Program α → Prop
  | owed, done a => fair owed a
  | _, stuck => True
  | owed, ask r next =>
    r.isLoud = true ∨ ∀ a, (next a).Heeds fair (owed || Exchange.failed ⟨r, a⟩)

/-- Nothing is left to warn of, and there is a result. -/
def Sound (owed : Bool) (r : Except Failure α) : Prop := owed = false ∧ ∃ a, r = .ok a

/-- Nothing is left to warn of. -/
def Settled (owed : Bool) (_ : α) : Prop := owed = false

variable {fair : Bool → α → Prop} {fair' : Bool → β → Prop} {owed : Bool} {p : Program α}
  {f : α → Program β} {t : List Exchange} {a : α}

theorem Heeds.warned (hp : p.Heeds fair owed) (h : p.Goes t (done a)) :
    (∃ x ∈ t, x.request.isLoud = true) ∨ fair (owed || t.any Exchange.failed) a := by
  induction p generalizing owed t with
  | done b =>
    obtain ⟨rfl, hb⟩ := goes_done_iff.1 h
    obtain rfl := done.inj hb
    rw [List.any_nil, Bool.or_false]
    exact .inr hp
  | stuck => cases (goes_stuck_iff.1 h).2
  | ask r next ih =>
    rcases goes_ask_iff.1 h with ⟨-, hr⟩ | ⟨b, u, rfl, hu⟩
    · cases hr
    · rcases hp with hloud | hp
      · exact .inl ⟨_, List.mem_cons_self, hloud⟩
      · rw [List.any_cons, ← Bool.or_assoc]
        exact (ih b (hp b) hu).imp_left fun ⟨x, hx, hl⟩ => ⟨x, List.mem_cons_of_mem _ hx, hl⟩

theorem Heeds.bind (hp : p.Heeds fair owed)
    (hf : ∀ owed a, fair owed a → (f a).Heeds fair' owed) : (p.bind f).Heeds fair' owed := by
  induction p generalizing owed with
  | done a => exact hf owed a hp
  | stuck => trivial
  | ask r next ih => exact hp.imp_right fun hp a => ih a (hp a)

/-- What is said aside leaves what there is to warn of as it is. -/
theorem heeds_of_aside (hp : p.Asks fun r => r.isAside = true) :
    p.Heeds (fun left _ => left = owed) owed := by
  induction p with
  | done a => rfl
  | stuck => trivial
  | ask r next ih =>
    refine .inr fun a => ?_
    rw [Exchange.failed_of_isAside hp.1 a, Bool.or_false]
    exact ih a (hp.2 a)

/-- Something said aside, and what comes behind it. -/
theorem heeds_after (hp : p.Asks fun r => r.isAside = true)
    (hf : ∀ a, (f a).Heeds fair' owed) : (p.bind f).Heeds fair' owed :=
  (heeds_of_aside hp).bind fun left a hl => by
    subst hl
    exact hf a

/-- Behind a warning there is nothing left to say. -/
theorem heeds_loud {e : Log.Event} (he : (Request.log e).isLoud = true) {f : Unit → Program β} :
    ((log e).bind f).Heeds fair' owed := .inl he

theorem heeds_query {q : Query} {f : Except Store.Error q.Answer → Program β}
    (he : ∀ e, (f (.error e)).Heeds fair' true) (hf : ∀ a, (f (.ok a)).Heeds fair' false) :
    ((query q).bind f).Heeds fair' false := by
  refine .inr fun a => ?_
  rcases a with _ | e | a
  · trivial
  · exact he e
  · exact hf a

theorem heeds_send {topic payload : String} {f : Except Transport.Error Unit → Program β}
    (he : ∀ e, (f (.error e)).Heeds fair' true) (hf : (f (.ok ())).Heeds fair' false) :
    ((send topic payload).bind f).Heeds fair' false := by
  refine .inr fun a => ?_
  rcases a with _ | e | ⟨⟩
  · trivial
  · exact he e
  · exact hf

/-- A publication that is given limited time ends in any case. -/
theorem within_send (topic payload : String) :
    (send topic payload).within = ask (.send topic payload) done := by
  refine congrArg (ask (Request.send topic payload)) (funext fun a => ?_)
  cases a <;> rfl

theorem heeds_within_send {topic payload : String}
    {f : Option (Except Transport.Error Unit) → Program β} (hn : (f none).Heeds fair' true)
    (he : ∀ e, (f (some (.error e))).Heeds fair' true)
    (hf : (f (some (.ok ()))).Heeds fair' false) :
    ((send topic payload).within.bind f).Heeds fair' false := by
  rw [within_send]
  refine .inr fun a => ?_
  rcases a with _ | e | ⟨⟩
  · exact hn
  · exact he e
  · exact hf

end Program

namespace Service

open Program

variable {α : Type} {s : Service}

theorem heeds_observed {operation : String} {body : Program (Except Failure α)}
    (h : body.Heeds Sound false) : (s.observed operation body).Heeds Sound false := by
  refine heeds_after lenient_aside.stopwatch fun started => h.bind ?_
  rintro _ r ⟨rfl, hr⟩
  exact heeds_after (asks_report lenient_aside s operation started r) fun _ => ⟨rfl, hr⟩

/-- A query whose failure is complained of. -/
theorem heeds_orFail {q : Query} {complain : Store.Error → Log.Event}
    (hc : ∀ e, (Request.log (complain e)).isLoud = true)
    {next : q.Answer → Program (Except Failure α)} (hn : ∀ a, (next a).Heeds Sound false) :
    ((query q).bind fun answer => orFail answer complain next).Heeds Sound false :=
  heeds_query (fun e => heeds_loud (hc e)) hn

/-- A line of the log, and a result. -/
theorem heeds_said (e : Log.Event) (a : α) :
    ((log e).bind fun _ => done (.ok a : Except Failure α)).Heeds Sound false :=
  heeds_after (lenient_aside.log e) fun _ => ⟨rfl, a, rfl⟩

/-! ## Storing -/

theorem heeds_insert (d : Draft) : (insert d).Heeds Sound false := by
  refine heeds_after lenient_aside.freshId fun id => ?_
  cases d.failedAt with
  | none =>
    refine heeds_after lenient_aside.clock fun now => ?_
    exact heeds_orFail (fun _ => rfl) fun _ => heeds_said _ _
  | some now => exact heeds_orFail (fun _ => rfl) fun _ => heeds_said _ _

theorem heeds_store (s : Service) (d : Draft) : (s.store d).Heeds Sound false := by
  refine heeds_observed ?_
  split
  · exact heeds_insert d
  · exact heeds_loud rfl

theorem heeds_notify (s : Service) (d : Draft) : (s.notify d).Heeds Settled false := by
  unfold notify
  split
  · exact heeds_of_aside (lenient_aside.log _)
  · have warned : ∀ e : Transport.Error, (log (event .warn "send_to_dlq"
        "dead-letter notification failed, storing anyway"
        [("message_id", .plain d.messageId), ("topic", .plain d.topic),
          ("dead_letter_topic", .plain s.deadLetterTopic), ("error", .plain e.message)])).Heeds
        Settled true := fun _ => .inl rfl
    refine heeds_within_send ?_ (fun e => ?_) rfl
    · exact heeds_after (lenient_aside.emit _ _) fun _ => warned _
    · exact heeds_after (lenient_aside.emit _ _) fun _ => warned e

theorem heeds_giveUp (s : Service) (payload : Payload) (f : Failure) (o : Origin) :
    (s.giveUp payload f o).Heeds Sound false := by
  refine heeds_after lenient_aside.clock fun now => (heeds_notify s _).bind ?_
  rintro _ _ rfl
  exact heeds_store s _

/-! ## Closing and replaying -/

theorem heeds_firstResult (id : String) : (firstResult id).Heeds Sound false := by
  refine heeds_orFail (fun _ => rfl) fun found => ?_
  cases found <;> exact heeds_loud rfl

theorem heeds_close (id result : String) : (close id result).Heeds Sound false := by
  refine heeds_after lenient_aside.clock fun now => ?_
  refine heeds_orFail (fun _ => rfl) fun (changed : Nat) => ?_
  show (if 0 < changed then done (.ok (result, true)) else firstResult id).Heeds Sound false
  split
  · exact ⟨rfl, _, rfl⟩
  · exact heeds_firstResult id

theorem heeds_markReprocessed (s : Service) (id result : String) :
    (s.markReprocessed id result).Heeds Sound false := by
  refine heeds_observed ((heeds_close id result).bind ?_)
  rintro _ _ ⟨rfl, c, rfl⟩
  exact ⟨rfl, _, rfl⟩

theorem heeds_publish (s : Service) (l : DeadLetter) (body : String) :
    (s.publish l body).Heeds Settled false := by
  unfold publish
  split
  · exact heeds_loud rfl
  · refine heeds_send (fun e => heeds_loud rfl) ?_
    exact heeds_after (lenient_aside.emit _ _) fun _ => rfl

theorem heeds_attempt (s : Service) (l : DeadLetter) (payload : Json.Value) :
    (s.attempt l payload).Heeds Settled false := by
  unfold attempt
  split
  · exact (rfl : false = false)
  · exact heeds_loud rfl
  · exact heeds_publish s l _

theorem heeds_replayAndClose (s : Service) (id : String) (l : DeadLetter) :
    (s.replayAndClose id l).Heeds Sound false := by
  unfold replayAndClose
  split
  · exact heeds_loud rfl
  · refine (heeds_attempt s l _).bind ?_
    rintro _ result rfl
    refine (heeds_close id result).bind ?_
    rintro _ _ ⟨rfl, c, rfl⟩
    exact heeds_said _ _

theorem heeds_reprocess (s : Service) (id : String) : (s.reprocess id).Heeds Sound false := by
  refine heeds_observed (heeds_orFail (fun _ => rfl) fun found => ?_)
  cases found with
  | none => exact heeds_loud rfl
  | some l =>
    show (if l.reprocessed then (log (event .info "reprocess"
        "dead letter already reprocessed" [("id", .quoted id)])).bind fun _ =>
          done (.ok (l.recoveryResult.getD ""))
        else s.replayAndClose id l).Heeds Sound false
    split
    · exact heeds_said _ _
    · exact heeds_replayAndClose s id l

/-! ## Questions, and purging -/

theorem heeds_list (s : Service) (f : Filter) : (s.list f).Heeds Sound false := by
  refine heeds_observed (heeds_query (fun e => ?_) fun ls => ⟨rfl, ls, rfl⟩)
  show (if e.failure.isMissingTable then _ else _ :
    Program (Except Failure (List DeadLetter))).Heeds Sound true
  split <;> exact heeds_loud rfl

/-- The result answers for what has failed. -/
def Answered (owed : Bool) (r : Except Failure α) : Prop := owed = true → ∃ f, r = .error f

/-- Collecting says nothing, but what fails is its result. -/
theorem heeds_collect : collect.Heeds Answered false := by
  have answered {β : Type} {q : Query} {next : q.Answer → Program (Except Failure β)}
      (hn : ∀ a, (next a).Heeds Answered false) :
      ((query q).bind fun answer => ifAnswered answer next).Heeds Answered false :=
    heeds_query (fun e _ => ⟨e.failure, rfl⟩) hn
  exact answered fun _ => answered fun _ => answered fun _ => answered fun _ ho => by cases ho

theorem heeds_stats (s : Service) : s.stats.Heeds Sound false := by
  rw [stats_eq]
  refine heeds_observed (heeds_collect.bind fun owed r hr => ?_)
  cases r with
  | ok st =>
    have howed : owed = false := by
      rw [← Bool.not_eq_true]
      intro ho
      obtain ⟨f, hf⟩ := hr ho
      cases hf
    subst howed
    exact heeds_after (lenient_aside.emit _ _) fun _ => ⟨rfl, st, rfl⟩
  | error f =>
    simp only [concluded]
    split <;> exact heeds_loud rfl

theorem heeds_purge (s : Service) (f : Filter) : (s.purge f).Heeds Sound false := by
  refine heeds_observed (heeds_query (fun e => ?_) fun n => ?_)
  · show (if e.failure.isMissingTable then _ else _ :
      Program (Except Failure Nat)).Heeds Sound true
    split <;> exact heeds_loud rfl
  · refine heeds_after (asks_warnOfPurge lenient_aside s f n) fun _ => ?_
    exact heeds_orFail (fun _ => rfl) fun _ => heeds_said _ _

namespace Call

theorem heeds_program (s : Service) (c : Call) : (c.program s).Heeds Sound false := by
  cases c with
  | store d => exact heeds_store s d
  | giveUp payload f o => exact heeds_giveUp s payload f o
  | markReprocessed id result => exact heeds_markReprocessed s id result
  | reprocess id => exact heeds_reprocess s id
  | purge f => exact heeds_purge s f
  | list f => exact heeds_list s f
  | stats => exact heeds_stats s

/-- A call that fails, or in which a query or a publication has failed, has warned. -/
theorem warned_of_goes {c : Call} {t : List Exchange} {r : Except Failure c.Result}
    (h : (c.program s).Goes t (done r)) (hf : t.any Exchange.failed = true ∨ ∃ f, r = .error f) :
    ∃ x ∈ t, x.request.isLoud = true := by
  rcases (heeds_program s c).warned h with hloud | ⟨hnone, a, rfl⟩
  · exact hloud
  · rcases hf with hany | ⟨f, hf⟩
    · rw [hany] at hnone
      cases hnone
    · cases hf

end Call

end Service

end DeadLetters
