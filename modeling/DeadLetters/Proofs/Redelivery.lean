import DeadLetters.Proofs.Handling

/-!
# Redelivery

A queue delivers a message again and again until it is acknowledged, and writes on each delivery
which one it is.  While the store takes dead letters and acknowledgements succeed, every delivery
either is tried again, and then nothing has changed, or ends the message.  It ends once: the message
is processed, or one dead letter is stored; at the retry ceiling at the latest.

    a delivery is retried below the ceiling only, or it is the last              (batch_comes)
    the message ends with one of its first max c 1 deliveries                (redelivered_to_end)
-/

namespace DeadLetters

open Program

/-! ## Collaborators that accept -/

/-- Every dead letter is taken. -/
structure Taking (env : Surroundings) (s : Store) : Prop where
  insert : ∀ n l, env.store n (.insert l) = .accepts
  closed : s.closed = false
  table : s.letters.isSome = true
  faults : s.faults.insert = false
  fresh : ∀ n, ∀ x ∈ s.rows, x.letter.id ≠ env.freshId n

/-- Every dead letter is taken, and every acknowledgement. -/
structure Accepting (env : Surroundings) (s : Store) : Prop where
  insert : ∀ n l, env.store n (.insert l) = .accepts
  acknowledge : ∀ n topic m, env.acknowledge n topic m = .accepts
  closed : s.closed = false
  table : s.letters.isSome = true
  faults : s.faults.insert = false
  fresh : ∀ n, ∀ x ∈ s.rows, x.letter.id ≠ env.freshId n

section

variable {env : Surroundings} {s s' : Store}

theorem Accepting.taking (h : Accepting env s) : Taking env s :=
  ⟨h.insert, h.closed, h.table, h.faults, h.fresh⟩

/-- A fresh store takes what the surroundings do not refuse. -/
theorem taking_fresh (h : ∀ n l, env.store n (.insert l) = .accepts) : Taking env .fresh :=
  ⟨h, rfl, rfl, rfl, fun _ x hx => by cases hx⟩

theorem Taking.alike (h : Taking env s) (hs : s.Alike s') : Taking env s' where
  insert := h.insert
  closed := hs.closed.trans h.closed
  table := hs.letters ▸ h.table
  faults := hs.faults ▸ h.faults
  fresh := hs.rows ▸ h.fresh

theorem Accepting.alike (h : Accepting env s) (hs : s.Alike s') : Accepting env s' :=
  have ht := h.taking.alike hs
  ⟨ht.insert, h.acknowledge, ht.closed, ht.table, ht.faults, ht.fresh⟩

def Store.added (s : Store) (l : DeadLetter) : Store :=
  { s with letters := some (s.rows ++ [{ letter := l }]) }

/-- A dead letter with a fresh id is added. -/
theorem Taking.answer_insert (h : Taking env s) {l : DeadLetter} {n : Nat}
    (hl : l.id = env.freshId n) : s.answer (.insert l) = (.ok (), s.added l) := by
  obtain ⟨rows, hr⟩ := Option.isSome_iff_exists.1 h.table
  refine Store.answer_eq_ok_iff.2 ⟨h.closed, Store.insert_eq_ok_iff.2 ?_⟩
  have hrows := Store.rows_of_letters hr
  refine ⟨rows, hr, h.faults, fun x hx => ?_, by rw [Store.added, hrows]⟩
  rw [hl]
  exact h.fresh n x (hrows ▸ hx)

end

namespace World.Leads

variable {env : Surroundings} {i : Nat} {w w' : World} {t : List Event} {e : Event}

theorem insert_answer (h : Leads env i w t w') (he : e ∈ t) {l : DeadLetter}
    {a : Option (Except Store.Error Unit)} (hx : e.exchange = ⟨.store (.insert l), a⟩)
    (hacc : ∀ n, env.store n (.insert l) = .accepts) :
    a = some (e.before.answer (.insert l)).1 := by
  obtain ⟨v, r, rfl⟩ := h.events e he
  cases hx
  simp [answer, react, hacc, event]

theorem acknowledge_answer (h : Leads env i w t w') (he : e ∈ t) {topic : String}
    {m : Message String} {a : Option (Except Transport.Error Unit)}
    (hx : e.exchange = ⟨.acknowledge topic m, a⟩)
    (hacc : ∀ n, env.acknowledge n topic m = .accepts) : a = some (.ok ()) := by
  obtain ⟨v, r, rfl⟩ := h.events e he
  cases hx
  simp [answer, react, hacc, Reply.answer]

theorem drawn (h : Leads env i w t w') {id : String}
    (hid : id ∈ (t.map Event.exchange).filterMap Exchange.drawn?) : ∃ n, id = env.freshId n := by
  obtain ⟨x, hx, hd⟩ := List.mem_filterMap.1 hid
  obtain ⟨e, he, rfl⟩ := List.mem_map.1 hx
  obtain ⟨v, r, rfl⟩ := h.events e he
  cases r <;> simp [event, Exchange.drawn?] at hd
  exact ⟨v.steps, hd.symm⟩

end World.Leads

/-! ## A draft that lacks nothing -/

theorem Kind.isBlankText_name (k : Kind) : Text.isBlankText k.name = false := by
  cases k <;> decide

/-- A message of a topic with a name can always be stored. -/
theorem Service.missingFields_draft {payload : Payload} {f : Failure} {o : Origin} {now : Int64}
    (h : Text.isBlankText o.topic = false) : missingFields (draft payload f o now) = [] := by
  have hid : Text.isBlankText (draft payload f o now).messageId = false := by
    show Text.isBlankText (if Text.isBlankText o.messageId then unknownMessageId
      else o.messageId) = false
    split
    · decide
    · next hb => simpa using hb
  have hmessage : Text.isBlankText (draft payload f o now).errorMessage = false := by
    show Text.isBlankText (if Text.isBlankText f.detail then f.kind.name
      else Text.trim f.detail) = false
    split
    · exact f.kind.isBlankText_name
    · next hb => rw [Text.isBlankText_trim]; simpa using hb
  have htopic : Text.isBlankText (draft payload f o now).topic = false := h
  have hname : Text.isBlankText (draft payload f o now).errorName = false :=
    f.kind.isBlankText_name
  simp [missingFields, Draft.required, hid, hmessage, htopic, hname]

/-! ## A delivery comes to an end -/

section Ends

variable {β : Type} {p : Processor β} {service : Service} {limits : Limits} {r : Router}
  {topic : String} {m : Message String}

theorem Handler.ends_giveUp (f : Failure) : (Handler.giveUp service limits topic m f).Ends := by
  refine (ends_within _).bind fun handOff => ?_
  dsimp only
  split
  · trivial
  · exact (ends_log _).bind fun _ => trivial

theorem Handler.ends_afterFailure (f : Failure) :
    (Handler.afterFailure service limits topic m f).Ends := by
  unfold afterFailure
  split
  · exact (ends_log _).bind fun _ => Handler.ends_giveUp _
  all_goals
    dsimp only
    split
    · exact (ends_log _).bind fun _ => Handler.ends_giveUp _
    · exact (ends_log _).bind fun _ => trivial

/-- A processor that does not come to an end is given limited time. -/
theorem Handler.ends_handleWith : (Handler.handleWith p service limits m).Ends := by
  unfold handleWith
  split
  · exact (ends_log _).bind fun _ => Handler.ends_giveUp _
  · refine (ends_within _).bind fun outcome => ?_
    split
    · trivial
    · exact Handler.ends_afterFailure _

namespace Router

theorem ends_acknowledge : (r.acknowledge topic m).Ends := by
  refine (ends_within _).bind fun answer => ?_
  dsimp only
  split
  · exact (ends_emit _ _).bind fun _ => trivial
  · exact (ends_log _).bind fun _ => (ends_emit _ _).bind fun _ => trivial

theorem ends_settle (d : Disposition) : (r.settle topic m d).Ends := by
  cases d with
  | retry => exact (ends_emit _ _).bind fun _ => trivial
  | deadLettered => exact (ends_emit _ _).bind fun _ => ends_acknowledge
  | processed => exact ends_acknowledge
  | unroutable => exact ends_acknowledge

theorem ends_deliver {handle : Message String → Program Disposition}
    (hr : r.handlers.find? topic = some handle) (hh : (handle m).Ends) :
    (r.deliver topic m).Ends := by
  rw [deliver_of_some hr]
  exact hh.bind fun d => (ends_settle d).bind fun _ => trivial

theorem ends_processBatch {ms : List (Message String)}
    (hd : ∀ m ∈ ms, (r.deliver topic m).Ends) : (r.processBatch topic ms).Ends := by
  have all : (r.deliverAll topic ms).Ends := by
    induction ms with
    | nil => trivial
    | cons m ms ih =>
      refine (hd m (by simp)).bind fun o => ?_
      exact (ih fun m' hm => hd m' (by simp [hm])).bind fun os => trivial
  rw [processBatch_eq]
  exact (ends_opening ms).bind fun _ => all.bind fun os => (ends_log _).bind fun _ => trivial

end Router

end Ends

/-! ## One delivery -/

section Delivery

variable {β : Type} {p : Processor β} {service : Service} {limits : Limits} {r : Router}
  {m : Message String}

theorem lenient_touches_only_insert :
    Lenient fun y => y.touchesLetters = true → y.isInsert = true := by
  refine .of_aside fun y hy ht => ?_
  cases y with
  | store => simp [Request.isAside] at hy
  | _ => simp [Request.touchesLetters] at ht

/-- Where nothing but insertions changes the dead letters. -/
theorem only_touches_eq {t : List Exchange}
    (h : ∀ x ∈ t, x.request.touchesLetters = true → x.request.isInsert = true) :
    only Request.touchesLetters t = only Request.isInsert t := by
  refine List.filter_congr fun x hx => ?_
  cases ht : x.request.touchesLetters with
  | true => rw [h x hx ht]
  | false => rw [Request.isInsert_of_touches ht]

/-- All that a handler changes of the dead letters are the insertions after a failure. -/
theorem Handler.handleWith_touches (hp : p.KeepsOut) {t : List Exchange} {d : Disposition}
    (h : (Handler.handleWith p service limits m).Goes t (done d)) :
    d = .processed ∧ only Request.touchesLetters t = [] ∨
      ∃ f, AfterFailure limits p.topic m f (only Request.touchesLetters t) d := by
  have called : ∀ {call : List Exchange} {o : Option (Except Failure Unit)},
      p.Calls m call o → only Request.touchesLetters call = [] := by
    intro call o hc
    cases hc with
    | rejected => rfl
    | ended _ hg => exact hg.only_eq_nil (hp.not_touches _)
  rcases handleWith_ends h with ⟨rfl, hs⟩ | ⟨call, rest, f, rfl, ⟨o, hc, -⟩, hafter⟩
  · exact .inl ⟨rfl, called hs⟩
  · have handled : (Handler.handleWith p service limits m).Asks fun y =>
        y.touchesLetters = true → y.isInsert = true :=
      Handler.asks_handleWith lenient_touches_only_insert
        (fun _ _ => hp.not_touches.mono (fun y hy ht => by simp [hy] at ht) _)
        (fun _ ht => by simp [Request.touchesLetters] at ht) fun _ _ _ _ => rfl
    have hsame := only_touches_eq fun x hx => handled.request h x (List.mem_append_right call hx)
    rw [only_append, called hc, List.nil_append, hsame]
    exact .inr ⟨f, hafter⟩

/-- A batch of one message is its delivery, but for lines of the log. -/
theorem Router.batch_single {topic : String} {t : List Exchange} {report : BatchReport}
    (h : (r.processBatch topic [m]).Goes t (done report)) :
    ∃ t₁ t₂ t₃ o, t = t₁ ++ (t₂ ++ t₃) ∧ (r.deliver topic m).Goes t₂ (done o) ∧
      report = .ofOutcomes topic [o] ∧ ∀ x ∈ t₁ ++ t₃, ∃ e, x.request = .log e := by
  obtain ⟨t₁, t₂, t₃, os, rfl, hd, ho, hlog⟩ := processBatch_goes (o := some report) h
  obtain ⟨outcomes, rfl, rfl⟩ := Option.map_eq_some_iff.1 ho.symm
  obtain ⟨u₁, u₂, o, rfl, h₁, h₂⟩ := goes_bind_done_iff.1 hd
  obtain ⟨rfl, hos⟩ := goes_done_iff.1 h₂
  obtain rfl := done.inj hos
  exact ⟨t₁, u₁, t₃, o, by simp, h₁, rfl, hlog⟩

theorem only_log {k : Request → Bool} (hk : Lenient fun y => k y = false) {t : List Exchange}
    (ht : ∀ x ∈ t, ∃ e, x.request = .log e) : only k t = [] := by
  refine List.filter_eq_nil_iff.2 fun x hx => ?_
  obtain ⟨e, he⟩ := ht x hx
  rw [he, hk.aside rfl]
  exact Bool.false_ne_true

/-- The changes and the acknowledgements of a batch of one message, and its report. -/
theorem Router.batch_ends
    (hr : r.handlers.find? p.topic = some (Handler.handleWith p service limits)) (hp : p.KeepsOut)
    {t : List Exchange} {report : BatchReport}
    (h : (r.processBatch p.topic [m]).Goes t (done report)) :
    ∃ d acked, report = .ofOutcomes p.topic [⟨m.id, m.attempt, d, acked⟩] ∧
      (d = .processed ∧ only Request.touchesLetters t = [] ∨
        ∃ f, Handler.AfterFailure limits p.topic m f (only Request.touchesLetters t) d) ∧
      (d.settles = false ∧ acked = false ∧ only Request.isAcknowledge t = [] ∨
        d.settles = true ∧ ∃ a, only Request.isAcknowledge t = [⟨.acknowledge p.topic m, a⟩] ∧
          (acked = true ↔ a = some (.ok ()))) := by
  obtain ⟨t₁, t₂, t₃, o, rfl, hd, rfl, hlog⟩ := batch_single h
  obtain ⟨handling, rest, d, acked, rfl, h₁, h₂, rfl⟩ := deliver_ends hr hd
  have first : ∀ x ∈ t₁, ∃ e, x.request = .log e := fun x hx => hlog x (List.mem_append_left _ hx)
  have last : ∀ x ∈ t₃, ∃ e, x.request = .log e := fun x hx => hlog x (List.mem_append_right _ hx)
  have settling : only Request.touchesLetters rest = [] :=
    h₂.only_eq_nil (asks_settle lenient_not_touches r fun _ => rfl)
  have handled : only Request.isAcknowledge handling = [] :=
    h₁.only_eq_nil (Handler.asks_handleWith lenient_not_acknowledge
      (fun _ _ => hp.not_acknowledge _) (fun _ => rfl) fun _ _ _ => rfl)
  refine ⟨d, acked, rfl, ?_, ?_⟩
  · simp only [only_append, only_log lenient_not_touches first, only_log lenient_not_touches last,
      settling, List.append_nil, List.nil_append]
    exact Handler.handleWith_touches hp h₁
  · simp only [only_append, only_log lenient_not_acknowledge first,
      only_log lenient_not_acknowledge last, handled, List.append_nil, List.nil_append]
    exact settle_ends h₂

/-- What a delivery comes to while all collaborators accept, as its disposition and the dead
letters tell. -/
inductive Comes (limits : Limits) (topic : String) (m : Message String) (s s' : Store) :
    Disposition → Prop
  | processed (h : s.Alike s') : Comes limits topic m s s' .processed
  | retried (kind : Kind) (reason : String) (hm : m.attempt < limits.ceiling) (h : s.Alike s') :
      Comes limits topic m s s' (.retry kind reason)
  | deadLettered (l : DeadLetter) (kind : Kind) (hl : l.StandsFor topic m)
      (h : s'.letters = some (s.rows ++ [{ letter := l }])) :
      Comes limits topic m s s' (.deadLettered l.id kind)

/-- The insertion of a dead letter in a run where the store takes it. -/
theorem World.Leads.inserts {env : Surroundings} {i : Nat} {w w' : World} {t : List Event}
    (h : World.Leads env i w t w') (ha : Taking env w.store) {l : DeadLetter}
    {a : Option (Except Store.Error Unit)}
    (ht : only Request.touchesLetters (t.map Event.exchange) = [⟨.store (.insert l), a⟩])
    (hid : ∃ n, l.id = env.freshId n) :
    a = some (.ok ()) ∧ (w.store.added l).Alike w'.store := by
  obtain ⟨n, hn⟩ := hid
  obtain ⟨u, e, v, rfl, hx, hu, hv⟩ := exists_of_only_eq ht
  obtain ⟨hbefore, he, hafter⟩ := h.history.at
  have alike := hbefore.alike hu
  have hanswer := (ha.alike alike).answer_insert hn
  obtain rfl := h.insert_answer (by simp) hx fun n => ha.insert n l
  rw [hx, hanswer] at he
  have hstore := he.answer_eq
  rw [hanswer] at hstore
  refine ⟨by rw [hanswer], ?_⟩
  have hadded : (w.store.added l).Alike (e.before.added l) :=
    ⟨congrArg (fun rows => some (rows ++ _)) alike.rows, alike.faults, alike.closed⟩
  exact hadded.trans ((Prod.mk.inj hstore).2 ▸ hafter.alike hv)

/-- The id of a dead letter that a batch inserts has been given to it. -/
theorem World.Leads.inserted_id {env : Surroundings} {i : Nat} {w w' : World} {t : List Event}
    {ms : List (Message String)} {q : Program BatchReport}
    (hr : r.handlers.find? p.topic = some (Handler.handleWith p service limits)) (hp : p.KeepsOut)
    (h : World.Leads env i w t w')
    (hg : (r.processBatch p.topic ms).Goes (t.map Event.exchange) q) {l : DeadLetter}
    {a : Option (Except Store.Error Unit)}
    (hx : ⟨.store (.insert l), a⟩ ∈ t.map Event.exchange) : ∃ n, l.id = env.freshId n := by
  have issues : (r.processBatch p.topic ms).Issues [] := by
    refine Router.issues_processBatch fun m _ => Router.issues_deliver fun handle hh => ?_
    obtain rfl : Handler.handleWith p service limits = handle := by simpa [hr] using hh
    exact Handler.issues_handleWith hp.not_insert _ _ m
  have hin : l.id ∈ (t.map Event.exchange).filterMap Exchange.inserted? :=
    List.mem_filterMap.2 ⟨_, hx, rfl⟩
  exact h.drawn (by simpa using (issues _ _ hg).subset hin)

/-- The changes of a delivery after a failure, while all collaborators accept. -/
theorem comes_of_afterFailure {env : Surroundings} {i : Nat} {w w' : World} {t : List Event}
    {m : Message String} {f : Failure} {d : Disposition} (h : World.Leads env i w t w')
    (ha : Accepting env w.store) (ht : Text.isBlankText p.topic = false)
    (hid : ∀ l a, (⟨.store (.insert l), a⟩ : Exchange) ∈ t.map Event.exchange →
      ∃ n, l.id = env.freshId n)
    (hd : Handler.AfterFailure limits p.topic m f
      (only Request.touchesLetters (t.map Event.exchange)) d) :
    Comes limits p.topic m w.store w'.store d := by
  have inserted : ∀ {l a}, only Request.touchesLetters (t.map Event.exchange) =
      [⟨.store (.insert l), a⟩] → a = some (.ok ()) ∧ (w.store.added l).Alike w'.store := by
    intro l a hl
    refine h.inserts ha.taking hl (hid l a ?_)
    have hmem : (⟨.store (.insert l), a⟩ : Exchange) ∈
        only Request.touchesLetters (t.map Event.exchange) := by simp [hl]
    exact (mem_only.1 hmem).1
  generalize hu : only Request.touchesLetters (t.map Event.exchange) = u at hd inserted
  cases hd with
  | retried hn =>
    have hlt : m.attempt < limits.ceiling := by
      refine UInt32.not_le.1 fun hle => hn (.inr hle)
    exact .retried _ _ hlt (h.history.alike hu)
  | stored _ hi =>
    cases hi with
    | stored id now' _ =>
      exact .deadLettered _ _ (Service.standsFor_draft ..) (inserted rfl).2.letters
  | @unstored _ now o kind reason _ hi ho =>
    cases hi with
    | rejected f' hm => exact absurd (Service.missingFields_draft ht) hm
    | stored id => exact absurd rfl (ho id)
    | refused => simp at inserted
    | unanswered => simp at inserted

/-- While all collaborators accept, a delivery is acknowledged if it is not to be tried again, and
the acknowledgement is confirmed. -/
theorem batch_comes {env : Surroundings} {w : World}
    (hr : r.handlers.find? p.topic = some (Handler.handleWith p service limits)) (hp : p.KeepsOut)
    (ht : Text.isBlankText p.topic = false) (ha : Accepting env w.store) (m : Message String) :
    ∃ d w', w.run env (r.processBatch p.topic [m]) =
        (some (.ofOutcomes p.topic [⟨m.id, m.attempt, d, d.settles⟩]), w') ∧
      Comes limits p.topic m w.store w'.store d ∧
      only Request.isAcknowledge w'.journal = only Request.isAcknowledge w.journal ++
        if d.settles then [⟨.acknowledge p.topic m, some (.ok ())⟩] else [] := by
  obtain ⟨t, q, hg, hl, hq⟩ := @World.run_history _ env 0 w (r.processBatch p.topic [m])
  have ends : (r.processBatch p.topic [m]).Ends := by
    refine Router.ends_processBatch fun m' hm => ?_
    exact Router.ends_deliver hr Handler.ends_handleWith
  rcases hq with ⟨report, rfl, hreport⟩ | ⟨rfl, -⟩
  · obtain ⟨d, acked, rfl, hchanges, hacks⟩ := Router.batch_ends hr hp hg
    have hcomes : Comes limits p.topic m w.store
        (w.run env (r.processBatch p.topic [m])).2.store d := by
      rcases hchanges with ⟨rfl, hnone⟩ | ⟨f, hf⟩
      · exact .processed (hl.history.alike hnone)
      · exact comes_of_afterFailure hl ha ht (fun l a hx => hl.inserted_id hr hp hg hx) hf
    have hconfirmed : acked = d.settles ∧ only Request.isAcknowledge (t.map Event.exchange) =
        if d.settles then [⟨.acknowledge p.topic m, some (.ok ())⟩] else [] := by
      rcases hacks with ⟨hd, rfl, hnone⟩ | ⟨hd, a, hone, hacked⟩
      · rw [hd]
        exact ⟨rfl, hnone⟩
      · obtain ⟨u, e, v, rfl, hx, -, -⟩ := exists_of_only_eq hone
        obtain rfl := hl.acknowledge_answer (by simp) hx fun n => ha.acknowledge n _ _
        rw [hd]
        exact ⟨hacked.2 rfl, hone⟩
    refine ⟨d, _, Prod.ext ?_ rfl, hcomes, ?_⟩
    · rw [hreport, hconfirmed.1]
    · rw [hl.journal, only_append, hconfirmed.2]
  · exact absurd hg ends.not_stuck

end Delivery

/-! ## One delivery after another -/

/-- The k-th delivery of a message. -/
structure Delivery.Counts (d : Delivery) (id body : String) (k : Nat) : Prop where
  id : d.id = some id
  body : d.body = some body
  count : d.attributes.find? receiveCount = some (toString k)

theorem Delivery.Counts.message {d : Delivery} {id body : String} {k : Nat}
    (h : d.Counts id body k) (h1 : 1 ≤ k) (hk : k < UInt32.size) :
    ∃ m, d.message? = some m ∧ m.id = id ∧ m.body = body ∧ m.attempt.toNat = k := by
  have hattempt : d.attempt = k.toUInt32 := by
    rw [attempt, h.count, Option.bind_some, Text.uint32?_toString hk, Option.getD_some]
  have htoNat : k.toUInt32.toNat = k := by
    simpa using Nat.mod_eq_of_lt hk
  have hle : 1 ≤ k.toUInt32 := by
    rw [UInt32.le_iff_toNat_le, htoNat]
    exact h1
  refine ⟨{ Message.new id d.attempt body with receipt := d.receipt }, ?_, ?_, ?_, ?_⟩
  · simp [message?, h.id, h.body]
  · simp [hattempt, Message.new, hle]
  · simp [hattempt, Message.new, hle]
  · simp only [hattempt, Message.new, hle, ↓reduceDIte]
    exact htoNat

/-- The report of the k-th delivery, and the world after the first k. -/
def redeliver (env : Surroundings) (r : Router) (topic : String) (d : Nat → Delivery) (w : World) :
    Nat → Option BatchReport × World
  | 0 => (none, w)
  | k + 1 => (redeliver env r topic d w k).2.run env
      (r.processBatch topic (d (k + 1)).message?.toList)

theorem toNat_ceiling (c : Config) :
    (Limits.ofConfig c).ceiling.toNat = max c.retryCeiling.toNat 1 := by
  show (if c.retryCeiling ≤ 1 then 1 else c.retryCeiling).toNat = _
  by_cases h : c.retryCeiling ≤ 1
  · have hle : c.retryCeiling.toNat ≤ 1 := UInt32.le_iff_toNat_le.1 h
    rw [if_pos h, Nat.max_eq_right hle]
    rfl
  · have hlt : 1 < c.retryCeiling.toNat := by
      refine Nat.lt_of_not_le fun hle => h (UInt32.le_iff_toNat_le.2 hle)
    rw [if_neg h, Nat.max_eq_left (Nat.le_of_lt hlt)]

section Redelivered

variable {β : Type} {p : Processor β} {service : Service} {r : Router} {c : Config}
  {env : Surroundings} {w : World} {id body : String} {d : Nat → Delivery}

/-- Nothing has become of a message yet: no dead letter has come or gone, nothing has been
acknowledged. -/
structure Untouched (w w' : World) : Prop where
  alike : w.store.Alike w'.store
  acknowledgements : only Request.isAcknowledge w'.journal = only Request.isAcknowledge w.journal

/-- The k-th delivery is to be tried again, and has changed nothing. -/
def RetriedAt (env : Surroundings) (r : Router) (topic : String) (d : Nat → Delivery) (w : World)
    (k : Nat) : Prop :=
  ∃ m kind reason, (d k).message? = some m ∧
    (redeliver env r topic d w k).1 =
      some (.ofOutcomes topic [⟨m.id, m.attempt, .retry kind reason, false⟩]) ∧
    Untouched w (redeliver env r topic d w k).2

/-- The n-th delivery is acknowledged; the message has been processed and the dead letters are the
same, or there is one more, which counts the deliveries. -/
def EndedAt (env : Surroundings) (r : Router) (topic : String) (d : Nat → Delivery) (w : World)
    (n : Nat) : Prop :=
  ∃ m disposition, (d n).message? = some m ∧
    (redeliver env r topic d w n).1 =
      some (.ofOutcomes topic [⟨m.id, m.attempt, disposition, true⟩]) ∧
    only Request.isAcknowledge (redeliver env r topic d w n).2.journal =
      only Request.isAcknowledge w.journal ++ [⟨.acknowledge topic m, some (.ok ())⟩] ∧
    (disposition = .processed ∧
        (redeliver env r topic d w n).2.store.letters = w.store.letters ∨
      ∃ l kind, disposition = .deadLettered l.id kind ∧ l.StandsFor topic m ∧
        l.retryCount.toNat = n ∧ (redeliver env r topic d w n).2.store.letters =
          some (w.store.rows ++ [{ letter := l }]))

theorem redeliver_step
    (hr : r.handlers.find? p.topic = some (Handler.handleWith p service (.ofConfig c)))
    (hp : p.KeepsOut) (ht : Text.isBlankText p.topic = false) (ha : Accepting env w.store)
    (hd : ∀ k, 1 ≤ k → (d k).Counts id body k) {k : Nat} (hk : k < max c.retryCeiling.toNat 1)
    (hw : Untouched w (redeliver env r p.topic d w k).2) :
    EndedAt env r p.topic d w (k + 1) ∨
      k + 1 < max c.retryCeiling.toNat 1 ∧ RetriedAt env r p.topic d w (k + 1) := by
  have hsize : k + 1 < UInt32.size := by
    have hlt := (Limits.ofConfig c).ceiling.toNat_lt_size
    rw [toNat_ceiling] at hlt
    omega
  obtain ⟨m, hm, -, -, hattempt⟩ := (hd (k + 1) (Nat.succ_pos k)).message (Nat.succ_pos k) hsize
  obtain ⟨disposition, w', hrun, hcomes, hacks⟩ := batch_comes hr hp ht (ha.alike hw.alike) m
  have hnext : redeliver env r p.topic d w (k + 1) =
      (some (.ofOutcomes p.topic [⟨m.id, m.attempt, disposition, disposition.settles⟩]), w') := by
    rw [← hrun]
    show (redeliver env r p.topic d w k).2.run env
      (r.processBatch p.topic (d (k + 1)).message?.toList) = _
    rw [hm]
    rfl
  rw [hw.acknowledgements] at hacks
  cases hcomes with
  | processed h =>
    refine .inl ⟨m, _, hm, by rw [hnext]; rfl, by rw [hnext]; exact hacks, .inl ⟨rfl, ?_⟩⟩
    rw [hnext]
    exact (hw.alike.trans h).letters
  | retried kind reason hlt h =>
    have hless : k + 1 < max c.retryCeiling.toNat 1 := by
      rw [← toNat_ceiling, ← hattempt]
      exact UInt32.lt_iff_toNat_lt.1 hlt
    refine .inr ⟨hless, m, kind, reason, hm, by rw [hnext]; rfl, ?_⟩
    rw [hnext]
    exact ⟨hw.alike.trans h, by simpa [Disposition.settles] using hacks⟩
  | deadLettered l kind hl h =>
    refine .inl ⟨m, _, hm, by rw [hnext]; rfl, by rw [hnext]; exact hacks,
      .inr ⟨l, kind, rfl, hl, by rw [hl.retryCount, hattempt], ?_⟩⟩
    rw [hnext, h, hw.alike.rows]

/-- A message that is delivered until it is acknowledged has one end, at the retry ceiling at the
latest, and nothing changes before that. -/
theorem redelivered_to_end
    (hr : r.handlers.find? p.topic = some (Handler.handleWith p service (.ofConfig c)))
    (hp : p.KeepsOut) (ht : Text.isBlankText p.topic = false) (ha : Accepting env w.store)
    (hd : ∀ k, 1 ≤ k → (d k).Counts id body k) :
    ∃ n, 1 ≤ n ∧ n ≤ max c.retryCeiling.toNat 1 ∧ EndedAt env r p.topic d w n ∧
      ∀ k, 1 ≤ k → k < n → RetriedAt env r p.topic d w k := by
  suffices hs : ∀ left k, k + left = max c.retryCeiling.toNat 1 → 0 < left →
      Untouched w (redeliver env r p.topic d w k).2 →
      (∀ j, 1 ≤ j → j < k + 1 → RetriedAt env r p.topic d w j) →
      ∃ n, 1 ≤ n ∧ n ≤ max c.retryCeiling.toNat 1 ∧ EndedAt env r p.topic d w n ∧
        ∀ j, 1 ≤ j → j < n → RetriedAt env r p.topic d w j by
    refine hs (max c.retryCeiling.toNat 1) 0 (Nat.zero_add _) (by omega) ⟨.refl _, rfl⟩ ?_
    intro j h1 hj
    omega
  -- induction on the deliveries that are left below the ceiling
  intro left
  induction left with
  | zero =>
    intro k _ h
    omega
  | succ left ih =>
    intro k hk _ hw hretried
    rcases redeliver_step hr hp ht ha hd (by omega) hw with hend | ⟨hless, hretry⟩
    · exact ⟨k + 1, by omega, by omega, hend, hretried⟩
    · refine ih (k + 1) (by omega) (by omega) ?_ ?_
      · obtain ⟨_, _, _, -, -, h⟩ := hretry
        exact h
      · intro j h1 hj
        rcases Nat.lt_or_ge j (k + 1) with hlt | hge
        · exact hretried j h1 hlt
        · obtain rfl : j = k + 1 := by omega
          exact hretry

end Redelivered

def Delivery.failing (k : Nat) : Delivery :=
  ⟨some "m", none, some "\x7b\"fail\":\"Storage\"\x7d",
    .insert .empty receiveCount (toString k)⟩

theorem Delivery.counts_failing (k : Nat) :
    (failing k).Counts "m" "\x7b\"fail\":\"Storage\"\x7d" k :=
  ⟨rfl, rfl, (Dictionary.find?_insert _ _ _ _).trans (if_pos rfl)⟩

/-- A failing script ends with its third delivery at the latest. -/
theorem redelivered_to_end_failing :
    ∃ n, 1 ≤ n ∧ n ≤ 3 ∧
      EndedAt Router.calm Router.scripted "t" Delivery.failing (.new .fresh) n ∧
      ∀ k, 1 ≤ k → k < n →
        RetriedAt Router.calm Router.scripted "t" Delivery.failing (.new .fresh) k := by
  have taking : Taking Router.calm .fresh := taking_fresh fun _ _ => rfl
  have accepting : Accepting Router.calm (World.new .fresh).store :=
    ⟨taking.insert, fun _ _ _ => rfl, taking.closed, taking.table, taking.faults, taking.fresh⟩
  exact redelivered_to_end Router.find?_scripted (Topic.Script.asks_processor "t") (by decide)
    accepting fun k _ => Delivery.counts_failing k

end DeadLetters
