import DeadLetters.Proofs.Agreement
import DeadLetters.Proofs.Redelivery
import DeadLetters.Proofs.Revalidation

/-!
# What reprocessing publishes

Uploads that failed are published again only as uploads.  A body that was refused does not get past
the second check, whatever else runs beside the two calls, unless it is one of the two kinds of body
that are not kept as they were received.  A body that was accepted is published once, and is read as
the same upload.

    a refused body is not published                                        (refused_stays_out)
    an accepted body is published as the same upload                      (accepted_returns)
-/

namespace DeadLetters

open Program Store

/-! ## Bodies that are kept under an id -/

/-- A dead letter keeps a body of a topic. -/
structure DeadLetter.Keeps (l : DeadLetter) (topic body : String) : Prop where
  topic : l.topic = topic
  payload : l.payload = (Payload.capture body).stored

namespace DeadLetter

variable {l l' : DeadLetter} {topic body : String}

theorem Keeps.continues (h : l.Keeps topic body) (hl : l.Continues l') : l'.Keeps topic body :=
  ⟨hl.topic.trans h.topic, hl.payload.trans h.payload⟩

end DeadLetter

/-- All that is stored under an id, at first and in a run, keeps one body of one topic. -/
structure KeptAs (s : Store) (run : List Event) (id topic body : String) : Prop where
  rows : ∀ x ∈ s.rows, x.letter.id = id → x.letter.Keeps topic body
  inserts : ∀ e ∈ run, ∀ l, e.request = .store (.insert l) → l.id = id → l.Keeps topic body

variable {s s' m : Store} {run past rest : List Event} {id topic body : String}

theorem KeptAs.rows_later (h : KeptAs s (past ++ rest) id topic body) (hpast : History s past m) :
    ∀ x ∈ m.rows, x.letter.id = id → x.letter.Keeps topic body := by
  refine hpast.along (P := fun _ m => ∀ x ∈ m.rows, x.letter.id = id → x.letter.Keeps topic body)
    h.rows ?_
  intro before e after ht hbefore hreacts y hy hid
  rcases hreacts.moves.origin hy with ⟨x, hx, hc⟩ | hr
  · exact (hbefore x hx (hc.id.symm.trans hid)).continues hc
  · exact h.inserts e (by simp [ht]) y.letter hr hid

/-- A message that is given up beside a call is kept, whatever its id. -/
theorem keptAs_giveUp {service service' : Service} {f : Failure} {o : Origin} {called : String}
    (h : SideBySide (List.map Operation.thread
      [.giveUp service (.capture body) f o, .reprocess service' called]) s run s')
    (hs : s.rows = []) (id : String) : KeptAs s run id o.topic body := by
  refine ⟨by simp [hs], fun e he l hl _ => ?_⟩
  obtain ⟨th, hth, hasks⟩ := h.exists_thread he
  have others : ∀ r : Request, r.isInsert = false → ∀ l, r = .store (.insert l) →
      l.Keeps o.topic body := by
    rintro r hr l rfl
    cases hr
  have lenient : Lenient fun r => ∀ l, r = .store (.insert l) → l.Keeps o.topic body :=
    .of_aside fun r hr => others r (lenient_not_insert.aside hr)
  suffices hok : th.program.Asks fun r => ∀ l, r = .store (.insert l) →
      l.Keeps o.topic body from hasks _ hok l hl
  generalize e.thread = i at hth
  rcases i with _ | _ | i
  · cases hth
    refine Service.asks_giveUp lenient _ (fun _ => others _ rfl) fun id now => ?_
    rintro _ ⟨⟩
    exact ⟨rfl, rfl⟩
  · cases hth
    exact Service.asks_reprocess lenient _ (fun _ _ => others _ rfl) (fun _ _ => others _ rfl)
      (others _ rfl)
  · cases hth

/-- What a call publishes is made of what is kept under its id. -/
theorem KeptAs.published {threads : List Thread} {i : Nat} {service : Service} {e : Event}
    (h : SideBySide threads s run s') (hkept : KeptAs s run id topic body)
    (hi : threads[i]? = some ⟨service.reprocess id⟩) (he : e ∈ run) (hthread : e.thread = i)
    (hsend : e.request.isSend = true) :
    ∃ payload b, Json.parseValue (Payload.capture body).stored = .ok payload ∧
      service.replay.prepare topic payload = some (.ok b) ∧ e.request = .send topic b := by
  obtain ⟨q, hq⟩ := h.goes i _ hi
  have hx : e.exchange ∈ own i run := hthread ▸ mem_own_of_mem he
  obtain ⟨l, payload, b, hread, hpayload, hb, hrequest⟩ :=
    Service.reprocess_publishes hq hx hsend
  obtain ⟨e', he', -, hx'⟩ := mem_own.1 hread
  obtain ⟨past, rest, rfl⟩ := List.append_of_mem he'
  obtain ⟨hpast, hreacts, -⟩ := h.history.at
  obtain ⟨x, hmem, rfl, hid⟩ := row_of_get hreacts hx'
  have hkeeps := hkept.rows_later hpast x hmem hid
  rw [hkeeps.payload] at hpayload
  rw [hkeeps.topic] at hb hrequest
  exact ⟨payload, b, hpayload, hb, hrequest⟩

/-! ## Refused uploads -/

open Topic in
/-- A call that reprocesses an upload whose body was refused publishes nothing, unless the body is a
JSON string of a text that is accepted, or an object that gives a field more than once and is
accepted with the last values. -/
theorem refused_stays_out {ops : List Operation} {i : Nat} {service : Service} {f : Failure}
    (h : SideBySide (ops.map Operation.thread) s run s')
    (hkept : KeptAs s run id Upload.topic body) (hbody : Upload.schema.parse body = .error f)
    (hi : ops[i]? = some (.reprocess service id)) (hreplay : service.replay = .standard) :
    (∀ e ∈ run, e.thread = i → e.request.isSend = false) ∨
      (∃ t u, Json.parseValue body = .ok (.string t) ∧ Upload.schema.parse t = .ok u) ∨
        Upload.record.Repeats body ∧
          ∃ v u, Json.parseValue body = .ok v ∧ Upload.schema.parse v.text = .ok u := by
  by_cases hsent : ∃ e ∈ run, e.thread = i ∧ e.request.isSend = true
  · obtain ⟨e, he, hthread, hsend⟩ := hsent
    have hi' : (ops.map Operation.thread)[i]? = some ⟨service.reprocess id⟩ := by
      rw [List.getElem?_map, hi]
      rfl
    obtain ⟨payload, b, hpayload, hb, -⟩ := hkept.published h hi' he hthread hsend
    rw [hreplay, Replay.prepare_standard_eq_ok_iff] at hb
    obtain ⟨rfl, u, hu⟩ := hb
    right
    rcases Replay.refused_of_refused Upload.isFlat_record hpayload (by simp [hbody]) hu with
      ⟨t, ht, hu⟩ | ⟨hr, v, hv, hu⟩
    · exact .inl ⟨t, u, ht, hu⟩
    · exact .inr ⟨hr, v, u, hv, hu⟩
  · left
    intro e he hthread
    cases hsend : e.request.isSend with
    | false => rfl
    | true => exact absurd ⟨e, he, hthread, hsend⟩ hsent

def Service.uploading : Service :=
  { Service.ofConfig {} with
    binds := some fun _ => true
    replay := .standard }

open Topic in
/-- A text that is given up and reprocessed stays out. -/
theorem refused_stays_out_text :
    ∃ run s', SideBySide (List.map Operation.thread
        [.giveUp .uploading (.capture "no") (.validation "no") ⟨"m", Upload.topic, 1⟩,
          .reprocess .uploading "3"]) .fresh run s' ∧
      KeptAs .fresh run "3" Upload.topic "no" ∧
      (∀ e ∈ run, e.thread = 1 → e.request.isSend = false) ∧
      s'.rows.map (fun x => x.letter.reprocessed) = [true] := by
  obtain ⟨t, u, h, -, -⟩ := Operation.sequence_history Router.calm (.new .fresh)
    [.giveUp .uploading (.capture "no") (.validation "no") ⟨"m", Upload.topic, 1⟩]
    [.reprocess .uploading "3"]
  have hkept : KeptAs .fresh (t ++ u) "3" Upload.topic "no" := keptAs_giveUp h rfl "3"
  have hrefused : Upload.schema.parse "no" =
      .error (.validation "body does not match schema: expected ident at line 1 column 2") := by
    decide +kernel
  have hvalue : (Json.parseValue "no").toOption.isNone = true := by decide +kernel
  refine ⟨t ++ u, _, h, hkept, ?_, by decide +kernel⟩
  have hi : [Operation.giveUp .uploading (.capture "no") (.validation "no") ⟨"m", Upload.topic, 1⟩,
      .reprocess .uploading "3"][1]? = some (.reprocess .uploading "3") := rfl
  rcases refused_stays_out h hkept hrefused hi rfl with
    hout | ⟨_, _, hv, -⟩ | ⟨-, _, _, hv, -⟩
  · exact hout
  · rw [hv] at hvalue
    cases hvalue
  · rw [hv] at hvalue
    cases hvalue

namespace Topic.Upload

/-- The publications of giving up an upload, and of reprocessing it. -/
def publications (body : String) : List (String × String) :=
  match (World.new .fresh).run Router.calm (Service.uploading.giveUp (.capture body)
    (.validation "no") ⟨"m", Upload.topic, 1⟩) with
  | (some (.ok id), w) =>
    (w.run Router.calm (Service.uploading.reprocess id)).2.journal.filterMap Exchange.sent?
  | (_, w) => w.journal.filterMap Exchange.sent?

/-- An upload that is given two contents, the first without a name. -/
def renamed : String :=
  "\x7b\"contentId\":\"\",\"contentId\":\"c\",\"bucket\":\"b\",\"key\":\"k\",\"sizeBytes\":1,"
    ++ "\"contentType\":\"a/b\",\"uploadedAt\":1\x7d"

/-- The text that is published for it. -/
def lastNamed : String :=
  "\x7b\"bucket\":\"b\",\"contentId\":\"c\",\"contentType\":\"a/b\",\"key\":\"k\",\"sizeBytes\":1,"
    ++ "\"uploadedAt\":1\x7d"

/-- A refused upload that is published all the same: an object with a repeated field, and a JSON
string of an upload. -/
theorem refused_published :
    ((schema.parse renamed).toOption = none ∧
        (Upload.topic, lastNamed) ∈ publications renamed) ∧
      (schema.parse (Json.stringText lastNamed)).toOption = none ∧
        (Upload.topic, lastNamed) ∈ publications (Json.stringText lastNamed) := by
  decide +kernel

end Topic.Upload

/-! ## Accepted uploads -/

namespace Service

variable {service : Service} {l : DeadLetter} {t : List Exchange}

theorem publish_sends {o : Option String}
    (hbinds : (service.binds.map fun binds => binds l.topic).getD false = true)
    (h : (service.publish l body).Goes t (await o)) :
    ∃ a, only Request.isSend t = [⟨.send l.topic body, a⟩] := by
  unfold publish at h
  rw [hbinds] at h
  rcases goes_bind_await_iff.1 h with ⟨-, hs⟩ | ⟨t₁, t₂, a, rfl, h₁, h₂⟩
  · obtain ⟨a, rfl, -⟩ := goes_ask_await_iff.1 (show _ from hs : (send _ _).Goes t (await none))
    exact ⟨a, rfl⟩
  · obtain ⟨a', rfl, -⟩ := goes_ask_await_iff.1 (show (send _ _).Goes t₁ (await (some a)) from h₁)
    refine ⟨a', ?_⟩
    have quiet : only Request.isSend t₂ = [] := by
      refine h₂.only_eq_nil ?_
      split
      · exact (lenient_not_send.emit _ _).bind fun _ => asks_done _
      · exact (lenient_not_send.log _).bind fun _ => asks_done _
    rw [only_append, quiet]
    rfl

/-- A dead letter whose body passes is published once. -/
theorem replayAndClose_sends {payload : Json.Value} {o : Option (Except Failure String)}
    (hbinds : (service.binds.map fun binds => binds l.topic).getD false = true)
    (hpayload : Json.parseValue l.payload = .ok payload)
    (hbody : service.replay.prepare l.topic payload = some (.ok body))
    (h : (service.replayAndClose id l).Goes t (await o)) :
    ∃ a, only Request.isSend t = [⟨.send l.topic body, a⟩] := by
  unfold replayAndClose at h
  rw [hpayload] at h
  obtain ⟨o', u, hu, ht, -⟩ := Goes.before (k := Request.isSend) h fun result => by
    refine (asks_close lenient_not_send (fun _ => rfl) rfl).bind fun closed => ?_
    split
    · exact asks_done _
    · exact (lenient_not_send.log _).bind fun _ => asks_done _
  unfold attempt at hu
  rw [hbody] at hu
  rw [ht]
  exact publish_sends hbinds hu

end Service

section Returning

variable {env : Surroundings} {w : World} {service service' : Service} {d : Draft}

/-- A draft that lacks nothing is stored under a fresh id. -/
theorem store_added (service : Service) (ht : Taking env w.store)
    (hd : Service.missingFields d = []) :
    ∃ id now, (w.run env (service.store d)).1 = some (.ok id) ∧ (∃ n, id = env.freshId n) ∧
      (w.store.added (d.letter id now)).Alike (w.run env (service.store d)).2.store := by
  obtain ⟨t, hg, hl⟩ := @World.run_goes _ env 0 w (service.store d)
  have hinserts := Service.store_inserts hg
  have hsame : only Request.touchesLetters (t.map Event.exchange) =
      only Request.isInsert (t.map Event.exchange) :=
    only_touches_eq ((Service.asks_store lenient_touches_only_insert service
      fun _ _ _ _ => rfl).request hg)
  have fresh : ∀ {l a}, only Request.isInsert (t.map Event.exchange) = [⟨.store (.insert l), a⟩] →
      ∃ n, l.id = env.freshId n := by
    intro l a hone
    have hmem : (⟨.store (.insert l), a⟩ : Exchange) ∈ t.map Event.exchange := by
      refine (mem_only (k := Request.isInsert)).1 ?_ |>.1
      rw [hone]
      exact List.mem_cons_self
    have hin : l.id ∈ (t.map Event.exchange).filterMap Exchange.inserted? :=
      List.mem_filterMap.2 ⟨_, hmem, rfl⟩
    exact hl.drawn (by simpa using (Service.issues_store service d _ _ hg).subset hin)
  have taken : ∀ {l a}, only Request.isInsert (t.map Event.exchange) = [⟨.store (.insert l), a⟩] →
      a = some (.ok ()) ∧ (w.store.added l).Alike (w.run env (service.store d)).2.store :=
    fun hone => hl.inserts ht (hsame.trans hone) (fresh hone)
  generalize (w.run env (service.store d)).1 = o at hinserts
  generalize only Request.isInsert (t.map Event.exchange) = u at hinserts fresh taken
  cases hinserts with
  | rejected f hm => exact absurd hd hm
  | stored id now => exact ⟨id, now, rfl, fresh rfl, (taken rfl).2⟩
  | refused => simp at taken
  | unanswered => simp at taken

/-- A dead letter that is added with a fresh id is found by it. -/
theorem answer_get_added {l : DeadLetter} (ht : Taking env s) (hl : ∃ n, l.id = env.freshId n)
    (hs : (s.added l).Alike s') : s'.answer (.get l.id) = (.ok (some l), s') := by
  obtain ⟨n, hn⟩ := hl
  have hget : s'.get l.id = .ok (some l) := by
    refine get_eq_ok_iff.2 ⟨_, hs.letters, .inr ⟨{ letter := l }, ?_, rfl, rfl⟩⟩
    have hnone : s.rows.find? (hasId l.id) = none := by
      simpa [hasId, hn] using ht.fresh n
    simp [List.find?_append, hnone, hasId]
  refine answer_eq_ok_iff.2 ⟨hs.closed.trans ht.closed, ?_⟩
  rw [perform, hget]
  rfl

/-- A call that finds a pending dead letter replays it. -/
theorem reprocess_reads (service : Service) {l : DeadLetter}
    (hget : ∀ n, env.store n (.get id) = .accepts)
    (hread : w.store.answer (.get id) = (.ok (some l), w.store)) (hl : l.reprocessed = false) :
    ∃ (m : World) (started : Nat),
      m.journal = w.journal ++
        [⟨.stopwatch, started⟩, ⟨.store (.get id), some (.ok (some l))⟩] ∧
      w.run env (service.reprocess id) = m.run env ((service.replayAndClose id l).bind
        fun result => (service.report "reprocess" started result).bind fun _ => done result) := by
  have hwatch : w.run env stopwatch =
      (some (env.stopwatch w.steps), (w.answer env .stopwatch).2) := rfl
  have hanswer : ((w.answer env .stopwatch).2.answer env (.store (.get id))).1 =
      some (.ok (some l)) := by
    simp only [World.answer, World.react, hget, hread]
  have hfound : (w.answer env .stopwatch).2.run env (query (.get id)) =
      (some (.ok (some l)), ((w.answer env .stopwatch).2.answer env (.store (.get id))).2) := by
    rw [World.run_query_of (hget _), show (w.answer env .stopwatch).2.store = w.store from rfl,
      hread]
  refine ⟨((w.answer env .stopwatch).2.answer env (.store (.get id))).2, env.stopwatch w.steps,
    ?_, (World.run_bind_of hwatch).trans ?_⟩
  · rw [World.journal_answer, hanswer, World.journal_answer, List.append_assoc]
    rfl
  · show World.run env _ (((query (.get id)).bind _).bind _) = _
    rw [Program.bind_assoc]
    refine (World.run_bind_of hfound).trans ?_
    show World.run env _ ((if l.reprocessed = true then _
      else service.replayAndClose id l).bind _) = _
    rw [if_neg (by simp [hl])]
    rfl

theorem reprocess_found (service : Service) {l : DeadLetter}
    (hget : ∀ n, env.store n (.get id) = .accepts)
    (hread : w.store.answer (.get id) = (.ok (some l), w.store)) (hl : l.reprocessed = false) :
    ∃ (m : World) (started : Nat),
      only Request.isSend m.journal = only Request.isSend w.journal ∧
        w.run env (service.reprocess id) = m.run env ((service.replayAndClose id l).bind
          fun result => (service.report "reprocess" started result).bind fun _ => done result) := by
  obtain ⟨m, started, hm, hrun⟩ := reprocess_reads service hget hread hl
  refine ⟨m, started, ?_, hrun⟩
  rw [hm, only_append]
  exact List.append_nil _

theorem World.Leads.send_answer {i : Nat} {w' : World} {t : List Event}
    (h : World.Leads env i w t w') {topic payload : String}
    {a : Option (Except Transport.Error Unit)}
    (hx : (⟨.send topic payload, a⟩ : Exchange) ∈ t.map Event.exchange)
    (hacc : ∀ n, env.send n topic = .accepts) : a = some (.ok ()) := by
  obtain ⟨e, he, hx⟩ := List.mem_map.1 hx
  obtain ⟨v, r, rfl⟩ := h.events e he
  cases hx
  simp [World.answer, World.react, hacc, Reply.answer]

open Topic in
/-- An accepted body without doubles that is stored and reprocessed is published once, as a body of
the same upload. -/
theorem accepted_returns {u : Upload} (hbody : Upload.schema.parse body = .ok u)
    (hi : ∀ v, Json.parseValue body = .ok v → v.All Json.Number.Integral)
    (htopic : d.topic = Upload.topic) (hpayload : d.payload = .capture body)
    (hd : Service.missingFields d = []) (ht : Taking env w.store)
    (hget : ∀ n id, env.store n (.get id) = .accepts)
    (hsend : ∀ n, env.send n Upload.topic = .accepts) (hreplay : service'.replay = .standard)
    (hbinds : (service'.binds.map fun binds => binds Upload.topic).getD false = true) :
    ∃ id w₁ b, w.run env (service.store d) = (some (.ok id), w₁) ∧
      only Request.isSend (w₁.run env (service'.reprocess id)).2.journal =
        only Request.isSend w₁.journal ++ [⟨.send Upload.topic b, some (.ok ())⟩] ∧
      Upload.schema.parse b = .ok u := by
  obtain ⟨id, now, hstore, hfresh, halike⟩ := store_added service ht hd
  have hread := answer_get_added ht hfresh halike
  obtain ⟨payload, hstored, hagain⟩ := Replay.passes_again Upload.isFlat_record hbody hi
  obtain ⟨m, started, hm, hrun⟩ :=
    reprocess_found service' (fun n => hget n id) hread rfl
  obtain ⟨t, hg, hl⟩ := @World.run_goes _ env 0 m ((service'.replayAndClose id
    (d.letter id now)).bind fun result =>
      (service'.report "reprocess" started result).bind fun _ => done result)
  obtain ⟨o, v, hv, hsame, -⟩ := Goes.before (k := Request.isSend) hg fun result =>
    (Service.asks_report lenient_not_send service' _ started result).bind fun _ => asks_done _
  have hprepared : service'.replay.prepare (d.letter id now).topic payload =
      some (.ok (Replay.body payload)) := by
    rw [hreplay, show (d.letter id now).topic = Upload.topic from htopic]
    exact Replay.prepare_standard_eq_ok_iff.2 ⟨rfl, u, hagain⟩
  obtain ⟨a, hone⟩ := Service.replayAndClose_sends (by rw [← htopic] at hbinds; exact hbinds)
    (by rw [← hpayload] at hstored; exact hstored) hprepared hv
  rw [hone] at hsame
  have hmem : (⟨.send Upload.topic (Replay.body payload), a⟩ : Exchange) ∈
      t.map Event.exchange := by
    refine ((mem_only (k := Request.isSend)).1 ?_).1
    rw [hsame, ← htopic]
    exact List.mem_singleton_self _
  refine ⟨id, _, Replay.body payload, Prod.ext hstore rfl, ?_, hagain⟩
  rw [hrun, hl.journal, only_append, hm, hsame, ← hl.send_answer hmem hsend, ← htopic]
  rfl

end Returning

def Topic.Upload.sample (size : Int) : Json.Value :=
  .object [("bucket", .string "b"), ("contentId", .string "c"), ("contentType", .string "a/b"),
    ("key", .string "k"), ("sizeBytes", .number (.int size)), ("uploadedAt", .number (.int 1))]

open Topic in
/-- An upload that is stored and reprocessed comes back. -/
theorem accepted_returns_sample :
    ∃ id w₁ b, (World.new .fresh).run Router.calm (Service.uploading.store
        ⟨"m", Upload.topic, "ProcessingError", "no", 1, .capture (Upload.sample 1).text, some 0⟩) =
        (some (.ok id), w₁) ∧
      only Request.isSend (w₁.run Router.calm (Service.uploading.reprocess id)).2.journal =
        only Request.isSend w₁.journal ++ [⟨.send Upload.topic b, some (.ok ())⟩] ∧
      Upload.schema.parse b = .ok ⟨"c", "b", "k", 1, "a/b", 1⟩ := by
  have hread : Upload.schema.parse (Upload.sample 1).text = .ok ⟨"c", "b", "k", 1, "a/b", 1⟩ := by
    decide +kernel
  have hintegral : (Upload.sample 1).All Json.Number.Integral :=
    ⟨trivial, trivial, trivial, trivial, (by decide : Json.Fits 1), (by decide : Json.Fits 1),
      trivial⟩
  have hsound : (Upload.sample 1).Sound Json.depthLimit :=
    ⟨by decide, ⟨by decide, trivial, trivial, trivial, trivial, trivial, trivial, trivial⟩,
      hintegral.mono fun _ => Json.Number.Integral.fits⟩
  refine accepted_returns hread (fun v hv => ?_) rfl rfl (by decide +kernel)
    (taking_fresh fun _ _ => rfl) (fun _ _ => rfl) (fun _ => rfl) rfl rfl
  rw [Json.parseValue_text hsound hintegral] at hv
  exact Except.ok.inj hv ▸ hintegral

end DeadLetters
