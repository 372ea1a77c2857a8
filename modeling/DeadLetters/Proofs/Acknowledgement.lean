import DeadLetters.Proofs.Handling

/-!
# No message is lost

The messages of any number of batches are handled side by side.  Whenever one of them is
acknowledged, its processor has succeeded before, or a dead letter that keeps its body, its id and
its attempt has been stored before; whatever the store, the dead-letter topic and the acknowledger
do.

    a run of a batch is a run of its deliveries side by side          (processBatch_sideBySide)
    an acknowledged message has been processed or kept              (acknowledged_only_if_kept)
-/

namespace DeadLetters

open Program

/-- A batch as a queue hands it out. -/
structure Batch where
  topic : String
  messages : List (Message String)

namespace Router

variable {β : Type} {r : Router}

/-- The messages of batches, each with its topic. -/
def jobs (batches : List Batch) : List (String × Message String) :=
  batches.flatMap fun b => b.messages.map fun m => (b.topic, m)

def deliveries (r : Router) (batches : List Batch) : List Thread :=
  (jobs batches).map fun j => ⟨r.deliver j.1 j.2⟩

/-! ## Batches -/

theorem jobs_single (topic : String) (ms : List (Message String)) :
    jobs [⟨topic, ms⟩] = ms.map fun m => (topic, m) := by
  simp [jobs]

/-- Deliveries one after another are deliveries side by side. -/
theorem deliverAll_sideBySide {topic : String} {ms : List (Message String)} {s s' : Store}
    {t : List Event} {q : Program (List Outcome)} (h : History s t s')
    (hg : (r.deliverAll topic ms).Goes (t.map Event.exchange) q) :
    ∃ u, SideBySide (ms.map fun m => ⟨r.deliver topic m⟩) s u s' ∧
      u.map Event.exchange = t.map Event.exchange := by
  have exchanges : ∀ (u : List Event) (f : Event → Nat),
      (u.map fun e => e.withThread (f e)).map Event.exchange = u.map Event.exchange := by
    intro u f
    simp [Function.comp_def, Event.withThread]
  induction ms generalizing s t q with
  | nil =>
    obtain ⟨ht, -⟩ := goes_done_iff.1 hg
    obtain rfl := List.map_eq_nil_iff.1 ht
    cases h
    exact ⟨[], .idle _ _, rfl⟩
  | cons m ms ih =>
    rcases goes_bind_iff.1 hg with ⟨q', hq, -⟩ | ⟨t₁, t₂, o, ht, h₁, h₂⟩
    · exact ⟨_, .cons h hq (.idle _ _), by simpa using exchanges t fun _ => 0⟩
    · obtain ⟨u₁, u₂, rfl, rfl, rfl⟩ := List.map_eq_append_iff.1 ht
      obtain ⟨n, hn, hs'⟩ := history_append_iff.1 h
      have hrest : ∃ q', (r.deliverAll topic ms).Goes (u₂.map Event.exchange) q' := by
        rcases goes_bind_iff.1 h₂ with ⟨q', hq, -⟩ | ⟨t₃, t₄, os, ht, h₃, h₄⟩
        · exact ⟨q', hq⟩
        · obtain ⟨rfl, -⟩ := goes_done_iff.1 h₄
          rw [ht, List.append_nil]
          exact ⟨_, h₃⟩
      obtain ⟨q', hq⟩ := hrest
      obtain ⟨v, hv, hve⟩ := ih hs' hq
      refine ⟨_, .cons hn h₁ hv, ?_⟩
      rw [List.map_append, exchanges, exchanges, hve, List.map_append]

/-- A batch that is handled in a world is a run of its deliveries, between lines of the log. -/
theorem processBatch_sideBySide (env : Surroundings) (w : World) (topic : String)
    (ms : List (Message String)) :
    ∃ run before behind,
      SideBySide (r.deliveries [⟨topic, ms⟩]) w.store run
        (w.run env (r.processBatch topic ms)).2.store ∧
      (w.run env (r.processBatch topic ms)).2.journal =
        w.journal ++ before ++ run.map Event.exchange ++ behind ∧
      ∀ x ∈ before ++ behind, ∃ e, x.request = .log e := by
  obtain ⟨t, q, hg, hl, hq⟩ := @World.run_history _ env 0 w (r.processBatch topic ms)
  obtain ⟨o, rfl⟩ : ∃ o, q = await o := by
    rcases hq with ⟨a, rfl, -⟩ | ⟨rfl, -⟩
    · exact ⟨some a, rfl⟩
    · exact ⟨none, rfl⟩
  obtain ⟨t₁, t₂, t₃, os, ht, hd, -, hlog⟩ := processBatch_goes hg
  obtain ⟨u₁, u, rfl, rfl, hu⟩ := List.map_eq_append_iff.1 ht
  obtain ⟨u₂, u₃, rfl, rfl, rfl⟩ := List.map_eq_append_iff.1 hu
  obtain ⟨m, h₁, h⟩ := history_append_iff.1 hl.history
  obtain ⟨n, h₂, h₃⟩ := history_append_iff.1 h
  have idle : ∀ (v : List Event) (a b : Store), History a v b → (∀ e ∈ v, e ∈ u₁ ++ u₃) →
      b = a := by
    intro v a b hv hm
    refine hv.eq_of_elsewhere fun e he q hq => ?_
    obtain ⟨x, hx⟩ := hlog e.exchange (by
      rw [← List.map_append]
      exact List.mem_map_of_mem (hm e he))
    rw [Event.request, hx] at hq
    simp at hq
  have hm := idle u₁ _ _ h₁ (by simp +contextual)
  have hn := idle u₃ _ _ h₃ (by simp +contextual)
  obtain ⟨run, hrun, hexchange⟩ := deliverAll_sideBySide h₂ hd
  refine ⟨run, u₁.map Event.exchange, u₃.map Event.exchange, ?_, ?_, hlog⟩
  · rw [hn, ← hm, deliveries, jobs_single, List.map_map]
    exact hrun
  · rw [hl.journal, hexchange]
    simp

/-! ## Acknowledgements -/

/-- The event stores `l` as the dead letter of a message, and the store confirms it. -/
structure KeptAs (topic : String) (m : Message String) (e : Event) (l : DeadLetter) : Prop where
  exchange : e.exchange = ⟨.store (.insert l), some (.ok ())⟩
  rows : e.after.rows = e.before.rows ++ [{ letter := l }]
  standsFor : l.StandsFor topic m

theorem keptAs_of_exchange {topic : String} {m : Message String} {f : Failure} {now now' : Int64}
    {id : String} {e : Event} (h : Reacts e.before e.exchange e.after)
    (he : e.exchange = ⟨.store (.insert ((Service.draft (.capture m.body) f (.ofMessage topic m)
      now).letter id now')), some (.ok ())⟩) :
    KeptAs topic m e ((Service.draft (.capture m.body) f (.ofMessage topic m) now).letter id now')
    where
  exchange := he
  rows := by
    rw [he] at h
    obtain ⟨rows, hr, -, -, hs⟩ := Store.insert_eq_ok_iff.1 (Store.answer_eq_ok_iff.1 h.answer_eq).2
    rw [hs, Store.rows_of_letters hr]
    rfl
  standsFor := Service.standsFor_draft topic m f now now' id

section Acknowledged

variable {p : Processor β} {service : Service} {limits : Limits} {batches : List Batch}
  {s s' : Store} {run : List Event} {i : Nat} {m : Message String}

theorem deliveries_goes (h : SideBySide (r.deliveries batches) s run s')
    (hi : (jobs batches)[i]? = some (p.topic, m)) :
    ∃ q, (r.deliver p.topic m).Goes (own i run) q :=
  h.goes i ⟨r.deliver p.topic m⟩ (by simp [deliveries, hi])

/-- What has gone before an acknowledgement: the handler of its message, which has come to an end
that settles it. -/
theorem handled_before_acknowledgement {past rest : List Event} {e : Event}
    (h : SideBySide (r.deliveries batches) s (past ++ e :: rest) s')
    (hi : (jobs batches)[i]? = some (p.topic, m))
    (hr : r.handlers.find? p.topic = some (Handler.handleWith p service limits))
    (hp : p.Asks fun y => y.isAcknowledge = false) (he : e.thread = i)
    (ha : e.request.isAcknowledge = true) :
    e.request = .acknowledge p.topic m ∧
      ∃ handling more d, own i past = handling ++ more ∧ d.settles = true ∧
        (Handler.handleWith p service limits m).Goes handling (done d) := by
  obtain ⟨q, hq⟩ := deliveries_goes h hi
  rw [own_append, own_cons, if_pos he, ← List.singleton_append, ← List.append_assoc] at hq
  obtain ⟨n, hn, -⟩ := goes_append_iff.1 hq
  exact deliver_acknowledge hr hp hn ha

/-- Behind an acknowledgement lie a success of the processor, or the insertion of the message. -/
theorem kept_before_acknowledgement {past rest : List Event} {e : Event}
    (h : SideBySide (r.deliveries batches) s (past ++ e :: rest) s')
    (hi : (jobs batches)[i]? = some (p.topic, m))
    (hr : r.handlers.find? p.topic = some (Handler.handleWith p service limits))
    (hp : p.Asks fun y => y.isAcknowledge = false) (he : e.thread = i)
    (ha : e.request.isAcknowledge = true) :
    e.request = .acknowledge p.topic m ∧
      ((∃ call, call <+: own i past ∧ p.Succeeds m call) ∨
        ∃ k ∈ past, k.thread = i ∧ ∃ l, KeptAs p.topic m k l) := by
  obtain ⟨hreq, handling, more, d, hown, hd, hg⟩ :=
    handled_before_acknowledgement h hi hr hp he ha
  refine ⟨hreq, ?_⟩
  rcases Handler.handleWith_ends hg with ⟨-, hs⟩ | ⟨call, rest', f, rfl, hf, hafter⟩
  · exact .inl ⟨handling, ⟨more, hown.symm⟩, hs⟩
  · obtain ⟨id, now, now', hins⟩ := hafter.eq_stored hd
    have hmem := @List.mem_singleton_self Exchange ⟨.store (.insert ((Service.draft
      (.capture m.body) (Handler.cause f) (.ofMessage p.topic m) now).letter id now')),
      some (.ok ())⟩
    rw [← hins] at hmem
    have hpast := List.mem_append_left more (List.mem_append_right call (mem_only.1 hmem).1)
    rw [← hown] at hpast
    obtain ⟨k, hk, hki, hke⟩ := mem_own.1 hpast
    have hreacts := h.history.reacts k (List.mem_append_left _ hk)
    exact .inr ⟨k, hk, hki, _, keptAs_of_exchange hreacts hke⟩

/-- Behind a failure, an insertion that the store has not confirmed rules an acknowledgement
out. -/
theorem not_acknowledged_of_not_kept {past rest : List Event} {e : Event}
    (h : SideBySide (r.deliveries batches) s (past ++ e :: rest) s')
    (hi : (jobs batches)[i]? = some (p.topic, m))
    (hr : r.handlers.find? p.topic = some (Handler.handleWith p service limits))
    (hp : p.Asks fun y => y.isAcknowledge = false) (he : e.thread = i)
    (ha : e.request.isAcknowledge = true) {call behind : List Exchange} {f : Failure}
    (hcall : own i (past ++ e :: rest) = call ++ behind) (hf : p.Fails limits m call f) :
    ∀ x ∈ behind, x.request.isInsert = true → ∃ l, x = ⟨.store (.insert l), some (.ok ())⟩ := by
  intro x hx hxi
  obtain ⟨-, handling, more, d, hown, hd, hg⟩ :=
    handled_before_acknowledgement h hi hr hp he ha
  have hall : own i (past ++ e :: rest) = handling ++ (more ++ own i (e :: rest)) := by
    rw [own_append, hown, List.append_assoc]
  have hhandling : handling <+: own i (past ++ e :: rest) := ⟨_, hall.symm⟩
  rcases Handler.handleWith_ends hg with ⟨-, hs⟩ | ⟨call', rest', f', rfl, hf', hafter⟩
  · exact absurd hs (hf.not_succeeds ⟨behind, hcall.symm⟩ hhandling)
  · obtain ⟨o, hc, -⟩ := hf
    obtain ⟨o', hc', -⟩ := hf'
    obtain ⟨rfl, -⟩ := hc.unique hc' ⟨behind, hcall.symm⟩
      ((List.prefix_append call' rest').trans hhandling)
    have hbehind : behind = rest' ++ (more ++ own i (e :: rest)) := by
      rw [hall, List.append_assoc] at hcall
      exact (List.append_cancel_left hcall).symm
    obtain ⟨q, hq⟩ := deliveries_goes h hi
    rw [hall] at hq
    obtain ⟨id, now, now', hins⟩ := hafter.eq_stored hd
    have honly : x ∈ only Request.isInsert behind := mem_only.2 ⟨hx, hxi⟩
    rw [hbehind, only_append, deliver_insert hr hg hq, List.append_nil, hins] at honly
    exact ⟨_, List.mem_singleton.1 honly⟩

/-- A message is acknowledged only behind a success of its processor, or behind the insertion of
its dead letter; never if that insertion has failed.  The processor itself does not acknowledge. -/
theorem acknowledged_only_if_kept (h : SideBySide (r.deliveries batches) s run s')
    (hi : (jobs batches)[i]? = some (p.topic, m))
    (hr : r.handlers.find? p.topic = some (Handler.handleWith p service limits))
    (hp : p.Asks fun y => y.isAcknowledge = false) :
    (∀ past e rest, run = past ++ e :: rest → e.thread = i → e.request.isAcknowledge = true →
      e.request = .acknowledge p.topic m ∧
        ((∃ call, call <+: own i past ∧ p.Succeeds m call) ∨
          ∃ k ∈ past, k.thread = i ∧ ∃ l, KeptAs p.topic m k l)) ∧
    ∀ call behind f, own i run = call ++ behind → p.Fails limits m call f →
      (∃ x ∈ behind, x.request.isInsert = true ∧
        ∀ l, x ≠ ⟨.store (.insert l), some (.ok ())⟩) →
      ∀ e ∈ run, e.thread = i → e.request.isAcknowledge = false := by
  constructor
  · rintro past e rest rfl he ha
    exact kept_before_acknowledgement h hi hr hp he ha
  · rintro call behind f hcall hf ⟨x, hx, hxi, hxne⟩ e he hei
    cases ha : e.request.isAcknowledge with
    | false => rfl
    | true =>
      obtain ⟨past, rest, rfl⟩ := List.append_of_mem he
      obtain ⟨l, hl⟩ := not_acknowledged_of_not_kept h hi hr hp hei ha hcall hf x hx hxi
      exact absurd hl (hxne l)

end Acknowledged

/-- A batch of one message whose body is no script, handled while all collaborators accept. -/
theorem acknowledged_only_if_kept_scripted :
    ∃ past e rest s', SideBySide (scripted.deliveries [⟨"t", [.new "m" 1 "no"]⟩]) .fresh
        (past ++ e :: rest) s' ∧ e.request = .acknowledge "t" (.new "m" 1 "no") ∧
      ∃ k ∈ past, ∃ l, KeptAs "t" (.new "m" 1 "no") k l := by
  let w := ((World.new .fresh).run calm (scripted.processBatch "t" [.new "m" 1 "no"])).2
  obtain ⟨run, before, behind, h, hj, hlog⟩ :=
    @processBatch_sideBySide scripted calm (.new .fresh) "t" [.new "m" 1 "no"]
  have hacked : ∃ e ∈ run, e.request.isAcknowledge = true := by
    have hany : w.journal.any (fun x => x.request.isAcknowledge) = true := by decide +kernel
    obtain ⟨x, hx, ha⟩ := List.any_eq_true.1 hany
    have hquiet : x ∉ before ++ behind := by
      intro hm
      obtain ⟨l, hl⟩ := hlog x hm
      rw [hl] at ha
      simp [Request.isAcknowledge] at ha
    have hrun : x ∈ run.map Event.exchange := by
      rw [hj] at hx
      simp only [World.new, List.nil_append, List.mem_append, not_or] at hx hquiet
      grind
    obtain ⟨e, he, rfl⟩ := List.mem_map.1 hrun
    exact ⟨e, he, ha⟩
  obtain ⟨e, he, ha⟩ := hacked
  have hi : e.thread = 0 := by simpa [deliveries, jobs] using h.thread_lt e he
  obtain ⟨past, rest, rfl⟩ := List.append_of_mem he
  have hkept := (acknowledged_only_if_kept h (by rfl) find?_scripted
    (Topic.Script.asks_processor "t")).1 past e rest rfl hi ha
  refine ⟨past, e, rest, _, h, hkept.1, ?_⟩
  rcases hkept.2 with ⟨call, -, hs⟩ | ⟨k, hk, -, hl⟩
  · have hno : (Topic.Script.schema.parse "no").isOk = false := by decide +kernel
    cases hs with
    | ended hb _ =>
      rw [show (Topic.Script.schema.parse "no") = _ from hb] at hno
      simp [Except.isOk, Except.toBool] at hno
  · exact ⟨k, hk, hl⟩

end Router

end DeadLetters
