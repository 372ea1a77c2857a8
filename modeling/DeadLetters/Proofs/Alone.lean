import DeadLetters.Proofs.Decision

/-!
# A call alone

Alone in a world, a call comes to a result.  What matters of its way are its exchanges with the
store and the queues, in order; whatever else it says is said aside.

    p yields a on t, f a yields b on u  →  p.bind f yields b on t ++ u              (Yields.bind)
    what only speaks aside yields on [], and leaves the store as it is             (exists_aside)
    an observed operation yields what its body yields                          (Yields.observed)
-/

namespace DeadLetters

open Program

/-- Whether a request goes to the store or to a queue. -/
def Request.isOutward (r : Request) : Bool := !r.isAside

/-- The store carries out every query. -/
structure Working (env : Surroundings) (s : Store) : Prop where
  accepts : ∀ n q, env.store n q = .accepts
  closed : s.closed = false
  update : s.faults.update = false
  delete : s.faults.delete = false

namespace World

variable {α β : Type} {env : Surroundings} {w w₁ w₂ w₃ : World} {p : Program α} {a : α}
  {t u : List Exchange}

/-- In a world the program comes to a result and leaves another world; these are its exchanges with
the store and the queues. -/
structure Yields (env : Surroundings) (w : World) (p : Program α) (a : α) (t : List Exchange)
    (w' : World) : Prop where
  run : w.run env p = (some a, w')
  outward : only Request.isOutward w'.journal = only Request.isOutward w.journal ++ t

namespace Yields

theorem bind {f : α → Program β} {b : β} (hp : w.Yields env p a t w₁)
    (hf : w₁.Yields env (f a) b u w₂) : w.Yields env (p.bind f) b (t ++ u) w₂ where
  run := (run_bind_of hp.run).trans hf.run
  outward := by rw [hf.outward, hp.outward, List.append_assoc]

/-- What comes behind something said aside. -/
theorem after {f : α → Program β} {b : β} (hp : w.Yields env p a [] w₁)
    (hf : w₁.Yields env (f a) b u w₂) : w.Yields env (p.bind f) b u w₂ :=
  hp.bind hf

/-- What comes before something said aside. -/
theorem before {f : α → Program β} {b : β} (hp : w.Yields env p a t w₁)
    (hf : w₁.Yields env (f a) b [] w₂) : w.Yields env (p.bind f) b t w₂ := by
  have h := hp.bind hf
  rwa [List.append_nil] at h

theorem of_within (hp : w.Yields env p.within (some a) t w₁) : w.Yields env p a t w₁ := by
  refine ⟨?_, hp.outward⟩
  have h := hp.run
  rw [World.run, Program.run_within, Prod.mk.injEq, Option.some.injEq] at h
  exact Prod.ext h.1 h.2

end Yields

theorem yields_done (env : Surroundings) (w : World) (a : α) : w.Yields env (done a) a [] w :=
  ⟨rfl, by rw [List.append_nil]⟩

/-- What only speaks aside comes to a result, and leaves the store as it is. -/
theorem exists_aside (hp : p.Asks fun r => r.isAside = true) (he : p.Ends) (w : World) :
    ∃ a w', w.Yields env p a [] w' ∧ w'.store = w.store := by
  obtain ⟨a, ha⟩ := @exists_result _ env _ he w
  obtain ⟨t, hg, hl⟩ := @run_goes _ env 0 w p
  have haside := hp.request hg
  refine ⟨a, (w.run env p).2, ⟨Prod.ext ha rfl, ?_⟩, ?_⟩
  · have hquiet : only Request.isOutward (t.map Event.exchange) = [] := by
      refine List.filter_eq_nil_iff.2 fun x hx => ?_
      simp [Request.isOutward, haside x hx]
    rw [hl.journal, only_append, hquiet]
  · refine hl.history.eq_of_elsewhere fun e he q hq => ?_
    have h := haside e.exchange (List.mem_map_of_mem he)
    rw [show e.exchange.request = .store q from hq] at h
    cases h

/-- A line of the log, a sample, and whatever else has no result. -/
theorem exists_said {p : Program Unit} (hp : p.Asks fun r => r.isAside = true) (he : p.Ends)
    (w : World) : ∃ w', w.Yields env p () [] w' ∧ w'.store = w.store := by
  obtain ⟨⟨⟩, w', h⟩ := @exists_aside Unit env p hp he w
  exact ⟨w', h⟩

theorem exists_logged (env : Surroundings) (w : World) (e : Log.Event) (a : α) :
    ∃ w', w.Yields env ((log e).bind fun _ => done a) a [] w' ∧ w'.store = w.store := by
  obtain ⟨w', h, hs⟩ := @exists_said env _ (lenient_aside.log e) (ends_log e) w
  exact ⟨w', h.after (yields_done env w' a), hs⟩

/-- The time of day is that of some request. -/
theorem exists_clock (env : Surroundings) (w : World) :
    ∃ n w', w.Yields env clock (env.clock n) [] w' ∧ w'.store = w.store :=
  ⟨w.steps, (w.answer env .clock).2, ⟨rfl, only_append _ _ _⟩, rfl⟩

theorem exists_freshId (env : Surroundings) (w : World) :
    ∃ n w', w.Yields env freshId (env.freshId n) [] w' ∧ w'.store = w.store :=
  ⟨w.steps, (w.answer env .freshId).2, ⟨rfl, only_append _ _ _⟩, rfl⟩

/-- A query that is accepted is answered by the store. -/
theorem exists_query {q : Store.Query} (h : ∀ n, env.store n q = .accepts) (w : World) :
    ∃ w', w.Yields env (query q) (w.store.answer q).1
      [⟨.store q, some (w.store.answer q).1⟩] w' ∧ w'.store = (w.store.answer q).2 := by
  refine ⟨_, ⟨run_query_of (h _), ?_⟩, ?_⟩
  · rw [journal_answer, only_append]
    simp only [answer, react, h]
    rfl
  · simp only [answer, react, h]

/-- A publication comes to the reply of the transport, or is stuck without one. -/
theorem exists_send (env : Surroundings) (topic payload : String) (w : World) :
    ∃ n w', w.Yields env (send topic payload).within (env.send n topic).answer
      [⟨.send topic payload, (env.send n topic).answer⟩] w' ∧ w'.store = w.store := by
  have hrun : w.run env (send topic payload) =
      ((env.send w.steps topic).answer, (w.answer env (.send topic payload)).2) :=
    run_send w topic payload
  refine ⟨w.steps, (w.answer env (.send topic payload)).2, ⟨?_, ?_⟩, rfl⟩
  · rw [run, Program.run_within, show (send topic payload).run (answer env) w = _ from hrun]
  · rw [journal_answer, only_append]
    rfl

/-- Observing an operation adds nothing to what is seen of it. -/
theorem Yields.observed {service : Service} {operation : String}
    {body : Program (Except Failure β)} {r : Except Failure β} {n : Nat}
    (hn : w.Yields env stopwatch n [] w₁) (hb : w₁.Yields env body r t w₂) :
    ∃ w', w.Yields env (service.observed operation body) r t w' ∧ w'.store = w₂.store := by
  obtain ⟨w₃, h₃, hs₃⟩ := @exists_said env _
    (Service.asks_report lenient_aside service operation n r)
    (Service.ends_report service operation n r) w₂
  exact ⟨w₃, hn.after (hb.before (h₃.after (yields_done env w₃ r))), hs₃⟩

theorem exists_stopwatch (env : Surroundings) (w : World) :
    ∃ n w', w.Yields env stopwatch n [] w' ∧ w'.store = w.store :=
  ⟨env.stopwatch w.steps, (w.answer env .stopwatch).2, ⟨rfl, only_append _ _ _⟩, rfl⟩

end World

end DeadLetters
