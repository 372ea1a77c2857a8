import DeadLetters.Proofs.Ledger

/-!
# Programs together

Programs take turns in a world, by any schedule, and then run to their ends.  A turn goes up to the
next request that others can notice, so that schedules give all orders of such requests.

    what each program does is its own way to its result, among the events of all   (together_steps)
    ids are drawn once, if no two requests are given the same        (Steps.drawn_nodup)
    a batch that is handled is its deliveries together, under the empty schedule
                                                                  (Router.run_processBatch)
-/

namespace DeadLetters

open Program

namespace World

variable {α : Type} {env : Surroundings}

/-- Gives programs turns by a schedule, and then runs them to their ends, one after another. -/
def together (env : Surroundings) (schedule : List Nat) (ps : List (Program α)) (w : World) :
    List (Option α) × World :=
  let (ps, w) := Program.interleave (answer env) schedule ps w
  Program.runAll (answer env) ps w

/-- Programs one after another; the first is number `k`. -/
theorem runAll_steps (k : Nat) (ps : List (Program α)) (w : World) :
    ∃ t, Steps env w t (Program.runAll (answer env) ps w).2 ∧
      (∀ e ∈ t, k ≤ e.thread ∧ e.thread < k + ps.length) ∧
      (Program.runAll (answer env) ps w).1.length = ps.length ∧
      ∀ (i : Nat) (p : Program α), ps[i]? = some p →
        ∃ o, (Program.runAll (answer env) ps w).1[i]? = some o ∧
          p.Goes (own (k + i) t) (await o) := by
  induction ps generalizing k w with
  | nil => exact ⟨[], .nil w, by simp, rfl, by simp⟩
  | cons p ps ih =>
    obtain ⟨t, q, hp, ht, hk, hq⟩ := @run_steps α env k w p
    obtain ⟨u, hu, hthread, hlength, hg⟩ := ih (k + 1) (w.run env p).2
    have hresult : p.Goes (t.map Event.exchange) (await (w.run env p).1) := by
      rcases hq with ⟨a, rfl, ha⟩ | ⟨rfl, hn⟩
      · exact ha ▸ hp
      · exact hn ▸ hp
    refine ⟨t ++ u, ht.append hu, ?_, congrArg Nat.succ hlength, fun i p' hi => ?_⟩
    · intro e he
      rw [List.length_cons]
      rcases List.mem_append.1 he with he | he
      · rw [hk e he]
        omega
      · have := hthread e he
        omega
    · rw [own_append]
      cases i with
      | zero =>
        obtain rfl : p = p' := by simpa using hi
        have hnone : own k u = [] := own_eq_nil_of_ne fun e he => by
          have := hthread e he
          omega
        rw [Nat.add_zero, hnone, List.append_nil, own_of_forall hk]
        exact ⟨_, rfl, hresult⟩
      | succ i =>
        have hnumber : k + (i + 1) = k + 1 + i := by omega
        rw [hnumber, own_eq_nil hk (by omega), List.nil_append]
        exact hg i p' (by simpa using hi)

/-- Each program goes its own way to its result. -/
theorem together_steps (schedule : List Nat) (ps : List (Program α)) (w : World) :
    ∃ t, Steps env w t (together env schedule ps w).2 ∧ (∀ e ∈ t, e.thread < ps.length) ∧
      (together env schedule ps w).1.length = ps.length ∧
      ∀ (i : Nat) (p : Program α), ps[i]? = some p →
        ∃ o, (together env schedule ps w).1[i]? = some o ∧ p.Goes (own i t) (await o) := by
  obtain ⟨t, ht, hlt, hlength, hg⟩ := @interleave_steps α env schedule ps w
  obtain ⟨u, hu, hthread, hends, hg'⟩ := @runAll_steps α env 0
    (Program.interleave (answer env) schedule ps w).1
    (Program.interleave (answer env) schedule ps w).2
  rw [hlength] at hthread hends
  refine ⟨t ++ u, ht.append hu, fun e he => ?_, hends, fun i p hi => ?_⟩
  · rcases List.mem_append.1 he with he | he
    · exact hlt e he
    · simpa using (hthread e he).2
  · obtain ⟨q, hq, hpq⟩ := hg i p hi
    obtain ⟨o, ho, hqo⟩ := hg' i q hq
    rw [Nat.zero_add] at hqo
    exact ⟨o, ho, own_append i t u ▸ goes_append_iff.2 ⟨q, hpq, hqo⟩⟩

theorem together_single (p : Program α) (w : World) :
    together env [] [p] w = ([(w.run env p).1], (w.run env p).2) := rfl

namespace Steps

variable {w w' : World} {t : List Event}

/-- A query that is accepted is answered by the store. -/
theorem answered (h : Steps env w t w') {e : Event} (he : e ∈ t) {q : Store.Query}
    (hq : e.request = .store q) (ha : ∀ n, env.store n q = .accepts) :
    e.exchange = ⟨.store q, some (e.before.answer q).1⟩ ∧ e.after = (e.before.answer q).2 := by
  obtain ⟨v, r, hv⟩ := h.exists_world e he
  rw [hv] at hq ⊢
  obtain rfl : r = .store q := hq
  simp [event, answer, react, ha]

/-- The ids that are drawn are those that the surroundings give from now on. -/
theorem drawn (h : Steps env w t w') :
    ∀ id ∈ drawnIds t, ∃ n, w.steps ≤ n ∧ id = env.freshId n := by
  induction h with
  | nil => simp [drawnIds]
  | @cons i w w' r t _ ih =>
    intro id hid
    have later : ∀ id ∈ drawnIds t, ∃ n, w.steps ≤ n ∧ id = env.freshId n := by
      intro id hid
      obtain ⟨n, hn, rfl⟩ := ih id hid
      exact ⟨n, Nat.le_of_succ_le hn, rfl⟩
    cases r with
    | freshId =>
      rcases List.mem_cons.1 hid with rfl | hid
      · exact ⟨w.steps, Nat.le_refl _, rfl⟩
      · exact later id hid
    | _ => exact later id hid

/-- Where ids are fresh, no id is drawn twice. -/
theorem drawn_nodup (h : Steps env w t w') (hinj : Function.Injective env.freshId) :
    (drawnIds t).Nodup := by
  induction h with
  | nil => exact List.nodup_nil
  | @cons i w w' r t h ih =>
    cases r with
    | freshId =>
      refine List.nodup_cons.2 ⟨fun hid => ?_, ih⟩
      obtain ⟨n, hn, hsame⟩ := h.drawn _ hid
      exact Nat.not_succ_le_self _ (hinj hsame ▸ hn)
    | _ => exact ih

end Steps

end World

/-! ## Batches -/

namespace Router

variable {r : Router} {topic : String} {env : Surroundings}

theorem run_deliverAll {ms : List (Message String)} (hr : ∀ m, (r.deliver topic m).Ends)
    (w : World) :
    ∃ os, w.run env (r.deliverAll topic ms) =
        (some os, (World.together env [] (ms.map (r.deliver topic)) w).2) ∧
      (World.together env [] (ms.map (r.deliver topic)) w).1 = os.map some := by
  induction ms generalizing w with
  | nil => exact ⟨[], rfl, rfl⟩
  | cons m ms ih =>
    obtain ⟨o, ho⟩ := @World.exists_result _ env _ (hr m) w
    obtain ⟨os, hrun, hos⟩ := ih (w.run env (r.deliver topic m)).2
    refine ⟨o :: os, ?_, ?_⟩
    · exact (World.run_bind_of (Prod.ext ho rfl)).trans ((World.run_bind_of hrun).trans rfl)
    · exact congrArg₂ List.cons ho hos

/-- A batch of a topic that is handled is its deliveries one after another, and a line of the
log. -/
theorem run_processBatch {ms : List (Message String)} (hr : ∀ m, (r.deliver topic m).Ends)
    (hh : (r.handlers.find? topic).isSome = true) (w : World) :
    ∃ os, (w.run env (r.processBatch topic ms)).1 = some (.ofOutcomes topic os) ∧
      (World.together env [] (ms.map (r.deliver topic)) w).1 = os.map some ∧
      (w.run env (r.processBatch topic ms)).2.store =
        (World.together env [] (ms.map (r.deliver topic)) w).2.store := by
  obtain ⟨os, hrun, hos⟩ := @run_deliverAll r topic env ms hr w
  have hopening : r.opening topic ms = done () := by
    rw [opening, if_neg]
    simpa [Option.isSome_iff_ne_none] using hh
  rw [processBatch_eq, hopening, done_bind, World.run_bind_of hrun]
  exact ⟨os, rfl, hos, rfl⟩

end Router

end DeadLetters
