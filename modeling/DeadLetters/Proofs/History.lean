import DeadLetters.Proofs.Path

/-!
# Histories of a store

Several programs work on one store side by side.  Their exchanges come in any order, and each
exchange is one step: a query is answered, or fails, or gets no answer; a query without answer may
have been carried out all the same.  Whatever is not asked of the store may be answered in any way.

An event tells which program had an exchange, and the store before and behind it.  A history is a
list of events in which each store is the one that the event before has left.

    History s (t ++ u) s'  exactly when  t leads from s to some m, and u from m to s'
                                                                          (history_append_iff)
    World.run and Program.interleave produce histories          (run_history, interleave_history)
-/

namespace DeadLetters

/-- Whether a store can give the answer of an exchange and become another store by it. -/
inductive Reacts : Store → Exchange → Store → Prop
  | answered (s : Store) (q : Store.Query) :
      Reacts s ⟨.store q, some (s.answer q).1⟩ (s.answer q).2
  /-- Not carried out: it fails, or is never answered. -/
  | refused (s : Store) (q : Store.Query) (o : Option (Except Store.Error q.Answer))
      (h : ∀ a, o ≠ some (.ok a)) : Reacts s ⟨.store q, o⟩ s
  /-- Carried out, but nobody learns of it. -/
  | lost (s : Store) (q : Store.Query) (o : Option (Except Store.Error q.Answer))
      (h : ∀ a, o ≠ some (.ok a)) : Reacts s ⟨.store q, o⟩ (s.answer q).2
  | elsewhere (s : Store) (x : Exchange) (h : ∀ q, x.request ≠ .store q) : Reacts s x s

/-- An exchange of one of several programs. -/
structure Event where
  /-- The number of the program. -/
  thread : Nat
  exchange : Exchange
  before : Store
  after : Store

namespace Event

abbrev request (e : Event) : Request := e.exchange.request

end Event

/-- The events lead from one store to another. -/
inductive History : Store → List Event → Store → Prop
  | nil (s : Store) : History s [] s
  | cons {e : Event} {t : List Event} {s : Store} (h : Reacts e.before e.exchange e.after)
      (ht : History e.after t s) : History e.before (e :: t) s

def own (i : Nat) (t : List Event) : List Exchange :=
  (t.filter fun e => e.thread == i).map Event.exchange

/-- A program with a result of any type. -/
structure Thread where
  {Result : Type}
  program : Program Result

/-- The events are those of the programs, each of which goes its own way through them. -/
structure SideBySide (threads : List Thread) (s : Store) (t : List Event) (s' : Store) : Prop where
  history : History s t s'
  thread_lt : ∀ e ∈ t, e.thread < threads.length
  goes : ∀ (i : Nat) (th : Thread), threads[i]? = some th → ∃ q, th.program.Goes (own i t) q

/-! ## Lemmas -/

theorem history_append_iff {s s' : Store} {t u : List Event} :
    History s (t ++ u) s' ↔ ∃ m, History s t m ∧ History m u s' := by
  constructor
  · intro h
    induction t generalizing s with
    | nil => exact ⟨s, .nil s, h⟩
    | cons e t ih =>
      cases h with
      | cons he h =>
        obtain ⟨m, hm, hu⟩ := ih h
        exact ⟨m, .cons he hm, hu⟩
  · rintro ⟨m, hm, hu⟩
    induction hm with
    | nil => exact hu
    | cons he _ ih => exact .cons he (ih hu)

/-- A history at one of its events. -/
theorem History.at {s s' : Store} {t u : List Event} {e : Event} (h : History s (t ++ e :: u) s') :
    History s t e.before ∧ Reacts e.before e.exchange e.after ∧ History e.after u s' := by
  obtain ⟨m, ht, hu⟩ := history_append_iff.1 h
  cases hu with
  | cons he hu => exact ⟨ht, he, hu⟩

theorem History.reacts {s s' : Store} {t : List Event} (h : History s t s') :
    ∀ e ∈ t, Reacts e.before e.exchange e.after := by
  intro e he
  obtain ⟨u, v, rfl⟩ := List.append_of_mem he
  exact h.at.2.1

/-- What holds at first and is kept by each event holds in the end. -/
theorem History.along {P : List Event → Store → Prop} {s s' : Store} {t : List Event}
    (h : History s t s') (init : P [] s)
    (step : ∀ past e rest, t = past ++ e :: rest → P past e.before →
      Reacts e.before e.exchange e.after → P (past ++ [e]) e.after) : P t s' := by
  suffices hs : ∀ past rest m, t = past ++ rest → P past m → History m rest s' → P t s' from
    hs [] t s rfl init h
  intro past rest
  induction rest generalizing past with
  | nil =>
    intro m ht hp hm
    cases hm
    simpa [ht] using hp
  | cons e rest ih =>
    intro m ht hp hm
    cases hm with
    | cons he hm => exact ih (past ++ [e]) _ (by simp [ht]) (step past e rest ht hp he) hm

/-- Only queries change a store. -/
theorem Reacts.eq_of_elsewhere {s s' : Store} {x : Exchange} (h : Reacts s x s')
    (hx : ∀ q, x.request ≠ .store q) : s' = s := by
  cases h with
  | answered q => exact absurd rfl (hx q)
  | lost q => exact absurd rfl (hx q)
  | refused | elsewhere => rfl

theorem History.eq_of_elsewhere {s s' : Store} {t : List Event} (h : History s t s')
    (ht : ∀ e ∈ t, ∀ q, e.request ≠ .store q) : s' = s := by
  induction h with
  | nil => rfl
  | cons he _ ih =>
    rw [ih fun e hm => ht e (List.mem_cons_of_mem _ hm)]
    exact he.eq_of_elsewhere (ht _ List.mem_cons_self)

@[simp] theorem own_nil (i : Nat) : own i [] = [] := rfl

theorem own_append (i : Nat) (t u : List Event) : own i (t ++ u) = own i t ++ own i u := by
  simp [own]

theorem own_cons (i : Nat) (e : Event) (t : List Event) :
    own i (e :: t) = if e.thread = i then e.exchange :: own i t else own i t := by
  by_cases h : e.thread = i <;> simp [own, h]

theorem mem_own {i : Nat} {t : List Event} {x : Exchange} :
    x ∈ own i t ↔ ∃ e ∈ t, e.thread = i ∧ e.exchange = x := by
  simp [own, and_assoc]

theorem mem_own_of_mem {t : List Event} {e : Event} (h : e ∈ t) : e.exchange ∈ own e.thread t :=
  mem_own.2 ⟨e, h, rfl, rfl⟩

/-- An exchange of one program is an event among those of all. -/
theorem exists_of_own_eq {i : Nat} {t : List Event} {b c : List Exchange} {x : Exchange}
    (h : own i t = b ++ x :: c) :
    ∃ u e v, t = u ++ e :: v ∧ e.thread = i ∧ e.exchange = x ∧ own i u = b ∧ own i v = c := by
  induction t generalizing b with
  | nil => simp at h
  | cons e t ih =>
    rw [own_cons] at h
    split at h
    · next hi =>
      cases b with
      | nil =>
        obtain ⟨hx, hc⟩ := List.cons.inj h
        exact ⟨[], e, t, rfl, hi, hx, rfl, hc⟩
      | cons y b =>
        obtain ⟨hy, hb⟩ := List.cons.inj h
        obtain ⟨u, e', v, rfl, he, hx, hu, hv⟩ := ih hb
        exact ⟨e :: u, e', v, rfl, he, hx, by rw [own_cons, if_pos hi, hy, hu], hv⟩
    · next hi =>
      obtain ⟨u, e', v, rfl, he, hx, hu, hv⟩ := ih h
      exact ⟨e :: u, e', v, rfl, he, hx, by rw [own_cons, if_neg hi, hu], hv⟩

theorem own_of_forall {i : Nat} {t : List Event} (h : ∀ e ∈ t, e.thread = i) :
    own i t = t.map Event.exchange := by
  rw [own, List.filter_eq_self.2 fun e he => by simp [h e he]]

theorem own_eq_nil_of_ne {i : Nat} {t : List Event} (h : ∀ e ∈ t, e.thread ≠ i) :
    own i t = [] := by
  rw [own, List.filter_eq_nil_iff.2 fun e he => by simp [h e he], List.map_nil]

theorem own_eq_nil {i j : Nat} {t : List Event} (h : ∀ e ∈ t, e.thread = i) (hj : j ≠ i) :
    own j t = [] :=
  own_eq_nil_of_ne fun e he => h e he ▸ Ne.symm hj

/-- The first exchange of a kind that a program makes is an event, and its others of the kind come
behind it. -/
theorem exists_of_only_own_eq {k : Request → Bool} {i : Nat} {t : List Event} {x : Exchange}
    {xs : List Exchange} (h : only k (own i t) = x :: xs) :
    ∃ u e v, t = u ++ e :: v ∧ e.thread = i ∧ e.exchange = x ∧ only k (own i v) = xs := by
  obtain ⟨b, c, ht, -, -, rfl⟩ := List.filter_eq_cons_iff.1 h
  obtain ⟨u, e, v, rfl, hi, hx, -, rfl⟩ := exists_of_own_eq ht
  exact ⟨u, e, v, rfl, hi, hx, rfl⟩

/-- The only exchange of a kind is an event between others of other kinds. -/
theorem exists_of_only_eq {k : Request → Bool} {t : List Event} {x : Exchange}
    (h : only k (t.map Event.exchange) = [x]) :
    ∃ u e v, t = u ++ e :: v ∧ e.exchange = x ∧ only k (u.map Event.exchange) = [] ∧
      only k (v.map Event.exchange) = [] := by
  obtain ⟨b, c, ht, hb, -, hc⟩ := List.filter_eq_cons_iff.1 h
  obtain ⟨u, v', rfl, rfl, hv⟩ := List.map_eq_append_iff.1 ht
  obtain ⟨e, v, rfl, rfl, rfl⟩ := List.map_eq_cons_iff.1 hv
  exact ⟨u, e, v, rfl, rfl, List.filter_eq_nil_iff.2 hb, hc⟩

/-- Each event is a request of its program. -/
theorem SideBySide.exists_thread {threads : List Thread} {s s' : Store} {t : List Event}
    (h : SideBySide threads s t s') {e : Event} (he : e ∈ t) :
    ∃ th, threads[e.thread]? = some th ∧
      ∀ ok : Request → Prop, th.program.Asks ok → ok e.request := by
  obtain ⟨th, hth⟩ : ∃ th, threads[e.thread]? = some th :=
    ⟨_, List.getElem?_eq_getElem (h.thread_lt e he)⟩
  obtain ⟨q, hq⟩ := h.goes _ th hth
  exact ⟨th, hth, fun ok hok => hok.request hq _ (mem_own_of_mem he)⟩

/-! One program, and then others. -/

/-- The same event, of another program. -/
def Event.withThread (e : Event) (i : Nat) : Event := { e with thread := i }

theorem History.withThread {s s' : Store} {t : List Event} (h : History s t s')
    (f : Event → Nat) : History s (t.map fun e => e.withThread (f e)) s' := by
  induction h with
  | nil s => exact .nil s
  | @cons e t s he _ ih => exact .cons (e := e.withThread (f e)) he ih

theorem own_map_withThread_succ (i : Nat) (t : List Event) :
    own (i + 1) (t.map fun e => e.withThread (e.thread + 1)) = own i t := by
  induction t with
  | nil => rfl
  | cons e t ih =>
    rw [List.map_cons, own_cons, own_cons, ih]
    simp [Event.withThread]

/-- Programs that have not begun. -/
theorem SideBySide.idle (threads : List Thread) (s : Store) : SideBySide threads s [] s :=
  ⟨.nil s, by simp, fun _ th _ => ⟨th.program, .rest _⟩⟩

theorem SideBySide.cons {α : Type} {p q : Program α} {threads : List Thread} {s m s' : Store}
    {t u : List Event} (ht : History s t m) (hp : p.Goes (t.map Event.exchange) q)
    (hu : SideBySide threads m u s') :
    SideBySide (⟨p⟩ :: threads) s
      ((t.map fun e => e.withThread 0) ++ u.map fun e => e.withThread (e.thread + 1)) s' := by
  have hfirst : ∀ e ∈ t.map fun e => e.withThread 0, e.thread = 0 := by
    intro e he
    obtain ⟨e', -, rfl⟩ := List.mem_map.1 he
    rfl
  have hothers : ∀ e ∈ u.map fun e => e.withThread (e.thread + 1), e.thread ≠ 0 := by
    intro e he
    obtain ⟨e', -, rfl⟩ := List.mem_map.1 he
    exact Nat.succ_ne_zero _
  refine ⟨history_append_iff.2 ⟨m, ht.withThread _, hu.history.withThread _⟩, ?_, ?_⟩
  · intro e he
    rcases List.mem_append.1 he with he | he
    · rw [hfirst e he]
      exact Nat.succ_pos _
    · obtain ⟨e', he', rfl⟩ := List.mem_map.1 he
      exact Nat.succ_lt_succ (hu.thread_lt e' he')
  · intro i th hi
    rw [own_append]
    cases i with
    | zero =>
      obtain rfl : ⟨p⟩ = th := by simpa using hi
      have hnone : own 0 (u.map fun e => e.withThread (e.thread + 1)) = [] := by
        simpa [own] using hothers
      refine ⟨q, ?_⟩
      rw [own_of_forall hfirst, hnone, List.append_nil, List.map_map]
      exact hp
    | succ i =>
      rw [own_eq_nil hfirst (Nat.succ_ne_zero i), List.nil_append, own_map_withThread_succ]
      exact hu.goes i th (by simpa using hi)

/-! ## Runs of a world -/

namespace World

variable {α : Type} {env : Surroundings}

/-- The event in which a world answers a request. -/
def event (env : Surroundings) (i : Nat) (w : World) (r : Request) : Event :=
  ⟨i, ⟨r, (w.answer env r).1⟩, w.store, (w.answer env r).2.store⟩

theorem reacts_event (i : Nat) (w : World) (r : Request) :
    Reacts (w.event env i r).before (w.event env i r).exchange (w.event env i r).after := by
  cases r with
  | store q =>
    simp only [event, answer, react]
    split
    · exact .answered _ _
    · exact .refused _ _ _ nofun
    · exact .refused _ _ _ nofun
  | _ => exact .elsewhere _ _ fun q => by simp [event]

/-- Worlds that follow one another: in each event some program makes a request, and the world
answers it. -/
inductive Steps (env : Surroundings) : World → List Event → World → Prop
  | nil (w : World) : Steps env w [] w
  | cons (i : Nat) {w w' : World} {r : Request} {t : List Event}
      (h : Steps env (w.answer env r).2 t w') : Steps env w (event env i w r :: t) w'

namespace Steps

variable {w m w' : World} {t u : List Event}

theorem append (ht : Steps env w t m) (hu : Steps env m u w') : Steps env w (t ++ u) w' := by
  induction ht with
  | nil => exact hu
  | cons i _ ih => exact .cons i (ih hu)

theorem history (h : Steps env w t w') : History w.store t w'.store := by
  induction h with
  | nil w => exact .nil _
  | cons i _ ih => exact .cons (reacts_event i _ _) ih

theorem journal (h : Steps env w t w') : w'.journal = w.journal ++ t.map Event.exchange := by
  induction h with
  | nil w => simp
  | cons i _ ih =>
    rw [ih, journal_answer]
    simp [event]

theorem exists_world (h : Steps env w t w') :
    ∀ e ∈ t, ∃ v r, e = event env e.thread v r := by
  induction h with
  | nil => simp
  | cons i _ ih =>
    intro e he
    rcases List.mem_cons.1 he with rfl | he
    · exact ⟨_, _, rfl⟩
    · exact ih e he

end Steps

/-- The events of program `i` lead from a world to another, and each is the world's doing. -/
structure Leads (env : Surroundings) (i : Nat) (w : World) (t : List Event) (w' : World) :
    Prop where
  history : History w.store t w'.store
  journal : w'.journal = w.journal ++ t.map Event.exchange
  events : ∀ e ∈ t, ∃ v r, e = event env i v r

theorem Steps.leads {i : Nat} {w w' : World} {t : List Event} (h : Steps env w t w')
    (hi : ∀ e ∈ t, e.thread = i) : Leads env i w t w' where
  history := h.history
  journal := h.journal
  events := fun e he => hi e he ▸ h.exists_world e he

/-- A program that is run to its end goes its way there. -/
theorem run_steps (i : Nat) (w : World) (p : Program α) :
    ∃ t q, p.Goes (t.map Event.exchange) q ∧ Steps env w t (w.run env p).2 ∧
      (∀ e ∈ t, e.thread = i) ∧
      ((∃ a, q = .done a ∧ (w.run env p).1 = some a) ∨ q = .stuck ∧ (w.run env p).1 = none) := by
  induction p generalizing w with
  | done a => exact ⟨[], _, .rest _, .nil w, by simp, .inl ⟨a, rfl, rfl⟩⟩
  | stuck => exact ⟨[], _, .rest _, .nil w, by simp, .inr ⟨rfl, rfl⟩⟩
  | ask r next ih =>
    obtain ⟨t, q, hp, ht, hi, hq⟩ := ih _ (w.answer env r).2
    exact ⟨event env i w r :: t, q, .ask hp, .cons i ht, List.forall_mem_cons.2 ⟨rfl, hi⟩, hq⟩

theorem run_history (i : Nat) (w : World) (p : Program α) :
    ∃ t q, p.Goes (t.map Event.exchange) q ∧ Leads env i w t (w.run env p).2 ∧
      ((∃ a, q = .done a ∧ (w.run env p).1 = some a) ∨ q = .stuck ∧ (w.run env p).1 = none) := by
  obtain ⟨t, q, hp, ht, hi, hq⟩ := @run_steps α env i w p
  exact ⟨t, q, hp, ht.leads hi, hq⟩

/-- The result of a run, if there is one, is what its program comes to. -/
theorem run_goes (i : Nat) (w : World) (p : Program α) :
    ∃ t, p.Goes (t.map Event.exchange) (.await (w.run env p).1) ∧
      Leads env i w t (w.run env p).2 := by
  obtain ⟨t, q, hp, hl, ⟨a, rfl, ha⟩ | ⟨rfl, hn⟩⟩ := @run_history _ env i w p
  · exact ⟨t, ha ▸ hp, hl⟩
  · exact ⟨t, hn ▸ hp, hl⟩

theorem run_bind_of {β : Type} {p : Program α} {f : α → Program β} {w w' : World} {a : α}
    (h : w.run env p = (some a, w')) : w.run env (p.bind f) = w'.run env (f a) := by
  rw [run, Program.run_bind, show p.run (answer env) w = (some a, w') from h]
  rfl

theorem run_bind_of_none {β : Type} {p : Program α} {f : α → Program β} {w w' : World}
    (h : w.run env p = (none, w')) : w.run env (p.bind f) = (none, w') := by
  rw [run, Program.run_bind, show p.run (answer env) w = (none, w') from h]

/-- A program that comes to an end does so in limited time too. -/
theorem run_within_of {p : Program α} {w w' : World} {a : α} (h : w.run env p = (some a, w')) :
    w.run env p.within = (some (some a), w') := by
  rw [run, Program.run_within, show p.run (answer env) w = (some a, w') from h]

/-- A query comes to its answer, if it is answered. -/
theorem run_query (w : World) (q : Store.Query) :
    w.run env (.query q) = w.answer env (.store q) := by
  show (Program.await (w.answer env (.store q)).1).run (answer env) _ = _
  generalize w.answer env (.store q) = x
  obtain ⟨_ | a, w'⟩ := x <;> rfl

theorem run_send (w : World) (topic payload : String) :
    w.run env (.send topic payload) = w.answer env (.send topic payload) := by
  show (Program.await (w.answer env (.send topic payload)).1).run (answer env) _ = _
  generalize w.answer env (.send topic payload) = x
  obtain ⟨_ | a, w'⟩ := x <;> rfl

/-- A query that is accepted is answered by the store. -/
theorem run_query_of {q : Store.Query} {w : World} (h : env.store w.steps q = .accepts) :
    w.run env (.query q) =
      (some (w.store.answer q).1, (w.answer env (.store q)).2) := by
  rw [run_query]
  refine Prod.ext ?_ rfl
  simp only [answer, react, h]

/-- A program that never gets stuck has a result. -/
theorem exists_result {p : Program α} (hp : p.Ends) (w : World) :
    ∃ a, (w.run env p).1 = some a := by
  obtain ⟨t, hg, -⟩ := @run_goes _ env 0 w p
  cases h : (w.run env p).1 with
  | some a => exact ⟨a, rfl⟩
  | none =>
    rw [h] at hg
    exact absurd hg hp.not_stuck

theorem turn_steps (i : Nat) (w : World) (p : Program α) :
    ∃ t, p.Goes (t.map Event.exchange) (p.turn (answer env) w).1 ∧
      Steps env w t (p.turn (answer env) w).2 ∧ ∀ e ∈ t, e.thread = i := by
  induction p generalizing w with
  | done a => exact ⟨[], .rest _, .nil w, by simp⟩
  | stuck => exact ⟨[], .rest _, .nil w, by simp⟩
  | ask r next ih =>
    simp only [Program.turn]
    split
    · exact ⟨[event env i w r], .ask (.rest _), .cons i (.nil _), by simp [event]⟩
    · obtain ⟨t, hp, ht, hi⟩ := ih _ (w.answer env r).2
      exact ⟨event env i w r :: t, .ask hp, .cons i ht, List.forall_mem_cons.2 ⟨rfl, hi⟩⟩

/-- Programs that take turns go their ways side by side. -/
theorem interleave_steps (schedule : List Nat) (ps : List (Program α)) (w : World) :
    ∃ t, Steps env w t (Program.interleave (answer env) schedule ps w).2 ∧
      (∀ e ∈ t, e.thread < ps.length) ∧
      (Program.interleave (answer env) schedule ps w).1.length = ps.length ∧
      ∀ (i : Nat) (p : Program α), ps[i]? = some p →
        ∃ q, (Program.interleave (answer env) schedule ps w).1[i]? = some q ∧
          p.Goes (own i t) q := by
  induction schedule generalizing ps w with
  | nil => exact ⟨[], .nil w, by simp, rfl, fun i p hp => ⟨p, hp, .rest p⟩⟩
  | cons j schedule ih =>
    simp only [Program.interleave, Program.turnAt]
    cases hj : ps[j]? with
    | none => exact ih ps w
    | some p =>
      obtain ⟨t, hp, ht, hthread⟩ := @turn_steps α env j w p
      obtain ⟨u, hu, hlt, hlength, hg⟩ :=
        ih (ps.set j (p.turn (answer env) w).1) (p.turn (answer env) w).2
      rw [List.length_set] at hlt hlength
      have hjlt : j < ps.length := (List.getElem?_eq_some_iff.1 hj).1
      refine ⟨t ++ u, ht.append hu, ?_, hlength, fun i p' hi => ?_⟩
      · intro e he
        rcases List.mem_append.1 he with he | he
        · exact hthread e he ▸ hjlt
        · exact hlt e he
      · rw [own_append]
        by_cases hij : i = j
        · subst hij
          obtain rfl : p = p' := by simpa [hj] using hi
          obtain ⟨q, hq, hpq⟩ := hg i (p.turn (answer env) w).1 (by simp [hjlt])
          rw [own_of_forall hthread]
          exact ⟨q, hq, Program.goes_append_iff.2 ⟨_, hp, hpq⟩⟩
        · rw [own_eq_nil hthread hij, List.nil_append]
          exact hg i p' (by rw [List.getElem?_set_ne (Ne.symm hij)]; exact hi)

theorem interleave_history (schedule : List Nat) (ps : List (Program α)) (w : World) :
    ∃ t, SideBySide (ps.map fun p => ⟨p⟩) w.store t
        (Program.interleave (answer env) schedule ps w).2.store ∧
      (Program.interleave (answer env) schedule ps w).2.journal =
        w.journal ++ t.map Event.exchange ∧
      ∀ (i : Nat) (p : Program α), ps[i]? = some p →
        ∃ q, (Program.interleave (answer env) schedule ps w).1[i]? = some q ∧
          p.Goes (own i t) q := by
  obtain ⟨t, ht, hlt, -, hg⟩ := @interleave_steps α env schedule ps w
  refine ⟨t, ⟨ht.history, by simpa using hlt, fun i th hi => ?_⟩, ht.journal, hg⟩
  obtain ⟨p, hp, rfl⟩ : ∃ p, ps[i]? = some p ∧ ⟨p⟩ = th := by simpa using hi
  obtain ⟨q, -, hq⟩ := hg i p hp
  exact ⟨q, hq⟩

end World

end DeadLetters
