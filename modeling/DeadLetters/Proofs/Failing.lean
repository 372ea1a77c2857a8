import DeadLetters.Proofs.Lifecycle
import DeadLetters.Proofs.Replaying
import DeadLetters.Proofs.Statistics

/-!
# Calls that fail

A call of the service asks the store a few queries, one after another, and any of them may fail; a
query that fails has not been carried out.  Run alone, a call that fails has changed nothing, except
that it may have closed the one dead letter whose payload it could not read.

    what a call has asked leads from the store before to the store behind      (Leads.served)
    closing fails without a trace, or leaves the dead letter closed       (Closing.unchanged,
      Closing.terminal)
    what each call comes to                                               (Call.settles_of_goes)

A call that closes a dead letter and succeeds leaves it closed.
-/

namespace DeadLetters

open Program Store

/-! ## Queries, one after another -/

/-- Queries, each of which is answered by the store that the last one has left, or fails. -/
inductive Served : Store → List Exchange → Store → Prop
  | nil (s : Store) : Served s [] s
  | answered (s : Store) (q : Query) {t : List Exchange} {s' : Store}
      (h : Served (s.answer q).2 t s') : Served s (⟨.store q, some (s.answer q).1⟩ :: t) s'
  | failed {s : Store} {q : Query} {o : Option (Except Store.Error q.Answer)} {t : List Exchange}
      {s' : Store} (ho : ∀ a, o ≠ some (.ok a)) (h : Served s t s') :
      Served s (⟨.store q, o⟩ :: t) s'

namespace Served

variable {s s' : Store} {q : Query} {o : Option (Except Store.Error q.Answer)}
  {t : List Exchange}

theorem eq_of_nil (h : Served s [] s') : s' = s := by
  cases h
  rfl

theorem cons_iff : Served s (⟨.store q, o⟩ :: t) s' ↔
    o = some (s.answer q).1 ∧ Served (s.answer q).2 t s' ∨
      (∀ a, o ≠ some (.ok a)) ∧ Served s t s' := by
  constructor
  · intro h
    cases h with
    | answered _ _ h => exact .inl ⟨rfl, h⟩
    | failed ho h => exact .inr ⟨ho, h⟩
  · rintro (⟨rfl, h⟩ | ⟨ho, h⟩)
    · exact .answered s q h
    · exact .failed ho h

/-- A query with a result has been carried out. -/
theorem of_ok {a : q.Answer} (h : Served s (⟨.store q, some (.ok a)⟩ :: t) s') :
    ∃ m, s.answer q = (.ok a, m) ∧ Served m t s' := by
  rcases cons_iff.1 h with ⟨ha, h⟩ | ⟨hn, -⟩
  · exact ⟨_, Prod.ext (Option.some.inj ha).symm rfl, h⟩
  · exact absurd rfl (hn a)

/-- A query that fails leaves no trace. -/
theorem of_failed (ho : ∀ a, o ≠ some (.ok a)) (h : Served s (⟨.store q, o⟩ :: t) s') :
    Served s t s' := by
  rcases cons_iff.1 h with ⟨rfl, hrest⟩ | ⟨-, hrest⟩
  · cases ha : (s.answer q).1 with
    | ok a => exact absurd (congrArg some ha) (ho a)
    | error e => rwa [answer_of_error ha] at hrest
  · exact hrest

/-- Neither does a query that only reads. -/
theorem of_read (hq : q.changes = false) (h : Served s (⟨.store q, o⟩ :: t) s') :
    Served s t s' := by
  rcases cons_iff.1 h with ⟨-, h⟩ | ⟨-, h⟩
  · rwa [s.answer_snd_of_not_changes hq] at h
  · exact h

theorem of_read_ok {a : q.Answer} (hq : q.changes = false)
    (h : Served s (⟨.store q, some (.ok a)⟩ :: t) s') :
    s.answer q = (.ok a, s) ∧ Served s t s' := by
  obtain ⟨m, hm, ht⟩ := h.of_ok
  have hsame := s.answer_snd_of_not_changes hq
  rw [hm] at hsame
  subst hsame
  exact ⟨hm, ht⟩

theorem eq_of_reads (h : Served s t s')
    (ht : ∀ x ∈ t, ∀ q, x.request = .store q → q.changes = false) : s' = s := by
  induction h with
  | nil => rfl
  | answered s q _ ih =>
    rw [ih fun x hx => ht x (List.mem_cons_of_mem _ hx)]
    exact s.answer_snd_of_not_changes (ht _ List.mem_cons_self q rfl)
  | failed _ _ ih => exact ih fun x hx => ht x (List.mem_cons_of_mem _ hx)

end Served

namespace World

variable {env : Surroundings}

theorem react_store_cases (env : Surroundings) (w : World) (q : Query) :
    w.react env (.store q) = (some (w.store.answer q).1, (w.store.answer q).2) ∨
      ∃ o, (∀ a, o ≠ some (.ok a)) ∧ w.react env (.store q) = (o, w.store) := by
  simp only [react]
  split
  · exact .inl rfl
  · exact .inr ⟨_, by simp, rfl⟩
  · exact .inr ⟨_, by simp, rfl⟩

/-- What a program asks of the store, a world answers as queries one after another. -/
theorem Leads.served {i : Nat} {w w' : World} {t : List Event} (h : Leads env i w t w') :
    Served w.store (only Request.isQuery (t.map Event.exchange)) w'.store := by
  have hworld := h.events
  have hhistory := h.history
  generalize w.store = s, w'.store = s' at hhistory
  clear h
  induction hhistory with
  | nil => exact .nil _
  | @cons e t s' _ _ ih =>
    have hrest := ih fun e he => hworld e (List.mem_cons_of_mem _ he)
    obtain ⟨v, r, rfl⟩ := hworld e List.mem_cons_self
    cases r with
    | store q =>
      have hafter : Served (v.react env (.store q)).2
          (only Request.isQuery (t.map Event.exchange)) s' := hrest
      suffices hs : Served v.store (⟨.store q, (v.react env (.store q)).1⟩ ::
        only Request.isQuery (t.map Event.exchange)) s' from hs
      rcases v.react_store_cases env q with hok | ⟨o, ho, hfail⟩
      · rw [hok] at hafter ⊢
        exact .answered v.store q hafter
      · rw [hfail] at hafter ⊢
        exact .failed ho hafter
    | _ => exact hrest

end World

/-! ## What closing leaves -/

/-- One pending dead letter has been closed with a result, and the others are as before. -/
def ClosesOne (id result : String) (rows rows' : List Row) : Prop :=
  ∃ before x after time, rows = before ++ x :: after ∧ x.letter.id = id ∧ x.letter.Pending ∧
    rows' = before ++ { x with letter := x.letter.close result time } :: after

def HasTerminal (id : String) (rows : List Row) : Prop :=
  ∃ x ∈ rows, x.letter.id = id ∧ x.letter.Terminal

namespace Store

variable {s m : Store} {id result : String} {time : Int64} {n : Nat} {rows : List Row}

/-- Where nothing is pending with the id, an update changes nothing. -/
theorem eq_of_answer_mark_zero (h : s.answer (.mark id result time) = (.ok (0 : Nat), m)) :
    m = s ∧ ∀ x ∈ s.rows, isPending id x = false := by
  obtain ⟨rows, hrows, hn, -, hm⟩ := mark_eq_ok_iff.1 (answer_eq_ok_iff.1 h).2
  have hnone : ∀ x ∈ rows, isPending id x = false := by
    simpa using List.countP_eq_zero.1 hn.symm
  have hsame : rows.map (Row.close id result time) = rows := by
    rw [List.map_congr_left fun x hx => Row.close_of_not_isPending (hnone x hx), List.map_id']
  rw [rows_of_letters hrows]
  refine ⟨?_, hnone⟩
  rw [hm, hsame, ← hrows]

/-- Since ids are unique, an update closes one dead letter only. -/
theorem closesOne_map (ho : Orderly rows) {x : Row} (hx : x ∈ rows) (hp : isPending id x = true) :
    ClosesOne id result rows (rows.map (Row.close id result time)) := by
  obtain ⟨hid, hr⟩ := Row.isPending_iff.1 hp
  obtain ⟨before, after, rfl⟩ := List.append_of_mem hx
  have hids := ho.nodup
  rw [List.map_append, List.map_cons, List.nodup_append, List.nodup_cons] at hids
  obtain ⟨-, ⟨hafter, -⟩, hbefore⟩ := hids
  have kept : ∀ ys : List Row, (∀ y ∈ ys, y.letter.id ≠ id) →
      ys.map (Row.close id result time) = ys := by
    intro ys hys
    have hsame : ∀ y ∈ ys, y.close id result time = y := fun y hy =>
      Row.close_of_not_isPending (by simp [isPending, hasId, hys y hy])
    rw [List.map_congr_left hsame, List.map_id']
  have hpending : x.letter.Pending := by
    rcases ho.settled x hx with h | h
    · exact h
    · rw [h.reprocessed] at hr
      cases hr
  refine ⟨before, x, after, time, rfl, hid, hpending, ?_⟩
  rw [List.map_append, List.map_cons, Row.close_of_isPending hp, kept before, kept after]
  · rintro y hy rfl
    exact hafter (hid ▸ List.mem_map_of_mem (f := fun x : Row => x.letter.id) hy)
  · intro y hy hyid
    exact hbefore _ (List.mem_map_of_mem hy) _ List.mem_cons_self (hyid.trans hid.symm)

end Store

namespace Service

variable {s s' : Store} {id result : String} {u : List Exchange} {f : Failure}

/-- Storing that fails has inserted nothing. -/
theorem Inserts.unchanged {d : Draft} (h : Inserts d u (some (.error f))) (hs : Served s u s') :
    s' = s := by
  cases h with
  | rejected => exact hs.eq_of_nil
  | refused => exact (hs.of_failed (by simp)).eq_of_nil

/-- Closing that fails has changed nothing. -/
theorem Closing.unchanged (h : Closing id result u (.error f)) (hs : Served s u s') : s' = s := by
  cases h with
  | failed => exact (hs.of_failed (by simp)).eq_of_nil
  | beaten now hf =>
    obtain ⟨m, hm, hrest⟩ := hs.of_ok
    rw [(eq_of_answer_mark_zero hm).1] at hrest
    cases hf with
    | failed | missing => exact (hrest.of_read rfl).eq_of_nil

/-- Closing that succeeds leaves the dead letter closed, whoever has closed it. -/
theorem Closing.terminal {c : String × Bool} (h : Closing id result u (.ok c))
    (hs : Served s u s') (ho : Orderly s.rows) : HasTerminal id s'.rows := by
  cases h with
  | closed now n hn =>
    obtain ⟨m, hm, hs⟩ := hs.of_ok
    obtain rfl := hs.eq_of_nil
    obtain ⟨rfl, hrows⟩ := rows_of_answer_mark hm
    obtain ⟨x, hx, hp⟩ := List.countP_pos_iff.1 hn
    refine ⟨x.close id result now, ?_, ?_, ?_⟩
    · rw [hrows]
      exact List.mem_map_of_mem hx
    · rw [Row.id_close]
      exact (Row.isPending_iff.1 hp).1
    · rw [Row.close_of_isPending hp]
      exact DeadLetter.terminal_close _ _ _
  | beaten now hf =>
    obtain ⟨m, hm, hrest⟩ := hs.of_ok
    obtain ⟨hsame, hnone⟩ := eq_of_answer_mark_zero hm
    rw [hsame] at hrest
    cases hf with
    | found l =>
      obtain ⟨hget, hend⟩ := hrest.of_read_ok rfl
      obtain rfl := hend.eq_of_nil
      obtain ⟨x, hx, -, hid⟩ := row_of_answer_get hget
      refine ⟨x, hx, hid, ?_⟩
      rcases ho.settled x hx with hp | ht
      · have hn := hnone x hx
        rw [Row.isPending_iff.2 ⟨hid, hp.reprocessed⟩] at hn
        cases hn
      · exact ht

/-- Closing a dead letter that has been read as pending either fails, or closes it. -/
theorem Closing.closesOne {c : String × Bool} (h : Closing id result u (.ok c))
    (hs : Served s u s') (ho : Orderly s.rows) {x : Row} (hx : x ∈ s.rows)
    (hp : isPending id x = true) : ClosesOne id result s.rows s'.rows := by
  cases h with
  | closed now n hn =>
    obtain ⟨m, hm, hs⟩ := hs.of_ok
    obtain rfl := hs.eq_of_nil
    rw [(rows_of_answer_mark hm).2]
    exact closesOne_map ho hx hp
  | beaten now hf =>
    obtain ⟨m, hm, -⟩ := hs.of_ok
    have hn := (eq_of_answer_mark_zero hm).2 x hx
    rw [hp] at hn
    cases hn

/-! ## Purging -/

/-- Purging: what is asked, and what is returned. -/
inductive Purging (f : Filter) : List Exchange → Except Failure Nat → Prop
  | missing (e : Store.Error) (h : e.failure.isMissingTable = true) :
      Purging f [⟨.store (.count f), some (.error e)⟩] (.ok 0)
  | uncounted (e : Store.Error) (h : e.failure.isMissingTable = false) :
      Purging f [⟨.store (.count f), some (.error e)⟩] (.error e.failure)
  | undeleted (n : Nat) (e : Store.Error) :
      Purging f [⟨.store (.count f), some (.ok n)⟩, ⟨.store (.delete f), some (.error e)⟩]
        (.error e.failure)
  | purged (n deleted : Nat) :
      Purging f [⟨.store (.count f), some (.ok n)⟩, ⟨.store (.delete f), some (.ok deleted)⟩]
        (.ok deleted)

theorem delete_ends {f : Filter} {t : List Exchange} {r : Except Failure Nat}
    (h : (delete f).Goes t (done r)) :
    (∃ e : Store.Error, only Request.isQuery t = [⟨.store (.delete f), some (.error e)⟩] ∧
      r = .error e.failure) ∨
    ∃ deleted : Nat, only Request.isQuery t = [⟨.store (.delete f), some (.ok deleted)⟩] ∧
      r = .ok deleted := by
  obtain ⟨a, u, hu, rfl⟩ := h.query_done
  rw [only_query]
  rcases a with e | deleted
  · obtain ⟨rfl, hq⟩ := log_returned hu
    exact .inl ⟨e, by rw [hq], rfl⟩
  · obtain ⟨rfl, hq⟩ := log_returned hu
    exact .inr ⟨deleted, by rw [hq], rfl⟩

theorem purge_ends {service : Service} {f : Filter} {t : List Exchange} {r : Except Failure Nat}
    (h : (service.purge f).Goes t (done r)) : Purging f (only Request.isQuery t) r := by
  obtain ⟨u, hu, ht⟩ := observed_ends h
  obtain ⟨a, v, hv, rfl⟩ := hu.query_done
  rw [ht, only_query]
  rcases a with e | (n : Nat)
  · have hlog : (if e.failure.isMissingTable = true then
        (log (event .warn "purge" "dead_letters table does not exist yet, nothing purged" [])).bind
          fun _ => done (.ok 0)
        else (log (event .error "purge" "failed to count dead letters"
          [("filter", .plain f.form), ("error", .plain e.failure.message)])).bind
            fun _ => done (.error e.failure)).Goes v (done r) := hv
    cases hm : e.failure.isMissingTable with
    | true =>
      rw [hm, if_pos rfl] at hlog
      obtain ⟨rfl, hq⟩ := log_returned hlog
      rw [hq]
      exact .missing e hm
    | false =>
      rw [hm, if_neg Bool.false_ne_true] at hlog
      obtain ⟨rfl, hq⟩ := log_returned hlog
      rw [hq]
      exact .uncounted e hm
  · obtain ⟨_, w, hw, hquiet⟩ := Goes.after_done (k := Request.isQuery) hv
      (asks_warnOfPurge lenient_not_query service f n)
    rw [hquiet]
    rcases delete_ends hw with ⟨e, hq, rfl⟩ | ⟨deleted, hq, rfl⟩
    · rw [hq]
      exact .undeleted n e
    · rw [hq]
      exact .purged n deleted

/-- Purging that fails has deleted nothing. -/
theorem Purging.unchanged {filter : Filter} (h : Purging filter u (.error f))
    (hs : Served s u s') : s' = s := by
  cases h with
  | uncounted => exact (hs.of_failed (by simp)).eq_of_nil
  | undeleted => exact ((hs.of_read rfl).of_failed (by simp)).eq_of_nil

/-! ## Calls -/

inductive Call where
  | store (d : Draft)
  | giveUp (payload : Payload) (f : Failure) (o : Origin)
  | markReprocessed (id result : String)
  | reprocess (id : String)
  | purge (f : Filter)
  | list (f : Filter)
  | stats

namespace Call

/-- What a call returns if it succeeds. -/
def Result : Call → Type
  | store _ | giveUp _ _ _ | reprocess _ => String
  | markReprocessed _ _ => Unit
  | purge _ => Nat
  | list _ => List DeadLetter
  | stats => Stats

def program (service : Service) : (c : Call) → Program (Except Failure c.Result)
  | store d => service.store d
  | giveUp payload f o => service.giveUp payload f o
  | markReprocessed id result => service.markReprocessed id result
  | reprocess id => service.reprocess id
  | purge f => service.purge f
  | list f => service.list f
  | stats => service.stats

/-- The dead letter that is closed if the call succeeds. -/
def closes? : Call → Option String
  | markReprocessed id _ | reprocess id => some id
  | _ => none

/-- Whether a failure of the call tells that it has closed a dead letter. -/
def refuses : Call → Failure → Bool
  | reprocess _, f => f.kind = .validation
  | _, _ => false

/-- What a call leaves of the store. -/
structure Settles (c : Call) (r : Except Failure c.Result) (s s' : Store) : Prop where
  /-- A call that fails has changed nothing. -/
  unchanged : ∀ f, r = .error f → c.refuses f = false → s' = s
  /-- Except that it has closed the one dead letter whose payload it could not read. -/
  refused : ∀ f, r = .error f → c.refuses f = true →
    ∃ id, c.closes? = some id ∧ ClosesOne id f.detail s.rows s'.rows
  terminal : ∀ id a, c.closes? = some id → r = .ok a → HasTerminal id s'.rows

/-- A call that neither closes nor refuses. -/
theorem Settles.of_unchanged {c : Call} {r : Except Failure c.Result} (hc : c.closes? = none)
    (hr : ∀ f, c.refuses f = false) (h : ∀ f, r = .error f → s' = s) : c.Settles r s s' where
  unchanged f hf _ := h f hf
  refused f _ ht := by
    rw [hr f] at ht
    cases ht
  terminal id a hid := by
    rw [hc] at hid
    cases hid

theorem only_query_eq_insert {α : Type} {p q : Program α} {t : List Exchange} (h : p.Goes t q)
    (hp : p.Asks fun y => y.isQuery = y.isInsert) :
    only Request.isQuery t = only Request.isInsert t :=
  List.filter_congr (hp.request h)

theorem lenient_query_eq_insert : Lenient fun y => y.isQuery = y.isInsert := by
  refine .of_aside fun y hy => ?_
  rw [lenient_not_query.aside hy, lenient_not_insert.aside hy]

theorem lenient_reads :
    Lenient fun y => ∀ q, y = .store q → q.changes = false := by
  refine .of_aside fun y hy => ?_
  rintro q rfl
  cases hy

theorem unchanged_of_reads {α : Type} {p q : Program α} {t : List Exchange} (h : p.Goes t q)
    (hp : p.Asks fun y => ∀ q, y = .store q → q.changes = false)
    (hs : Served s (only Request.isQuery t) s') : s' = s :=
  hs.eq_of_reads fun x hx => hp.request h x (mem_only.1 hx).1

theorem markReprocessed_ends {service : Service} {t : List Exchange} {r : Except Failure Unit}
    (h : (service.markReprocessed id result).Goes t (done r)) :
    ∃ c, Closing id result (only Request.isQuery t) c ∧ r = c.map fun _ => () := by
  obtain ⟨u, hu, ht⟩ := observed_ends h
  obtain ⟨t₁, t₂, c, rfl, h₁, h₂⟩ := goes_bind_done_iff.1 hu
  obtain ⟨rfl, hr⟩ := goes_done_iff.1 h₂
  rw [ht, List.append_nil]
  exact ⟨c, close_ends h₁, done.inj hr⟩

theorem settles_markReprocessed {service : Service} {t : List Exchange} {r : Except Failure Unit}
    (ho : Orderly s.rows) (h : (service.markReprocessed id result).Goes t (done r))
    (hs : Served s (only Request.isQuery t) s') :
    (markReprocessed id result).Settles r s s' := by
  obtain ⟨c, hc, rfl⟩ := markReprocessed_ends h
  refine ⟨fun f hf _ => ?_, fun f _ hf => Bool.noConfusion hf, fun id' a hid ha => ?_⟩
  · cases c with
    | error g => exact hc.unchanged hs
    | ok c => cases hf
  · obtain rfl := Option.some.inj hid
    cases c with
    | error g => cases ha
    | ok c => exact hc.terminal hs ho

/-- A call that fails without having closed anything. -/
theorem Settles.of_error (h : s' = s) (hf : f.kind ≠ .validation) :
    (reprocess id).Settles (.error f : Except Failure String) s s' := by
  refine ⟨fun _ _ _ => h, fun g hg hr => ?_, fun _ a _ ha => by cases ha⟩
  obtain rfl := Except.error.inj hg
  exact absurd (of_decide_eq_true hr) hf

/-- A call that has found or left the dead letter closed. -/
theorem Settles.of_ok {str : String} (h : HasTerminal id s'.rows) :
    (reprocess id).Settles (.ok str : Except Failure String) s s' := by
  refine ⟨fun g hg => (by cases hg), fun g hg => (by cases hg), fun id' a hid _ => ?_⟩
  obtain rfl := Option.some.inj hid
  exact h

theorem settles_reprocess {service : Service} {t : List Exchange} {r : Except Failure String}
    (ho : Orderly s.rows) (h : (service.reprocess id).Goes t (done r))
    (hs : Served s (only Request.isQuery t) s') : (reprocess id).Settles r s s' := by
  have hends := reprocess_ends h
  generalize only Request.isQuery t = u at hends hs
  cases hends with
  | failed e => exact .of_error (hs.of_failed (by simp)).eq_of_nil nofun
  | missing => exact .of_error (hs.of_read rfl).eq_of_nil nofun
  | closed l hl =>
    obtain ⟨hget, hend⟩ := hs.of_read_ok rfl
    obtain rfl := hend.eq_of_nil
    obtain ⟨x, hx, rfl, hid⟩ := row_of_answer_get hget
    refine .of_ok ⟨x, hx, hid, ?_⟩
    rcases ho.settled x hx with hp | ht
    · rw [hp.reprocessed] at hl
      cases hl
    · exact ht
  | replayed l hl hc hr =>
    obtain ⟨hget, hrest⟩ := hs.of_read_ok rfl
    obtain ⟨x, hx, rfl, hid⟩ := row_of_answer_get hget
    cases hr with
    | failed => exact .of_error (hc.unchanged hrest) hc.kind_ne
    | stored => exact .of_ok (hc.terminal hrest ho)
    | refused =>
      refine ⟨fun f hf hr => ?_, fun f hf _ => ?_, fun _ a _ ha => by cases ha⟩
      · obtain rfl := Except.error.inj hf
        cases hr
      · obtain rfl := Except.error.inj hf
        exact ⟨id, rfl, hc.closesOne hrest ho hx (Row.isPending_iff.2 ⟨hid, hl⟩)⟩

/-- What a call leaves of an orderly store. -/
theorem settles_of_goes (c : Call) {service : Service} {t : List Exchange}
    {r : Except Failure c.Result} (ho : Orderly s.rows) (h : (c.program service).Goes t (done r))
    (hs : Served s (only Request.isQuery t) s') : c.Settles r s s' := by
  cases c with
  | store d =>
    refine .of_unchanged rfl (fun _ => rfl) fun f hf => ?_
    subst hf
    rw [only_query_eq_insert h (asks_store lenient_query_eq_insert service fun _ _ _ => rfl)] at hs
    exact (store_inserts (o := some (.error f)) h).unchanged hs
  | giveUp payload g o =>
    refine .of_unchanged rfl (fun _ => rfl) fun f hf => ?_
    subst hf
    rw [only_query_eq_insert h
      (asks_giveUp lenient_query_eq_insert service (fun _ => rfl) fun _ _ => rfl)] at hs
    obtain ⟨now, hi⟩ := giveUp_inserts (o := some (.error f)) h
    exact hi.unchanged hs
  | markReprocessed id result => exact settles_markReprocessed ho h hs
  | reprocess id => exact settles_reprocess ho h hs
  | purge f =>
    refine .of_unchanged rfl (fun _ => rfl) fun g hg => ?_
    subst hg
    exact (purge_ends h).unchanged hs
  | list f =>
    refine .of_unchanged rfl (fun _ => rfl) fun g _ => ?_
    refine unchanged_of_reads h (asks_list lenient_reads service ?_) hs
    rintro q hq
    cases hq
    rfl
  | stats =>
    refine .of_unchanged rfl (fun _ => rfl) fun g _ => ?_
    have reads : ∀ q : Query, q.changes = false →
        ∀ q', Request.store q = .store q' → q'.changes = false := by
      rintro q hq q' ⟨⟩
      exact hq
    exact unchanged_of_reads h (asks_stats lenient_reads service (fun f => reads (.count f) rfl)
      (reads .countByTopic rfl) (reads .countByError rfl)) hs

end Call

end Service

/-- In every state that operations reach from a store without dead letters, a call that is run
alone, whichever of its queries fail, leaves the dead letters as they are if it fails, unless it has
closed the one whose payload it could not read; and the dead letter that it is to close is closed if
it succeeds. -/
theorem failures_settle {ops : List Operation} {s : Store} {t : List Event} {env : Surroundings}
    {w w' : World} (service : Service) (c : Service.Call) {r : Except Failure c.Result}
    (h : SideBySide (ops.map Operation.thread) s t w.store) (h0 : s.rows = [])
    (hrun : w.run env (c.program service) = (some r, w')) : c.Settles r w.store w'.store := by
  have ho : Orderly w.store.rows :=
    orderly_of_empty (u := []) (by rwa [List.append_nil]) h.history h0
  obtain ⟨u, hg, hl⟩ := @World.run_goes _ env 0 w (c.program service)
  rw [hrun] at hg hl
  exact c.settles_of_goes ho hg hl.served

def Draft.unreadable : Draft := { Draft.sample with payload := .bytes ⟨#[255]⟩ }

/-- A dead letter is stored; reprocessing it fails, and closes it. -/
theorem failures_settle_unreadable :
    ∃ (w w' : World) (f : Failure),
      w.run Router.calm ((Service.Call.reprocess "1").program (.ofConfig {})) =
        (some (.error f), w') ∧
      f.kind = .validation ∧ ClosesOne "1" f.detail w.store.rows w'.store.rows := by
  obtain ⟨t, u, h, -, -⟩ := Operation.sequence_history Router.calm (.new .fresh) []
    [.store (.ofConfig {}) .unreadable]
  rw [List.nil_append] at h
  have hresult : ((Operation.sequence Router.calm (.new .fresh)
      [.store (.ofConfig {}) .unreadable]).run Router.calm
        ((Service.ofConfig {}).reprocess "1")).1 =
      some (.error (.validation
        "Payload deserialization failed: expected value at line 1 column 2")) := by
    decide +kernel
  have hsettles := failures_settle (.ofConfig {}) (.reprocess "1") h rfl (Prod.ext hresult rfl)
  obtain ⟨id, hid, hcloses⟩ := hsettles.refused _ rfl rfl
  obtain rfl := Option.some.inj hid
  exact ⟨_, _, _, Prod.ext hresult rfl, rfl, hcloses⟩

end DeadLetters
