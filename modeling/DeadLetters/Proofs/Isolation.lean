import DeadLetters.Proofs.Attributes
import DeadLetters.Proofs.Fate
import DeadLetters.Proofs.Together

/-!
# Messages of a batch do not disturb one another

The messages of a batch of a content topic are delivered together, by any schedule, in a world that
takes what they write.  What becomes of each message, and the dead letters that it adds, are as if it
were the only one, but for ids and times.  Enrichments that have been merged before could only
disturb the next by what they leave of the attributes.

    what is so far of the store, event by event                              (BatchRun.sofar)
    each delivery is answered as on the store at first            (BatchRun.granted, inserted)
    each message meets its fate on the store at first                         (BatchRun.fates)
-/

namespace DeadLetters

open Program Store

/-! ## Worlds that take what messages write -/

/-- Dead letters and content metadata are taken, and ids are fresh. -/
structure Welcoming (env : Surroundings) (s : Store) : Prop extends Taking env s where
  changes : ∀ n q, q.changesContents = true → env.store n q = .accepts
  contents : s.contents.isSome = true
  distinct : Function.Injective env.freshId

/-- All attributes stay readable under enrichments. -/
def Store.StaysReadable (s : Store) : Prop :=
  ∀ cs, s.contents = some cs → ∀ id c, findContent id cs = some c →
    Topic.StaysReadable c.attributes

def Store.since (s s' : Store) : List DeadLetter := (s'.rows.drop s.rows.length).map Row.letter

/-- What becomes of messages, and the dead letters that they add, are as if each of them were
delivered alone, but for ids and times. -/
structure AsAlone (env : Surroundings) (r : Router) (topic : String) (s : Store)
    (ms : List (Message String)) (results : List (Option Outcome)) (s' : Store) : Prop where
  dispositions : ∀ (i : Nat) (m : Message String), ms[i]? = some m →
    ∃ o o', results[i]? = some (some o) ∧
      ((World.new s).run env (r.deliver topic m)).1 = some o' ∧
      o.disposition.unnamed = o'.disposition.unnamed
  kept : s.rows <+: s'.rows
  added : ((s.since s').map DeadLetter.unnamed).Perm (ms.flatMap fun m =>
    (s.since ((World.new s).run env (r.deliver topic m)).2.store).map DeadLetter.unnamed)

/-! ## Events of several programs -/

/-- What all programs do is what each of them does, in some order. -/
theorem perm_flatMap_own {β : Type} [DecidableEq β] (g : Exchange → Option β) {n : Nat}
    {t : List Event} (h : ∀ e ∈ t, e.thread < n) :
    (t.filterMap fun e => g e.exchange).Perm
      ((List.range n).flatMap fun i => (own i t).filterMap g) := by
  refine List.perm_iff_count.2 fun b => ?_
  rw [List.count_filterMap, countP_eq_sum (fun x => g x == some b) h, List.count_flatMap]
  simp only [Function.comp_def, List.count_filterMap]
  exact Multiset.sum_coe _

theorem flatMap_range {α β : Type} {xs : List α} {f : Nat → List β} {g : α → List β}
    (h : ∀ i x, xs[i]? = some x → f i = g x) : (List.range xs.length).flatMap f = xs.flatMap g := by
  induction xs generalizing f with
  | nil => rfl
  | cons x xs ih =>
    rw [List.length_cons, List.range_succ_eq_map, List.flatMap_cons, List.flatMap_map,
      List.flatMap_cons, h 0 x rfl, ih fun i y hy => h (i + 1) y (by simpa using hy)]

/-! ## Routers -/

namespace Router.ForContents

variable {r : Router} {service : Service} {limits : Limits}

theorem keepsOut (hr : r.ForContents .store service limits) : r.KeepsOut := by
  intro topic handle hh
  by_cases hu : topic = Topic.Upload.topic
  · rw [hu, hr.upload, Option.some.injEq] at hh
    exact ⟨_, _, service, limits, Topic.keepsOut_upload, hh.symm⟩
  by_cases he : topic = Topic.Enrichment.topic
  · rw [he, hr.enrichment, Option.some.injEq] at hh
    exact ⟨_, _, service, limits, Topic.keepsOut_enrichment, hh.symm⟩
  · rw [hr.other topic hu he] at hh
    cases hh

/-- All that a delivery changes of the dead letters are insertions. -/
theorem asks_inserts (hr : r.ForContents .store service limits) (topic : String)
    (m : Message String) :
    (r.deliver topic m).Asks fun y => y.touchesLetters = true → y.isInsert = true := by
  refine Router.asks_deliver lenient_touches_only_insert r (fun handle hh => ?_)
    fun ht => by simp [Request.touchesLetters] at ht
  obtain ⟨β, p, service, limits, hp, rfl⟩ := hr.keepsOut topic handle hh
  exact Handler.asks_handleWith lenient_touches_only_insert
    (fun _ _ => hp.not_touches.mono (fun y hy ht => by simp [hy] at ht) _)
    (fun _ ht => by simp [Request.touchesLetters] at ht) fun _ _ _ _ => rfl

end Router.ForContents

/-! ## Runs of a batch -/

/-- The messages of a batch are delivered together in a world, from a store on, each to its end. -/
structure BatchRun (env : Surroundings) (r : Router) (topic : String) (ms : List (Message String))
    (s : Store) (t : List Event) (w' : World) (results : List (Option Outcome)) : Prop where
  steps : World.Steps env (.new s) t w'
  thread_lt : ∀ e ∈ t, e.thread < ms.length
  goes : ∀ (i : Nat) (m : Message String), ms[i]? = some m →
    ∃ o, results[i]? = some (some o) ∧ (r.deliver topic m).Goes (own i t) (done o)

/-- What the store has come to after some events: the dead letters that were inserted are behind
those at first, and the content metadata is there, after some enrichments. -/
structure Sofar (topic : String) (s : Store) (past : List Event) (x : Store) : Prop where
  closed : x.closed = false
  faults : x.faults.insert = false
  letters : x.letters = some (s.rows ++
    (lettersOf (past.map Event.exchange)).map fun l => { letter := l })
  contents : ∃ cs ds, s.contents = some cs ∧ x.contents = some ds ∧
    (topic = Topic.Enrichment.topic → Outgrown cs ds)

theorem Sofar.rows {topic : String} {s x : Store} {past : List Event} (h : Sofar topic s past x) :
    x.rows = s.rows ++ (lettersOf (past.map Event.exchange)).map fun l => { letter := l } :=
  rows_of_letters h.letters

theorem insertedIds_eq (t : List Event) :
    insertedIds t = (lettersOf (t.map Event.exchange)).map DeadLetter.id := by
  have hid : ∀ x : Exchange, x.inserted? = x.letter?.map DeadLetter.id := by
    rintro ⟨r, a⟩
    cases r with
    | store q => cases q <;> rfl
    | _ => rfl
  rw [insertedIds, lettersOf, List.filterMap_map, List.map_filterMap]
  exact List.filterMap_congr fun e _ => hid e.exchange

namespace BatchRun

variable {env : Surroundings} {r : Router} {service : Service} {limits : Limits} {topic : String}
  {ms : List (Message String)} {s x : Store} {t past rest : List Event} {w' : World}
  {results : List (Option Outcome)} {e : Event}

/-- Each event is a request of a delivery. -/
theorem exists_delivery (h : BatchRun env r topic ms s t w' results) (he : e ∈ t) :
    ∃ m o, ms[e.thread]? = some m ∧ (r.deliver topic m).Goes (own e.thread t) (done o) := by
  have hm : ms[e.thread]? = some _ := List.getElem?_eq_getElem (h.thread_lt e he)
  obtain ⟨o, -, ho⟩ := h.goes _ _ hm
  exact ⟨_, o, hm, ho⟩

/-- The changes of the store that are asked for are those that are made. -/
theorem answered (h : BatchRun env r topic ms s t w' results) (hw : Welcoming env s) (he : e ∈ t)
    {q : Query} (hq : e.request = .store q)
    (hc : q.changesContents = true ∨ ∃ l, q = .insert l) :
    e.exchange = ⟨.store q, some (e.before.answer q).1⟩ ∧ e.after = (e.before.answer q).2 := by
  refine h.steps.answered he hq fun n => ?_
  rcases hc with hc | ⟨l, rfl⟩
  · exact hw.changes n q hc
  · exact hw.insert n l

/-- A dead letter has an id that no other has. -/
theorem fresh (h : BatchRun env r topic ms s t w' results) (hr : r.ForContents .store service limits)
    (hw : Welcoming env s) (ht : t = past ++ e :: rest) {l : DeadLetter}
    (hl : e.request = .store (.insert l)) :
    (∃ n, l.id = env.freshId n) ∧ l.id ∉ insertedIds past := by
  have issues : ∀ i < ms.length, ((own i t).filterMap Exchange.inserted?).Sublist
      ((own i t).filterMap Exchange.drawn?) := by
    intro i hi
    obtain ⟨o, -, ho⟩ := h.goes i ms[i] (List.getElem?_eq_getElem hi)
    exact Operation.issues_deliver hr.keepsOut topic ms[i] _ _ ho
  have he : e ∈ t := by simp [ht]
  constructor
  · have hown : l.id ∈ (own e.thread t).filterMap Exchange.inserted? := by
      refine List.mem_filterMap.2 ⟨e.exchange, mem_own_of_mem he, ?_⟩
      obtain ⟨i, ⟨r, a⟩, b, c⟩ := e
      obtain rfl : r = .store (.insert l) := hl
      rfl
    obtain ⟨y, hy, hdrawn⟩ :=
      List.mem_filterMap.1 ((issues _ (h.thread_lt e he)).subset hown)
    obtain ⟨k, hk, -, rfl⟩ := mem_own.1 hy
    obtain ⟨n, -, hn⟩ := h.steps.drawn _ (List.mem_filterMap.2 ⟨k, hk, hdrawn⟩)
    exact ⟨n, hn⟩
  · have hnodup := inserted_nodup h.thread_lt issues (h.steps.drawn_nodup hw.distinct)
    rw [ht, insertedIds_append] at hnodup
    exact fun hpast => (List.nodup_append.1 hnodup).2.2 l.id hpast l.id
      (mem_insertedIds List.mem_cons_self hl) rfl

/-- An insertion is confirmed, and adds the dead letter. -/
theorem answer_insert (h : BatchRun env r topic ms s t w' results)
    (hr : r.ForContents .store service limits) (hw : Welcoming env s)
    (ht : t = past ++ e :: rest) (hs : Sofar topic s past e.before) {l : DeadLetter}
    (hl : e.request = .store (.insert l)) :
    e.before.answer (.insert l) = (.ok (), e.before.added l) := by
  obtain ⟨⟨n, hn⟩, hnew⟩ := h.fresh hr hw ht hl
  refine answer_eq_ok_iff.2 ⟨hs.closed, insert_eq_ok_iff.2
    ⟨_, hs.letters, hs.faults, fun y hy => ?_, by rw [Store.added, hs.rows]⟩⟩
  rcases List.mem_append.1 hy with hy | hy
  · exact hn ▸ hw.fresh n y hy
  · obtain ⟨l', hl', rfl⟩ := List.mem_map.1 hy
    rw [insertedIds_eq] at hnew
    exact fun hsame => hnew (hsame ▸ List.mem_map_of_mem hl')

/-- The content metadata behind an event. -/
theorem contents_step (h : BatchRun env r topic ms s t w' results)
    (hr : r.ForContents .store service limits) (hw : Welcoming env s) (he : e ∈ t)
    (hs : Sofar topic s past e.before) :
    ∃ cs ds, s.contents = some cs ∧ e.after.contents = some ds ∧
      (topic = Topic.Enrichment.topic → Outgrown cs ds) := by
  obtain ⟨cs, ds, hcs, hds, hgrown⟩ := hs.contents
  have hheard : ContentsHeard t := fun e he q hq hc => (h.answered hw he hq (.inl hc)).1
  have hreacts := h.steps.history.reacts e he
  cases hx : e.exchange.writes with
  | false => exact ⟨cs, ds, hcs, (contents_of_not_writes hheard he hreacts hx).trans hds, hgrown⟩
  | true =>
    obtain ⟨m, o, -, hg⟩ := h.exists_delivery he
    have hwrote := Router.deliver_writes hr hg
    have hmem : e.exchange ∈ writes (own e.thread t) :=
      List.mem_filter.2 ⟨mem_own_of_mem he, hx⟩
    generalize writes (own e.thread t) = ws, o.disposition = d at hwrote hmem
    cases hwrote with
    | uploaded htopic hu hput =>
      obtain ⟨now, c, -, rfl⟩ := hput
      rw [List.mem_singleton.1 hmem] at hreacts
      obtain ⟨ds', -, hafter⟩ :=
        putContent_eq_ok_iff.1 (answer_eq_ok_iff.1 hreacts.answer_eq).2
      refine ⟨cs, recorded c ds', hcs, by rw [hafter], fun hne => ?_⟩
      exact absurd (htopic.symm.trans hne) (by decide)
    | enriched htopic hparse hmerge =>
      obtain ⟨now, rfl⟩ := hmerge
      rw [List.mem_singleton.1 hmem] at hreacts
      obtain ⟨ds', hds', ⟨-, hfalse, -⟩ | ⟨d, attributes, hd, hp, -, hafter⟩⟩ :=
        mergeContent_eq_ok_iff.1 (answer_eq_ok_iff.1 hreacts.answer_eq).2
      · cases hfalse
      obtain rfl : ds' = ds := Option.some.inj (hds'.symm.trans hds)
      exact ⟨cs, _, hcs, by rw [hafter], fun ht => (hgrown ht).patched hparse hd hp now⟩
    | nothing => cases hmem

/-- One event. -/
theorem sofar_step (h : BatchRun env r topic ms s t w' results)
    (hr : r.ForContents .store service limits) (hw : Welcoming env s)
    (ht : t = past ++ e :: rest) (hs : Sofar topic s past e.before) :
    Sofar topic s (past ++ [e]) e.after := by
  have he : e ∈ t := by simp [ht]
  have hcontents := h.contents_step hr hw he hs
  have hlast : lettersOf ((past ++ [e]).map Event.exchange) =
      lettersOf (past.map Event.exchange) ++ e.exchange.letter?.toList := by
    rw [List.map_append, lettersOf_append, lettersOf]
    cases hl : e.exchange.letter? <;> simp [lettersOf, hl]
  cases hi : e.request.isInsert with
  | true =>
    obtain ⟨l, hl⟩ : ∃ l, e.request = .store (.insert l) := by
      cases hreq : e.request with
      | store q => cases q <;> simp [hreq, Request.isInsert] at hi ⊢
      | _ => simp [hreq, Request.isInsert] at hi
    obtain ⟨hx, hafter⟩ := h.answered hw he hl (.inr ⟨l, rfl⟩)
    rw [h.answer_insert hr hw ht hs hl] at hafter
    refine ⟨hafter ▸ hs.closed, hafter ▸ hs.faults, ?_, hcontents⟩
    rw [hafter, hlast, hx, List.map_append, ← List.append_assoc, ← hs.rows]
    rfl
  | false =>
    obtain ⟨m, o, -, hg⟩ := h.exists_delivery he
    have htouches : e.request.touchesLetters = false := by
      cases hc : e.request.touchesLetters with
      | false => rfl
      | true =>
        rw [(hr.asks_inserts topic m).request hg _ (mem_own_of_mem he) hc] at hi
        cases hi
    have halike := (h.steps.history.reacts e he).alike htouches
    refine ⟨halike.closed.trans hs.closed, halike.faults ▸ hs.faults, ?_, hcontents⟩
    rw [halike.letters, hlast, Exchange.letter?_eq_none hi, Option.toList, List.append_nil,
      hs.letters]

/-- What is so far of the store, at each point of the run. -/
theorem sofar (h : BatchRun env r topic ms s t w' results) (hr : r.ForContents .store service limits)
    (hw : Welcoming env s) (ht : t = past ++ rest) (hx : History s past x) :
    Sofar topic s past x := by
  refine hx.along (P := Sofar topic s) ?_ ?_
  · obtain ⟨rows, hrows⟩ := Option.isSome_iff_exists.1 hw.table
    obtain ⟨cs, hcs⟩ := Option.isSome_iff_exists.1 hw.contents
    refine ⟨hw.closed, hw.faults, ?_, cs, cs, hcs, hcs, fun _ => .refl cs⟩
    rw [hrows, rows_of_letters hrows]
    exact congrArg some (List.append_nil rows).symm
  · intro past' e later hp hs _
    have hsplit : t = past' ++ e :: (later ++ rest) := by
      rw [ht, hp]
      simp
    exact h.sofar_step hr hw hsplit hs

/-- A delivery is answered as it would be on the store at first. -/
theorem granted (h : BatchRun env r topic ms s t w' results) (hr : r.ForContents .store service limits)
    (hw : Welcoming env s)
    (hstays : topic = Topic.Enrichment.topic → s.StaysReadable) (i : Nat) :
    Topic.Granted topic s (own i t) ∧ Handler.Inserted (own i t) := by
  have before : ∀ {y}, y ∈ own i t → ∃ past e rest, t = past ++ e :: rest ∧ e.exchange = y ∧
      Sofar topic s past e.before := by
    intro y hy
    obtain ⟨e, he, -, rfl⟩ := mem_own.1 hy
    obtain ⟨past, rest, rfl⟩ := List.append_of_mem he
    exact ⟨past, e, rest, rfl, rfl, h.sofar hr hw rfl h.steps.history.at.1⟩
  refine ⟨⟨fun c a hy => ?_, fun htopic id patch time a hy => ?_⟩, fun l a hy => ?_⟩
  · obtain ⟨past, e, rest, ht, hx, hs⟩ := before hy
    have hanswer := (h.answered hw (by simp [ht]) (congrArg Exchange.request hx) (.inl rfl)).1
    obtain ⟨cs, ds, -, hds, -⟩ := hs.contents
    have hwriting : Writing env e.before :=
      ⟨fun n c => hw.changes n _ rfl, hs.closed, by rw [hds]; rfl⟩
    rw [hx, hwriting.answer_putContent] at hanswer
    cases hanswer
    rfl
  · obtain ⟨past, e, rest, ht, hx, hs⟩ := before hy
    have hanswer := (h.answered hw (by simp [ht]) (congrArg Exchange.request hx) (.inl rfl)).1
    obtain ⟨cs, ds, hcs, hds, hgrown⟩ := hs.contents
    rw [hx, (hgrown htopic).answer_merge hw.closed hs.closed hcs hds (hstays htopic cs hcs)]
      at hanswer
    cases hanswer
    rfl
  · obtain ⟨past, e, rest, ht, hx, hs⟩ := before hy
    have hl : e.request = .store (.insert l) := congrArg Exchange.request hx
    have hanswer := (h.answered hw (by simp [ht]) hl (.inr ⟨l, rfl⟩)).1
    rw [hx, h.answer_insert hr hw ht hs hl] at hanswer
    cases hanswer
    rfl

/-- The dead letters of all deliveries are those of each, in some order. -/
theorem perm_lettersOf (h : BatchRun env r topic ms s t w' results) :
    ((lettersOf (t.map Event.exchange)).map DeadLetter.unnamed).Perm
      ((List.range ms.length).flatMap fun i =>
        (lettersOf (own i t)).map DeadLetter.unnamed) := by
  simp only [lettersOf, List.map_filterMap, List.filterMap_map]
  exact perm_flatMap_own (fun x => x.letter?.map DeadLetter.unnamed) h.thread_lt

/-- Each message meets its fate on the store at first. -/
theorem fates (h : BatchRun env r topic ms s t w' results)
    (hr : r.ForContents .store service limits)
    (htopic : topic = Topic.Upload.topic ∨ topic = Topic.Enrichment.topic) (hw : Welcoming env s)
    (hstays : topic = Topic.Enrichment.topic → s.StaysReadable) :
    (∀ (i : Nat) (m : Message String), ms[i]? = some m →
      ∃ o, results[i]? = some (some o) ∧ o.disposition.unnamed =
        (Handler.fate limits topic m (Topic.verdict topic s m.body)).1) ∧
    s.rows <+: w'.store.rows ∧
    ((s.since w'.store).map DeadLetter.unnamed).Perm (ms.flatMap fun m =>
      (Handler.fate limits topic m (Topic.verdict topic s m.body)).2) := by
  have meets : ∀ (i : Nat) (m : Message String), ms[i]? = some m →
      ∃ o, results[i]? = some (some o) ∧ Handler.Meets o.disposition (own i t)
        (Handler.fate limits topic m (Topic.verdict topic s m.body)) := by
    intro i m hm
    obtain ⟨o, ho, hg⟩ := h.goes i m hm
    obtain ⟨hgranted, hinserted⟩ := h.granted hr hw hstays i
    exact ⟨o, ho, Router.deliver_fate hr htopic hgranted hinserted hg⟩
  have hrows := (h.sofar hr hw (List.append_nil t).symm h.steps.history).rows
  refine ⟨fun i m hm => ?_, ⟨_, hrows.symm⟩, ?_⟩
  · obtain ⟨o, ho, hmeets⟩ := meets i m hm
    exact ⟨o, ho, hmeets.1⟩
  · have hsince : s.since w'.store = lettersOf (t.map Event.exchange) := by
      rw [Store.since, hrows, List.drop_left, List.map_map]
      exact List.map_id _
    have heach : ((List.range ms.length).flatMap fun i =>
        (lettersOf (own i t)).map DeadLetter.unnamed) = ms.flatMap fun m =>
          (Handler.fate limits topic m (Topic.verdict topic s m.body)).2 := by
      refine flatMap_range fun i m hm => ?_
      obtain ⟨o, -, hmeets⟩ := meets i m hm
      exact hmeets.2
    rw [hsince, ← heach]
    exact h.perm_lettersOf

end BatchRun

/-- The deliveries of a batch under a schedule are such a run. -/
theorem exists_batchRun {r : Router} {service : Service} {limits : Limits}
    (hr : r.ForContents .store service limits) (env : Surroundings) (schedule : List Nat)
    (topic : String) (ms : List (Message String)) (s : Store) :
    ∃ t, BatchRun env r topic ms s t
      (World.together env schedule (ms.map (r.deliver topic)) (.new s)).2
      (World.together env schedule (ms.map (r.deliver topic)) (.new s)).1 := by
  obtain ⟨t, ht, hlt, -, hg⟩ :=
    @World.together_steps _ env schedule (ms.map (r.deliver topic)) (.new s)
  refine ⟨t, ht, by simpa using hlt, fun i m hm => ?_⟩
  obtain ⟨o, ho, hgoes⟩ := hg i (r.deliver topic m) (by simp [hm])
  cases o with
  | none => exact absurd hgoes (hr.ends_deliver topic m).not_stuck
  | some o => exact ⟨o, ho, hgoes⟩

section Isolated

variable {service : Service} {limits : Limits} {r : Router} {topic : String}
  {env env' : Surroundings} {s : Store}

/-- A message that is delivered alone meets its fate. -/
theorem alone_fate (hr : r.ForContents .store service limits)
    (htopic : topic = Topic.Upload.topic ∨ topic = Topic.Enrichment.topic) (hw : Welcoming env s)
    (hstays : topic = Topic.Enrichment.topic → s.StaysReadable) (m : Message String) :
    ∃ o, ((World.new s).run env (r.deliver topic m)).1 = some o ∧ o.disposition.unnamed =
        (Handler.fate limits topic m (Topic.verdict topic s m.body)).1 ∧
      ((s.since ((World.new s).run env (r.deliver topic m)).2.store).map DeadLetter.unnamed).Perm
        (Handler.fate limits topic m (Topic.verdict topic s m.body)).2 := by
  obtain ⟨t, h⟩ := exists_batchRun hr env [] topic [m] s
  rw [List.map_singleton, World.together_single] at h
  obtain ⟨hdispositions, -, hadded⟩ := h.fates hr htopic hw hstays
  obtain ⟨o, ho, hfate⟩ := hdispositions 0 m rfl
  exact ⟨o, by simpa using ho, hfate, by simpa using hadded⟩

theorem asAlone_together (hr : r.ForContents .store service limits)
    (htopic : topic = Topic.Upload.topic ∨ topic = Topic.Enrichment.topic) (hw : Welcoming env s)
    (hw' : Welcoming env' s) (hstays : topic = Topic.Enrichment.topic → s.StaysReadable)
    (schedule : List Nat) (ms : List (Message String)) :
    AsAlone env' r topic s ms
      (World.together env schedule (ms.map (r.deliver topic)) (.new s)).1
      (World.together env schedule (ms.map (r.deliver topic)) (.new s)).2.store := by
  obtain ⟨t, h⟩ := exists_batchRun hr env schedule topic ms s
  obtain ⟨hdispositions, hkept, hadded⟩ := h.fates hr htopic hw hstays
  refine ⟨fun i m hm => ?_, hkept, hadded.trans (List.Perm.flatMap_left ms fun m _ => ?_)⟩
  · obtain ⟨o, ho, hfate⟩ := hdispositions i m hm
    obtain ⟨o', ho', hfate', -⟩ := alone_fate hr htopic hw' hstays m
    exact ⟨o, o', ho, ho', hfate.trans hfate'.symm⟩
  · obtain ⟨_, -, -, hadded'⟩ := alone_fate hr htopic hw' hstays m
    exact hadded'.symm

/-- The messages of a batch of a content topic are handled together by any schedule, or as a batch
is handled; then what becomes of each of them, and the dead letters, are as if it were alone. -/
theorem isolated {env₀ : Surroundings} {w₀ : World} {sink : Sink} {ackTimeout : Nat}
    (hr : (w₀.run env₀ (Router.registerAll (Topic.handlers .store service limits)
      (Router.empty sink ackTimeout))).1 = some r)
    (htopic : topic = Topic.Upload.topic ∨ topic = Topic.Enrichment.topic) (hw : Welcoming env s)
    (hw' : Welcoming env' s) (hstays : topic = Topic.Enrichment.topic → s.StaysReadable)
    (ms : List (Message String)) :
    (∀ schedule, AsAlone env' r topic s ms
      (World.together env schedule (ms.map (r.deliver topic)) (.new s)).1
      (World.together env schedule (ms.map (r.deliver topic)) (.new s)).2.store) ∧
    ∃ report, ((World.new s).run env (r.processBatch topic ms)).1 = some report ∧
      AsAlone env' r topic s ms (report.outcomes.map some)
        ((World.new s).run env (r.processBatch topic ms)).2.store := by
  have hcontents := Router.forContents_of_registerAll hr
  have together := asAlone_together hcontents htopic hw hw' hstays
  have hhandler : (r.handlers.find? topic).isSome = true := by
    rcases htopic with rfl | rfl
    · rw [hcontents.upload]
      rfl
    · rw [hcontents.enrichment]
      rfl
  obtain ⟨os, hreport, hos, hstore⟩ := @Router.run_processBatch r topic env ms
    (hcontents.ends_deliver topic) hhandler (.new s)
  refine ⟨fun schedule => together schedule ms, _, hreport, ?_⟩
  rw [hstore, BatchReport.outcomes_ofOutcomes, ← hos]
  exact together [] ms

end Isolated

/-! ## Batches to try -/

theorem Text.toString_injective : Function.Injective (toString : Nat → String) := by
  intro a b h
  have hdigits : Nat.toDigits 10 a = Nat.toDigits 10 b := by
    simpa [toString, Nat.repr] using congrArg String.toList h
  have hread := ofDigits?_toDigits a
  rw [hdigits, ofDigits?_toDigits b] at hread
  exact (Option.some.inj hread).symm

/-- A store without dead letters that knows one piece of content. -/
def Store.knowing (attributes : String) : Store :=
  { fresh with contents := some [⟨"c", "b", "k", 1, "a/b", 1, attributes, 1⟩] }

theorem welcoming_knowing (attributes : String) :
    Welcoming Router.calm (.knowing attributes) where
  insert _ _ := rfl
  closed := rfl
  table := rfl
  faults := rfl
  fresh _ x hx := by cases hx
  changes _ _ _ := rfl
  contents := rfl
  distinct := Text.toString_injective

/-- A batch of enrichments under a schedule, on a store that knows one piece of content. -/
def tried (attributes : String) (schedule : List Nat) (ms : List (Message String)) :
    List (Option Outcome) × World :=
  World.together Router.calm schedule
    (ms.map (Router.contents.deliver Topic.Enrichment.topic)) (.new (.knowing attributes))

theorem staysReadable_knowing : (Store.knowing "\x7b\x7d").StaysReadable := by
  rintro cs hcs id c hc
  have hmem : c ∈ cs := List.mem_of_find?_eq_some hc
  obtain rfl := Option.some.inj hcs
  rw [List.mem_singleton.1 hmem]
  exact Topic.staysReadable_text (v := .object []) ⟨List.nodup_nil, trivial⟩ (by decide)

/-- Attributes that are merged, attributes for content that is not known, below the ceiling and at
it, and a body that does not fit. -/
def mixed : List (Message String) :=
  [.new "1" 1 "\x7b\"contentId\":\"c\",\"attributes\":\x7b\"a\":1\x7d\x7d",
    .new "2" 1 "\x7b\"contentId\":\"d\"\x7d", .new "2" 3 "\x7b\"contentId\":\"d\"\x7d",
    .new "3" 1 "no"]

/-- A batch in which each message has an end of its own. -/
theorem isolated_mixed :
    AsAlone Router.calm Router.contents Topic.Enrichment.topic (.knowing "\x7b\x7d") mixed
      (tried "\x7b\x7d" [3, 1, 0, 2, 3] mixed).1 (tried "\x7b\x7d" [3, 1, 0, 2, 3] mixed).2.store ∧
    (tried "\x7b\x7d" [3, 1, 0, 2, 3] mixed).1.map
        (Option.map fun o => o.disposition.unnamed) =
      [some .processed, some (.retry .processing "content d is not known yet"),
        some (.deadLettered "" .processing), some (.deadLettered "" .validation)] := by
  have hr : ((World.new .fresh).run Router.calm (Router.registerAll
      (Topic.handlers .store (.ofConfig {}) (.ofConfig {})) (Router.empty .logged 30))).1 =
    some Router.contents := rfl
  refine ⟨(isolated hr (.inr rfl) (welcoming_knowing _) (welcoming_knowing _)
    (fun _ => staysReadable_knowing) mixed).1 _, ?_⟩
  decide +kernel

/-- Attributes that hold a quote between apostrophes. -/
def quoted : String := "\x7b'a':'x\"y'\x7d"

/-- The same attributes for the same content. -/
def twin (id : String) : Message String :=
  .new id 1 "\x7b\"contentId\":\"c\",\"attributes\":\x7b\"b\":1\x7d\x7d"

/-- The first merge prints the quote as it stands, and the second cannot read what it has printed. -/
theorem twins_disturbed :
    Welcoming Router.calm (.knowing quoted) ∧
      ¬ AsAlone Router.calm Router.contents Topic.Enrichment.topic (.knowing quoted)
        [twin "1", twin "2"] (tried quoted [] [twin "1", twin "2"]).1
        (tried quoted [] [twin "1", twin "2"]).2.store := by
  refine ⟨welcoming_knowing _, fun h => ?_⟩
  obtain ⟨o, o', ho, ho', hsame⟩ := h.dispositions 1 _ rfl
  have hsecond : ((tried quoted [] [twin "1", twin "2"]).1[1]?).map
      (Option.map fun o => o.disposition.unnamed) =
      some (some (.retry .processing "error returned from database: (code: 1) malformed JSON")) := by
    decide +kernel
  have halone : (((World.new (.knowing quoted)).run Router.calm
      (Router.contents.deliver Topic.Enrichment.topic (twin "2"))).1).map
        (fun o => o.disposition.unnamed) = some .processed := by
    decide +kernel
  rw [ho] at hsecond
  rw [ho'] at halone
  simp only [Option.map_some, Option.some.injEq] at hsecond halone
  rw [hsecond, halone] at hsame
  cases hsame

end DeadLetters
