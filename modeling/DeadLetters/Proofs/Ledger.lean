import Mathlib.Algebra.BigOperators.Group.Finset.Piecewise
import Mathlib.Algebra.Order.BigOperators.Group.Finset
import DeadLetters.Proofs.Lifecycle

/-!
# Who closes a dead letter

Operations of all kinds run side by side on a store without dead letters at first, and the ids that
they draw are fresh.  Then an id is inserted once at most, whoever inserts, and what has happened so
far decides what the rows of an id can look like (`Ledger`).

    the ids that are inserted are distinct                         (FreshRun.inserted_nodup)
    one event at most closes the dead letter of an id                      (FreshRun.ledger)
    that event is an update, and leaves its result                      (request_of_closing)
-/

namespace DeadLetters

open Program Store

/-! ## Fresh ids -/

def drawnIds (t : List Event) : List String := t.filterMap fun e => e.exchange.drawn?

def insertedIds (t : List Event) : List String := t.filterMap fun e => e.exchange.inserted?

theorem insertedIds_append (t u : List Event) :
    insertedIds (t ++ u) = insertedIds t ++ insertedIds u := List.filterMap_append

theorem mem_insertedIds {t : List Event} {e : Event} (he : e ∈ t) {l : DeadLetter}
    (h : e.request = .store (.insert l)) : l.id ∈ insertedIds t := by
  refine List.mem_filterMap.2 ⟨e, he, ?_⟩
  obtain ⟨i, ⟨r, a⟩, b, c⟩ := e
  obtain rfl : r = .store (.insert l) := h
  rfl

/-- What all programs count is the sum of what each of them counts. -/
theorem countP_eq_sum (p : Exchange → Bool) {n : Nat} {t : List Event}
    (h : ∀ e ∈ t, e.thread < n) :
    t.countP (fun e => p e.exchange) = ∑ i ∈ Finset.range n, (own i t).countP p := by
  induction t with
  | nil => simp
  | cons e t ih =>
    have hsplit : ∀ i, (own i (e :: t)).countP p =
        (own i t).countP p + if e.thread = i then (if p e.exchange then 1 else 0) else 0 := by
      intro i
      rw [own_cons]
      by_cases hi : e.thread = i
      · rw [if_pos hi, if_pos hi, List.countP_cons]
      · rw [if_neg hi, if_neg hi, Nat.add_zero]
    have hmem : e.thread ∈ Finset.range n := Finset.mem_range.2 (h e List.mem_cons_self)
    rw [List.countP_cons, ih fun e' he' => h e' (List.mem_cons_of_mem _ he'),
      Finset.sum_congr rfl fun i _ => hsplit i, Finset.sum_add_distrib, Finset.sum_ite_eq,
      if_pos hmem]

/-- No id is inserted twice, if none is drawn twice and each program inserts what it has drawn. -/
theorem inserted_nodup {n : Nat} {t : List Event} (h : ∀ e ∈ t, e.thread < n)
    (hissues : ∀ i < n,
      ((own i t).filterMap Exchange.inserted?).Sublist ((own i t).filterMap Exchange.drawn?))
    (hfresh : (drawnIds t).Nodup) : (insertedIds t).Nodup := by
  refine List.nodup_iff_count_le_one.2 fun a => ?_
  refine le_trans ?_ (List.nodup_iff_count_le_one.1 hfresh a)
  unfold insertedIds drawnIds
  rw [List.count_filterMap, List.count_filterMap,
    countP_eq_sum (fun x => x.inserted? == some a) h,
    countP_eq_sum (fun x => x.drawn? == some a) h]
  refine Finset.sum_le_sum fun i hi => ?_
  rw [← List.count_filterMap, ← List.count_filterMap]
  exact (hissues i (Finset.mem_range.1 hi)).count_le a

/-- Operations side by side on a store without dead letters at first; no id is drawn twice. -/
structure FreshRun (ops : List Operation) (s : Store) (run : List Event) (s' : Store) : Prop
    extends SideBySide (ops.map Operation.thread) s run s' where
  empty : s.rows = []
  fresh : (drawnIds run).Nodup

variable {ops : List Operation} {s s' : Store} {run past rest : List Event} {id : String}

/-- No id is inserted twice, because none is drawn twice. -/
theorem FreshRun.inserted_nodup (h : FreshRun ops s run s') : (insertedIds run).Nodup := by
  refine DeadLetters.inserted_nodup h.thread_lt (fun i hi => ?_) h.fresh
  obtain ⟨th, hth⟩ : ∃ th, (ops.map Operation.thread)[i]? = some th :=
    ⟨_, List.getElem?_eq_getElem hi⟩
  obtain ⟨q, hq⟩ := h.goes i th hth
  obtain ⟨o, -, rfl⟩ : ∃ o, ops[i]? = some o ∧ o.thread = th := by simpa using hth
  exact o.issues _ q hq

/-- What has been inserted is not inserted again. -/
theorem FreshRun.not_inserted (h : FreshRun ops s (past ++ rest) s') {i : String}
    (hi : i ∈ insertedIds past) : i ∉ insertedIds rest := by
  have hnodup := h.inserted_nodup
  rw [insertedIds_append] at hnodup
  exact fun hr => (List.nodup_append.1 hnodup).2.2 i hi i hr rfl

/-! ## Closings -/

/-- Whether a row is the closed dead letter with this id. -/
def isClosed (id : String) (x : Row) : Bool := hasId id x && x.letter.reprocessed

theorem isClosed_iff {x : Row} :
    isClosed id x = true ↔ x.letter.id = id ∧ x.letter.reprocessed = true := by
  simp [isClosed, hasId]

/-- The program that closes the dead letter with this id in an event, and the result that it leaves:
the dead letter is pending before, and closed behind. -/
def Event.closing? (id : String) (e : Event) : Option (Nat × Option String) :=
  if e.before.rows.any (isPending id) then
    (e.after.rows.find? (isClosed id)).map fun x => (e.thread, x.letter.recoveryResult)
  else none

/-- The closings of the dead letter with this id, in order. -/
def closings (id : String) (t : List Event) : List (Nat × Option String) :=
  t.filterMap (Event.closing? id)

@[simp] theorem closings_nil : closings id [] = [] := rfl

theorem closings_append (t u : List Event) :
    closings id (t ++ u) = closings id t ++ closings id u := List.filterMap_append

theorem closings_concat_of_none {t : List Event} {e : Event} (h : e.closing? id = none) :
    closings id (t ++ [e]) = closings id t := by
  rw [closings_append, closings, closings, List.filterMap_cons_none h, List.filterMap_nil,
    List.append_nil]

theorem closings_concat_of_some {t : List Event} {e : Event} {c : Nat × Option String}
    (h : e.closing? id = some c) : closings id (t ++ [e]) = closings id t ++ [c] := by
  rw [closings_append, closings, closings, List.filterMap_cons_some h, List.filterMap_nil]

theorem row_eq_of_id {rows : List Row} (ho : Orderly rows) {x y : Row} (hx : x ∈ rows)
    (hy : y ∈ rows) (hid : x.letter.id = y.letter.id) : x = y :=
  List.inj_on_of_nodup_map ho.nodup hx hy hid

/-- Where ids are unique, the closed row is the one that is found. -/
theorem closing?_eq_some_iff {e : Event} (ho : Orderly e.after.rows) {i : Nat}
    {r : Option String} :
    e.closing? id = some (i, r) ↔
      (∃ x ∈ e.before.rows, isPending id x = true) ∧ e.thread = i ∧
        ∃ y ∈ e.after.rows, isClosed id y = true ∧ y.letter.recoveryResult = r := by
  unfold Event.closing?
  rw [← List.any_eq_true]
  constructor
  · intro h
    split at h
    · next hb =>
      obtain ⟨y, hy, hc⟩ := Option.map_eq_some_iff.1 h
      obtain ⟨hi, hr⟩ := Prod.mk.inj hc
      exact ⟨hb, hi, y, List.mem_of_find?_eq_some hy, List.find?_some hy, hr⟩
    · cases h
  · rintro ⟨hb, rfl, y, hy, hc, rfl⟩
    rw [if_pos hb]
    cases hf : e.after.rows.find? (isClosed id) with
    | none => exact absurd hc (List.find?_eq_none.1 hf y hy)
    | some z =>
      have hz := isClosed_iff.1 (List.find?_some hf)
      obtain rfl : z = y := row_eq_of_id ho (List.mem_of_find?_eq_some hf) hy
        (hz.1.trans (isClosed_iff.1 hc).1.symm)
      rfl

theorem closing?_eq_none_iff {e : Event} :
    e.closing? id = none ↔ (∃ x ∈ e.before.rows, isPending id x = true) →
      ∀ y ∈ e.after.rows, isClosed id y = false := by
  unfold Event.closing?
  rw [← List.any_eq_true]
  split
  · next hb => simp [hb]
  · next hb => simp [hb]

/-! ## The ledger -/

/-- What is known of the rows of an id after some events: all are pending, or one event has closed
the dead letter and all have its result. -/
structure Ledger (id : String) (past : List Event) (rows : List Row) : Prop where
  orderly : Orderly rows
  inserted : (∃ x ∈ rows, x.letter.id = id) ∨ closings id past ≠ [] → id ∈ insertedIds past
  status :
    (closings id past = [] ∧ ∀ x ∈ rows, x.letter.id = id → x.letter.reprocessed = false) ∨
      ∃ i result, closings id past = [(i, some result)] ∧ ∀ x ∈ rows, x.letter.id = id →
        x.letter.reprocessed = true ∧ x.letter.recoveryResult = some result

theorem Ledger.init : Ledger id [] [] := ⟨orderly_nil, by simp, .inl (by simp)⟩

section Step

variable {e : Event}

theorem mem_insertedIds_concat {i : String} (h : i ∈ insertedIds past) :
    i ∈ insertedIds (past ++ [e]) := by
  rw [insertedIds_append]
  exact List.mem_append_left _ h

/-- What is inserted by the event is pending, and has an id that has not been inserted before. -/
def InsertsNew (past : List Event) (e : Event) : Prop :=
  ∀ l, e.request = .store (.insert l) → l.Pending ∧ l.id ∉ insertedIds past

theorem InsertsNew.orderly (hi : InsertsNew past e) (hr : Reacts e.before e.exchange e.after)
    (ho : Orderly e.before.rows) : Orderly e.after.rows :=
  hr.moves.orderly (fun l hl => (hi l hl).1) ho

/-- A row behind the event goes on from one before it, or is new. -/
theorem InsertsNew.origin (hi : InsertsNew past e) (hr : Reacts e.before e.exchange e.after)
    {y : Row} (hy : y ∈ e.after.rows) (hid : y.letter.id = id) :
    (∃ x ∈ e.before.rows, x.letter.id = id ∧ x.letter.Continues y.letter) ∨
      y.letter.Pending ∧ id ∉ insertedIds past ∧ id ∈ insertedIds (past ++ [e]) := by
  rcases hr.moves.origin hy with ⟨x, hx, hc⟩ | hins
  · exact .inl ⟨x, hx, hc.id ▸ hid, hc⟩
  · exact .inr ⟨(hi _ hins).1, hid ▸ (hi _ hins).2, hid ▸ mem_insertedIds (by simp) hins⟩

/-- An event that does not close the dead letter leaves pending rows pending, and closed ones as
they are. -/
theorem Ledger.step_quiet (h : Ledger id past e.before.rows)
    (hr : Reacts e.before e.exchange e.after) (hi : InsertsNew past e)
    (hc : e.closing? id = none) : Ledger id (past ++ [e]) e.after.rows := by
  refine ⟨hi.orderly hr h.orderly, ?_, ?_⟩
  · rw [closings_concat_of_none hc]
    rintro (⟨y, hy, hid⟩ | hne)
    · rcases hi.origin hr hy hid with ⟨x, hx, hxid, -⟩ | ⟨-, -, hm⟩
      · exact mem_insertedIds_concat (h.inserted (.inl ⟨x, hx, hxid⟩))
      · exact hm
    · exact mem_insertedIds_concat (h.inserted (.inr hne))
  · rw [closings_concat_of_none hc]
    rcases h.status with ⟨hnil, hpending⟩ | ⟨i, result, hone, hclosed⟩
    · refine .inl ⟨hnil, fun y hy hid => ?_⟩
      rcases hi.origin hr hy hid with ⟨x, hx, hxid, -⟩ | ⟨hp, -, -⟩
      · have hnot := closing?_eq_none_iff.1 hc
          ⟨x, hx, Row.isPending_iff.2 ⟨hxid, hpending x hx hxid⟩⟩ y hy
        simpa [isClosed, hasId, hid] using hnot
      · exact hp.reprocessed
    · refine .inr ⟨i, result, hone, fun y hy hid => ?_⟩
      rcases hi.origin hr hy hid with ⟨x, hx, hxid, hcont⟩ | ⟨-, hnew, -⟩
      · rw [hcont.closed (hclosed x hx hxid).1]
        exact hclosed x hx hxid
      · exact absurd (h.inserted (.inr (by simp [hone]))) hnew

/-- An event that closes the dead letter is the first one to do so, and leaves its result. -/
theorem Ledger.step_closing (h : Ledger id past e.before.rows)
    (hr : Reacts e.before e.exchange e.after) (hi : InsertsNew past e) {i : Nat}
    {r : Option String} (hc : e.closing? id = some (i, r)) :
    Ledger id (past ++ [e]) e.after.rows := by
  have ho : Orderly e.after.rows := hi.orderly hr h.orderly
  obtain ⟨⟨x, hx, hxp⟩, -, y, hy, hyc, rfl⟩ := (closing?_eq_some_iff ho).1 hc
  obtain ⟨hxid, hxr⟩ := Row.isPending_iff.1 hxp
  obtain ⟨hyid, hyr⟩ := isClosed_iff.1 hyc
  -- the row is pending before, so that nothing has closed it yet
  have hnil : closings id past = [] := by
    rcases h.status with ⟨hnil, -⟩ | ⟨i, result, -, hclosed⟩
    · exact hnil
    · rw [(hclosed x hx hxid).1] at hxr
      cases hxr
  obtain ⟨result, hresult⟩ : ∃ result, y.letter.recoveryResult = some result := by
    rcases ho.settled y hy with hp | ht
    · rw [hp.reprocessed] at hyr
      cases hyr
    · exact Option.isSome_iff_exists.1 ht.recoveryResult
  refine ⟨ho, fun _ => mem_insertedIds_concat (h.inserted (.inl ⟨x, hx, hxid⟩)),
    .inr ⟨i, result, ?_, ?_⟩⟩
  · rw [closings_concat_of_some hc, hnil, hresult]
    rfl
  · intro z hz hzid
    obtain rfl : z = y := row_eq_of_id ho hz hy (hzid.trans hyid.symm)
    exact ⟨hyr, hresult⟩

/-- One event: a dead letter that is closed behind it was closed before, or is closed by it. -/
theorem Ledger.step (h : Ledger id past e.before.rows)
    (hr : Reacts e.before e.exchange e.after) (hi : InsertsNew past e) :
    Ledger id (past ++ [e]) e.after.rows := by
  cases hc : e.closing? id with
  | none => exact h.step_quiet hr hi hc
  | some c => exact h.step_closing hr hi hc

end Step

/-- The ledger holds along every run. -/
theorem FreshRun.ledger {m : Store} (h : FreshRun ops s (past ++ rest) s')
    (hm : History s past m) (id : String) : Ledger id past m.rows := by
  refine hm.along (P := fun t m => Ledger id t m.rows) (by rw [h.empty]; exact .init) ?_
  intro t e u ht hledger hreacts
  obtain ⟨o, -, ha⟩ := Operation.allows_of_mem h.toSideBySide (e := e) (by simp [ht])
  refine hledger.step hreacts fun l hl => ⟨ha.insert l hl, fun hmem => ?_⟩
  rw [ht, List.append_assoc] at h
  exact h.not_inserted hmem (mem_insertedIds List.mem_cons_self hl)

/-- The ledger before an event and behind it. -/
theorem FreshRun.ledger_at {e : Event} (h : FreshRun ops s (past ++ e :: rest) s')
    (id : String) :
    Ledger id past e.before.rows ∧ Reacts e.before e.exchange e.after ∧
      Ledger id (past ++ [e]) e.after.rows := by
  obtain ⟨hb, hr, -⟩ := h.history.at
  refine ⟨h.ledger hb id, hr, ?_⟩
  have hsplit : past ++ e :: rest = (past ++ [e]) ++ rest := by simp
  rw [hsplit] at h
  exact h.ledger (history_append_iff.2 ⟨_, hb, .cons hr (.nil _)⟩) id

theorem FreshRun.closings_length_le (h : FreshRun ops s run s') (id : String) :
    (closings id run).length ≤ 1 := by
  rw [← List.append_nil run] at h
  rcases (h.ledger (List.append_nil run ▸ h.history) id).status with
    ⟨hnil, -⟩ | ⟨i, result, hone, -⟩
  · simp [hnil]
  · simp [hone]

/-- Whoever closes the dead letter is the only one. -/
theorem FreshRun.closings_eq (h : FreshRun ops s run s') {c : Nat × Option String}
    (hc : c ∈ closings id run) : closings id run = [c] := by
  have hle := h.closings_length_le id
  generalize closings id run = cs at hc hle
  match cs, hle with
  | [c'], _ => rw [List.mem_singleton.1 hc]
  | [], _ => cases hc

/-! ## The closing update -/

/-- Only an update makes a pending row a closed one. -/
theorem Moves.request_of_closed {r : Request} {rows rows' : List Row} {x y : Row}
    (h : Moves r rows rows') (ho : Orderly rows) (hx : x ∈ rows) (hxp : isPending id x = true)
    (hy : y ∈ rows') (hyc : isClosed id y = true) :
    ∃ result time, y.letter.recoveryResult = some result ∧
      r = .store (.mark id result time) := by
  obtain ⟨hxid, hxr⟩ := Row.isPending_iff.1 hxp
  obtain ⟨hyid, hyr⟩ := isClosed_iff.1 hyc
  have hnot : y ∉ rows := by
    intro hmem
    rw [row_eq_of_id ho hmem hx (hyid.trans hxid.symm), hxr] at hyr
    cases hyr
  cases h with
  | keep => exact absurd hy hnot
  | insert hnew =>
    rcases List.mem_append.1 hy with hy | hy
    · exact absurd hy hnot
    · rw [List.mem_singleton.1 hy] at hyid
      exact absurd (hxid.trans hyid.symm) (hnew x hx)
  | mark id' result time =>
    obtain ⟨z, hz, rfl⟩ := List.mem_map.1 hy
    cases hp : isPending id' z with
    | true =>
      rw [Row.id_close] at hyid
      obtain rfl : id' = id := (Row.isPending_iff.1 hp).1.symm.trans hyid
      rw [Row.close_of_isPending hp]
      exact ⟨result, time, rfl, rfl⟩
    | false =>
      rw [Row.close_of_not_isPending hp] at hnot
      exact absurd hz hnot
  | delete => exact absurd (List.mem_filter.1 hy).1 hnot

/-- An event that closes a dead letter is an update of it, and the result is that of the update. -/
theorem request_of_closing {e : Event} {i : Nat} {r : Option String}
    (hr : Reacts e.before e.exchange e.after) (hb : Orderly e.before.rows)
    (ho : Orderly e.after.rows) (h : e.closing? id = some (i, r)) :
    e.thread = i ∧ ∃ result time, r = some result ∧ e.request = .store (.mark id result time) := by
  obtain ⟨⟨x, hx, hxp⟩, hi, y, hy, hyc, rfl⟩ := (closing?_eq_some_iff ho).1 h
  exact ⟨hi, hr.moves.request_of_closed hb hx hxp hy hyc⟩

/-- What an update that is answered makes of the rows. -/
theorem rows_of_mark {e : Event} {result : String} {time : Int64} {n : Nat}
    (hr : Reacts e.before e.exchange e.after)
    (hx : e.exchange = ⟨.store (.mark id result time), some (.ok n)⟩) :
    n = e.before.rows.countP (isPending id) ∧
      e.after.rows = e.before.rows.map (Row.close id result time) := by
  rw [hx] at hr
  exact rows_of_answer_mark hr.answer_eq

/-- An update that changes something closes the dead letter. -/
theorem closing_of_mark {e : Event} {result : String} {time : Int64} {n : Nat}
    (hr : Reacts e.before e.exchange e.after) (ho : Orderly e.after.rows)
    (hx : e.exchange = ⟨.store (.mark id result time), some (.ok n)⟩) (hn : 0 < n) :
    e.closing? id = some (e.thread, some result) := by
  obtain ⟨rfl, hrows⟩ := rows_of_mark hr hx
  obtain ⟨x, hmem, hp⟩ := List.countP_pos_iff.1 hn
  refine (closing?_eq_some_iff ho).2 ⟨⟨x, hmem, hp⟩, rfl, x.close id result time, ?_, ?_, ?_⟩
  · rw [hrows]
    exact List.mem_map_of_mem hmem
  · rw [isClosed_iff, Row.id_close, Row.close_of_isPending hp]
    exact ⟨(Row.isPending_iff.1 hp).1, rfl⟩
  · rw [Row.close_of_isPending hp]
    rfl

end DeadLetters
