import Mathlib.Data.List.Nodup
import DeadLetters.Proofs.Footprint
import DeadLetters.Proofs.History

/-!
# The table of dead letters

What one request can do to the rows of dead letters, said once (`Moves`), and what it keeps of them.
Ids stay unique, a row stays pending or closed as a whole (`Orderly`), and a row goes on as it is,
or closed once, until a deletion takes it away.

    Reacts s x s' → Moves x.request s.rows s'.rows                               (Reacts.moves)
    Moves r rows rows' → Orderly rows → Orderly rows'                            (Moves.orderly)
    Moves r rows rows' → x ∈ rows → x goes on in rows', or r deletes x             (Moves.fate)
-/

namespace DeadLetters

open Store

namespace DeadLetter

/-- Not reprocessed yet, and without a trace of it. -/
structure Pending (l : DeadLetter) : Prop where
  reprocessed : l.reprocessed = false
  reprocessedAt : l.reprocessedAt = none
  recoveryResult : l.recoveryResult = none

/-- Reprocessed, with a time and a result. -/
structure Terminal (l : DeadLetter) : Prop where
  reprocessed : l.reprocessed = true
  reprocessedAt : l.reprocessedAt.isSome = true
  recoveryResult : l.recoveryResult.isSome = true

/-- The later `l'` is the same dead letter as `l`: all that was stored of the failure is the same,
and everything is if `l` was closed. -/
structure Continues (l l' : DeadLetter) : Prop where
  id : l'.id = l.id
  messageId : l'.messageId = l.messageId
  topic : l'.topic = l.topic
  errorName : l'.errorName = l.errorName
  errorMessage : l'.errorMessage = l.errorMessage
  failedAt : l'.failedAt = l.failedAt
  retryCount : l'.retryCount = l.retryCount
  payloadType : l'.payloadType = l.payloadType
  payload : l'.payload = l.payload
  closed : l.reprocessed = true → l' = l

theorem Continues.refl (l : DeadLetter) : l.Continues l :=
  ⟨rfl, rfl, rfl, rfl, rfl, rfl, rfl, rfl, rfl, fun _ => rfl⟩

theorem Continues.trans {l m n : DeadLetter} (h : l.Continues m) (k : m.Continues n) :
    l.Continues n where
  id := k.id.trans h.id
  messageId := k.messageId.trans h.messageId
  topic := k.topic.trans h.topic
  errorName := k.errorName.trans h.errorName
  errorMessage := k.errorMessage.trans h.errorMessage
  failedAt := k.failedAt.trans h.failedAt
  retryCount := k.retryCount.trans h.retryCount
  payloadType := k.payloadType.trans h.payloadType
  payload := k.payload.trans h.payload
  closed := by
    intro hl
    obtain rfl := h.closed hl
    exact k.closed hl

theorem continues_close {l : DeadLetter} (h : l.reprocessed = false) (result : String)
    (time : Int64) : l.Continues (l.close result time) :=
  ⟨rfl, rfl, rfl, rfl, rfl, rfl, rfl, rfl, rfl, fun hl => by simp [h] at hl⟩

theorem terminal_close (l : DeadLetter) (result : String) (time : Int64) :
    (l.close result time).Terminal := ⟨rfl, rfl, rfl⟩

end DeadLetter

/-- The rows of dead letters; a table that is missing has none. -/
def Store.rows (s : Store) : List Row := s.letters.getD []

/-- What a request can make of the rows. -/
inductive Moves : Request → List Row → List Row → Prop
  | keep (r : Request) (rows : List Row) : Moves r rows rows
  | insert {l : DeadLetter} {rows : List Row} (h : ∀ x ∈ rows, x.letter.id ≠ l.id) :
      Moves (.store (.insert l)) rows (rows ++ [{ letter := l }])
  | mark (id result : String) (time : Int64) (rows : List Row) :
      Moves (.store (.mark id result time)) rows (rows.map (Row.close id result time))
  | delete (f : Filter) (rows : List Row) :
      Moves (.store (.delete f)) rows (rows.filter fun x => !chosen f x)

/-- What is kept of the rows: each dead letter is there once, is pending or closed as a whole, and
can be read. -/
structure Orderly (rows : List Row) : Prop where
  nodup : (rows.map fun x => x.letter.id).Nodup
  settled : ∀ x ∈ rows, x.letter.Pending ∨ x.letter.Terminal
  legible : ∀ x ∈ rows, x.legible = true

/-! ## Queries that are answered -/

namespace Store

theorem rows_of_letters {s : Store} {rows : List Row} (h : s.letters = some rows) :
    s.rows = rows := by
  simp [Store.rows, h]

theorem withRows_eq_ok_iff {α : Type} {s : Store} {f : List Row → Except Error α} {a : α} :
    s.withRows f = .ok a ↔ ∃ rows, s.letters = some rows ∧ f rows = .ok a := by
  unfold withRows
  cases s.letters <;> simp

theorem insert_eq_ok_iff {s s' : Store} {l : DeadLetter} :
    s.insert l = .ok ((), s') ↔
      ∃ rows, s.letters = some rows ∧ s.faults.insert = false ∧
        (∀ x ∈ rows, x.letter.id ≠ l.id) ∧
        s' = { s with letters := some (rows ++ [{ letter := l }]) } := by
  simp only [insert, withRows_eq_ok_iff]
  refine exists_congr fun rows => and_congr_right fun _ => ?_
  cases s.faults.insert with
  | true => simp
  | false =>
    by_cases h : ∃ x ∈ rows, x.letter.id = l.id
    · have hany : rows.any (hasId l.id) = true := by
        simpa [hasId] using h
      simp [hany]
      grind
    · have hany : rows.any (hasId l.id) = false := by
        simpa [hasId] using h
      simp [hany, eq_comm]
      grind

theorem mark_eq_ok_iff {s s' : Store} {id result : String} {time : Int64} {n : Nat} :
    s.mark id result time = .ok (n, s') ↔
      ∃ rows, s.letters = some rows ∧ n = rows.countP (isPending id) ∧
        (n ≠ 0 → s.faults.update = false) ∧
        s' = { s with letters := some (rows.map (Row.close id result time)) } := by
  simp only [mark, withRows_eq_ok_iff]
  refine exists_congr fun rows => and_congr_right fun _ => ?_
  split
  · next h =>
    simp
    grind
  · next h =>
    simp
    grind

theorem delete_eq_ok_iff {s s' : Store} {f : Filter} {n : Nat} :
    s.delete f = .ok (n, s') ↔
      ∃ rows, s.letters = some rows ∧ n = rows.countP (chosen f) ∧
        (n ≠ 0 → s.faults.delete = false) ∧
        s' = { s with letters := some (rows.filter fun x => !chosen f x) } := by
  simp only [delete, withRows_eq_ok_iff]
  refine exists_congr fun rows => and_congr_right fun _ => ?_
  split
  · next h =>
    simp
    grind
  · next h =>
    simp
    grind

theorem answer_eq_ok_iff {s s' : Store} {q : Query} {a : q.Answer} :
    s.answer q = (.ok a, s') ↔ s.closed = false ∧ s.perform q = .ok (a, s') := by
  unfold answer
  cases s.closed with
  | true => simp
  | false =>
    cases s.perform q with
    | error e => simp
    | ok p => simp [Prod.ext_iff]

theorem get_eq_ok_iff {s : Store} {id : String} {o : Option DeadLetter} :
    s.get id = .ok o ↔
      ∃ rows, s.letters = some rows ∧
        ((∀ x ∈ rows, x.letter.id ≠ id) ∧ o = none ∨
          ∃ x, rows.find? (hasId id) = some x ∧ x.legible = true ∧ o = some x.letter) := by
  simp only [get, withRows_eq_ok_iff]
  refine exists_congr fun rows => and_congr_right fun _ => ?_
  cases h : rows.find? (hasId id) with
  | none =>
    have hall : ∀ x ∈ rows, x.letter.id ≠ id := by simpa [hasId] using h
    simp only [Except.ok.injEq, reduceCtorEq, false_and, exists_false, or_false]
    exact ⟨fun ho => ⟨hall, ho.symm⟩, fun ho => ho.2.symm⟩
  | some x =>
    have hx : x ∈ rows ∧ x.letter.id = id :=
      ⟨List.mem_of_find?_eq_some h, by simpa [hasId] using List.find?_some h⟩
    have hnot : ¬ ∀ x ∈ rows, x.letter.id ≠ id := fun hall => hall x hx.1 hx.2
    simp only [hnot, false_and, Option.some.injEq, exists_eq_left', false_or, Row.read]
    cases x.legible <;> simp [Except.map, eq_comm]

/-- The same dead letters, and the same readiness to change them; contents may differ. -/
structure Alike (s s' : Store) : Prop where
  letters : s'.letters = s.letters
  faults : s'.faults = s.faults
  closed : s'.closed = s.closed

theorem Alike.refl (s : Store) : Alike s s := ⟨rfl, rfl, rfl⟩

theorem Alike.trans {s m s' : Store} (h : Alike s m) (k : Alike m s') : Alike s s' :=
  ⟨k.letters.trans h.letters, k.faults.trans h.faults, k.closed.trans h.closed⟩

theorem Alike.rows {s s' : Store} (h : Alike s s') : s'.rows = s.rows := by
  rw [Store.rows, Store.rows, h.letters]

/-- Content metadata is kept apart from the dead letters. -/
theorem alike_putContent {s s' : Store} {c : Content} (h : s.putContent c = .ok ((), s')) :
    Alike s s' := by
  unfold putContent withContents at h
  cases hc : s.contents with
  | none => simp [hc] at h
  | some cs =>
    simp only [hc, Except.ok.injEq, Prod.mk.injEq, true_and] at h
    rw [← h]
    exact ⟨rfl, rfl, rfl⟩

theorem alike_mergeContent {s s' : Store} {id patch : String} {time : Int64} {b : Bool}
    (h : s.mergeContent id patch time = .ok (b, s')) : Alike s s' := by
  unfold mergeContent withContents at h
  cases hc : s.contents with
  | none => simp [hc] at h
  | some cs =>
    simp only [hc] at h
    split at h
    · simp only [Except.ok.injEq, Prod.mk.injEq] at h
      rw [← h.2]
      exact .refl s
    · split at h
      · simp at h
      · simp at h
      · simp only [Except.ok.injEq, Prod.mk.injEq] at h
        rw [← h.2]
        exact ⟨rfl, rfl, rfl⟩

/-- A question leaves the store as it is. -/
theorem eq_of_map_eq_ok {α : Type} {s s' : Store} {e : Except Error α} {a : α}
    (h : e.map (·, s) = .ok (a, s')) : e = .ok a ∧ s' = s := by
  cases e with
  | error e => simp [Except.map] at h
  | ok b =>
    simp only [Except.map, Except.ok.injEq, Prod.mk.injEq] at h
    exact ⟨congrArg _ h.1, h.2.symm⟩

theorem answer_snd_of_not_changes (s : Store) {q : Query} (hq : q.changes = false) :
    (s.answer q).2 = s := by
  cases ha : (s.answer q).1 with
  | error e => exact answer_of_error ha
  | ok a =>
    have hp := (answer_eq_ok_iff.1 (Prod.ext ha rfl : s.answer q = (.ok a, (s.answer q).2))).2
    cases q with
    | insert | mark | delete | putContent | mergeContent => simp [Query.changes] at hq
    | get | list | count | countByTopic | countByError | getContent =>
      exact (eq_of_map_eq_ok hp).2

/-- What an update that is answered makes of the rows. -/
theorem rows_of_answer_mark {s m : Store} {id result : String} {time : Int64} {n : Nat}
    (h : s.answer (.mark id result time) = (.ok n, m)) :
    n = s.rows.countP (isPending id) ∧ m.rows = s.rows.map (Row.close id result time) := by
  obtain ⟨rows, hrows, hn, -, hm⟩ := mark_eq_ok_iff.1 (answer_eq_ok_iff.1 h).2
  rw [hm, rows_of_letters hrows]
  exact ⟨hn, rfl⟩

/-- What is found under an id is a row with that id. -/
theorem row_of_answer_get {s m : Store} {id : String} {l : DeadLetter}
    (h : s.answer (.get id) = (.ok (some l), m)) :
    ∃ x ∈ s.rows, x.letter = l ∧ x.letter.id = id := by
  have hget := (eq_of_map_eq_ok (answer_eq_ok_iff.1 h).2).1
  obtain ⟨rows, hrows, ⟨-, hnone⟩ | ⟨x, hfind, -, hl⟩⟩ := get_eq_ok_iff.1 hget
  · cases hnone
  · rw [rows_of_letters hrows]
    refine ⟨x, List.mem_of_find?_eq_some hfind, (Option.some.inj hl).symm, ?_⟩
    simpa [hasId] using List.find?_some hfind

end Store

/-! ## One step -/

theorem moves_answer (s : Store) (q : Query) : Moves (.store q) s.rows (s.answer q).2.rows := by
  cases ha : (s.answer q).1 with
  | error e => rw [answer_of_error ha]; exact .keep _ _
  | ok a =>
    have hok : s.answer q = (.ok a, (s.answer q).2) := Prod.ext ha rfl
    have hp := (answer_eq_ok_iff.1 hok).2
    cases q with
    | insert l =>
      obtain ⟨rows, hr, -, hnew, hs⟩ := insert_eq_ok_iff.1 hp
      rw [hs, rows_of_letters hr]
      exact .insert hnew
    | mark id result time =>
      obtain ⟨rows, hr, -, -, hs⟩ := mark_eq_ok_iff.1 hp
      rw [hs, rows_of_letters hr]
      exact .mark id result time rows
    | delete f =>
      obtain ⟨rows, hr, -, -, hs⟩ := delete_eq_ok_iff.1 hp
      rw [hs, rows_of_letters hr]
      exact .delete f rows
    | putContent c =>
      rw [(alike_putContent hp).rows]
      exact .keep _ _
    | mergeContent id patch time =>
      rw [(alike_mergeContent hp).rows]
      exact .keep _ _
    | get | list | count | countByTopic | countByError | getContent =>
      rw [(eq_of_map_eq_ok hp).2]
      exact .keep _ _

theorem Reacts.moves {s s' : Store} {x : Exchange} (h : Reacts s x s') :
    Moves x.request s.rows s'.rows := by
  cases h with
  | answered q => exact moves_answer s q
  | lost q => exact moves_answer s q
  | refused q => exact .keep _ _
  | elsewhere h => exact .keep _ _

theorem reacts_store_iff {s s' : Store} {q : Query} {o : Option (Except Error q.Answer)} :
    Reacts s ⟨.store q, o⟩ s' ↔
      o = some (s.answer q).1 ∧ s' = (s.answer q).2 ∨
        (∀ a, o ≠ some (.ok a)) ∧ (s' = s ∨ s' = (s.answer q).2) := by
  constructor
  · intro h
    cases h with
    | answered => exact .inl ⟨rfl, rfl⟩
    | refused _ _ hn => exact .inr ⟨hn, .inl rfl⟩
    | lost _ _ hn => exact .inr ⟨hn, .inr rfl⟩
    | elsewhere _ hn => exact absurd rfl (hn q)
  · rintro (⟨rfl, rfl⟩ | ⟨hn, rfl | rfl⟩)
    · exact .answered s q
    · exact .refused _ q o hn
    · exact .lost s q o hn

/-- What is no change of the dead letters leaves them as they are. -/
theorem Reacts.alike {s s' : Store} {x : Exchange} (h : Reacts s x s')
    (hx : x.request.touchesLetters = false) : Alike s s' := by
  have answered : ∀ q, (Request.store q).touchesLetters = false → Alike s (s.answer q).2 := by
    intro q hq
    cases ha : (s.answer q).1 with
    | error e =>
      rw [answer_of_error ha]
      exact .refl s
    | ok a =>
      have hok : s.answer q = (.ok a, (s.answer q).2) := Prod.ext ha rfl
      have hp := (answer_eq_ok_iff.1 hok).2
      cases q with
      | insert | mark | delete => simp [Request.touchesLetters] at hq
      | putContent c => exact alike_putContent hp
      | mergeContent id patch time => exact alike_mergeContent hp
      | get | list | count | countByTopic | countByError | getContent =>
        rw [(eq_of_map_eq_ok hp).2]
        exact .refl s
  cases h with
  | answered q => exact answered q hx
  | lost q => exact answered q hx
  | refused | elsewhere => exact .refl s

theorem History.alike {s s' : Store} {t : List Event} (h : History s t s')
    (ht : only Request.touchesLetters (t.map Event.exchange) = []) : Alike s s' := by
  induction h with
  | nil s => exact .refl s
  | @cons e t s he _ ih =>
    rw [List.map_cons, only_cons] at ht
    split at ht
    · simp at ht
    · next hx => exact (he.alike (by simpa using hx)).trans (ih ht)

/-- A query with a result has been carried out. -/
theorem Reacts.answer_eq {s s' : Store} {q : Query} {a : q.Answer}
    (h : Reacts s ⟨.store q, some (.ok a)⟩ s') : s.answer q = (.ok a, s') := by
  rcases reacts_store_iff.1 h with ⟨ha, rfl⟩ | ⟨hn, -⟩
  · exact Prod.ext (Option.some.inj ha).symm rfl
  · exact absurd rfl (hn a)

namespace Store.Row

theorem id_close (id result : String) (time : Int64) (x : Row) :
    (x.close id result time).letter.id = x.letter.id := by
  unfold close
  split <;> rfl

theorem legible_close (id result : String) (time : Int64) (x : Row) :
    (x.close id result time).legible = x.legible := by
  unfold close
  split <;> rfl

theorem isPending_iff {id : String} {x : Row} :
    isPending id x = true ↔ x.letter.id = id ∧ x.letter.reprocessed = false := by
  simp [isPending, hasId]

theorem close_of_isPending {id result : String} {time : Int64} {x : Row}
    (h : isPending id x = true) :
    x.close id result time = { x with letter := x.letter.close result time } := if_pos h

theorem close_of_not_isPending {id result : String} {time : Int64} {x : Row}
    (h : isPending id x = false) : x.close id result time = x := by
  rw [close, h]
  rfl

/-- What has been closed is not pending. -/
theorem isPending_close (id result : String) (time : Int64) (x : Row) :
    isPending id (x.close id result time) = false := by
  cases h : isPending id x with
  | true =>
    rw [close_of_isPending h]
    simp [isPending, DeadLetter.close]
  | false => rwa [close_of_not_isPending h]

theorem continues_close (id result : String) (time : Int64) (x : Row) :
    x.letter.Continues (x.close id result time).letter := by
  unfold close
  split
  · next h =>
    have hp : x.letter.reprocessed = false := by
      simp only [isPending, Bool.and_eq_true, Bool.not_eq_true'] at h
      exact h.2
    exact DeadLetter.continues_close hp result time
  · exact .refl _

end Store.Row

/-- Rows stay in order if only pending dead letters are added. -/
theorem Moves.orderly {r : Request} {rows rows' : List Row} (h : Moves r rows rows')
    (hr : ∀ l, r = .store (.insert l) → l.Pending) (ho : Orderly rows) : Orderly rows' := by
  cases h with
  | keep => exact ho
  | @insert l _ hnew =>
    refine ⟨?_, ?_, ?_⟩
    · simp only [List.map_append, List.map_cons, List.map_nil]
      refine List.nodup_append.2 ⟨ho.nodup, by simp, ?_⟩
      intro a ha b hb
      obtain ⟨x, hx, rfl⟩ := List.mem_map.1 ha
      rw [List.mem_singleton.1 hb]
      exact hnew x hx
    · intro x hx
      rcases List.mem_append.1 hx with hx | hx
      · exact ho.settled x hx
      · rw [List.mem_singleton.1 hx]
        exact .inl (hr l rfl)
    · intro x hx
      rcases List.mem_append.1 hx with hx | hx
      · exact ho.legible x hx
      · rw [List.mem_singleton.1 hx]
  | mark id result time =>
    refine ⟨?_, ?_, ?_⟩
    · simpa [Function.comp_def, Row.id_close] using ho.nodup
    · intro x hx
      obtain ⟨y, hy, rfl⟩ := List.mem_map.1 hx
      unfold Row.close
      split
      · exact .inr (DeadLetter.terminal_close _ _ _)
      · exact ho.settled y hy
    · intro x hx
      obtain ⟨y, hy, rfl⟩ := List.mem_map.1 hx
      rw [Row.legible_close]
      exact ho.legible y hy
  | delete f =>
    refine ⟨?_, ?_, ?_⟩
    · exact ho.nodup.sublist (List.filter_sublist.map _)
    · exact fun x hx => ho.settled x (List.mem_filter.1 hx).1
    · exact fun x hx => ho.legible x (List.mem_filter.1 hx).1

/-- A row is there already, or it is inserted. -/
theorem Moves.origin {r : Request} {rows rows' : List Row} {y : Row} (h : Moves r rows rows')
    (hy : y ∈ rows') :
    (∃ x ∈ rows, x.letter.Continues y.letter) ∨ r = .store (.insert y.letter) := by
  cases h with
  | keep => exact .inl ⟨y, hy, .refl _⟩
  | insert =>
    rcases List.mem_append.1 hy with hy | hy
    · exact .inl ⟨y, hy, .refl _⟩
    · rw [List.mem_singleton.1 hy]
      exact .inr rfl
  | mark id result time =>
    obtain ⟨x, hx, rfl⟩ := List.mem_map.1 hy
    exact .inl ⟨x, hx, x.continues_close id result time⟩
  | delete => exact .inl ⟨y, (List.mem_filter.1 hy).1, .refl _⟩

/-- A row goes on, unless it is deleted by a filter that selects it. -/
theorem Moves.fate {r : Request} {rows rows' : List Row} {x : Row} (h : Moves r rows rows')
    (hx : x ∈ rows) :
    (∃ x' ∈ rows', x.letter.Continues x'.letter) ∨
      ∃ f, r = .store (.delete f) ∧ f.selects x.letter = true ∧
        ∀ y ∈ rows', y.letter ≠ x.letter := by
  cases h with
  | keep => exact .inl ⟨x, hx, .refl _⟩
  | insert => exact .inl ⟨x, List.mem_append_left _ hx, .refl _⟩
  | mark id result time =>
    exact .inl ⟨_, List.mem_map_of_mem hx, x.continues_close id result time⟩
  | delete f =>
    cases hf : f.selects x.letter with
    | false => exact .inl ⟨x, List.mem_filter.2 ⟨hx, by simp [chosen, hf]⟩, .refl _⟩
    | true =>
      refine .inr ⟨f, rfl, hf, fun y hy hl => ?_⟩
      have hn := (List.mem_filter.1 hy).2
      simp [chosen, hl, hf] at hn

end DeadLetters
