import DeadLetters.Proofs.Entries
import DeadLetters.Proofs.Failing
import DeadLetters.Proofs.Stalling
import DeadLetters.Proofs.Turnout

/-!
# A list of ids, in any order

A list of calls answers for each of its ids, whatever the store does.  With a transport that replies
to each topic always in the same way, what a list of calls comes to can be said of the rows at first,
id by id: which dead letters it closes and how, what it tells of each id, and what it sends.  The
order of the ids does not matter then, if no id is there twice.

    each id has an entry, and nothing else has one                    (mem_keys_reprocessAll)
    one call, said of the rows at first                                  (Reprocesses.first)
    a call, and then a list of calls                                 (ReprocessesAll.cons)
    what a list of calls comes to                             (World.exists_reprocessAll)
-/

namespace DeadLetters

open Program Store

/-! ## The entries -/

namespace Service

/-- The entries are those of the ids, over those that are there at first. -/
theorem isSome_find?_go (s : Service) {env : Surroundings} {ids : List String} {w w' : World}
    {d₀ d : Dictionary String} (h : w.run env (reprocessAll.go s ids d₀) = (some d, w'))
    (id : String) : (d.find? id).isSome = true ↔ id ∈ ids ∨ (d₀.find? id).isSome = true := by
  induction ids generalizing w d₀ with
  | nil =>
    obtain rfl : d₀ = d := Option.some.inj (congrArg Prod.fst h)
    simp
  | cons i ids ih =>
    cases hr : (w.run env (s.reprocess i)).1 with
    | none =>
      have hrun : w.run env (reprocessAll.go s (i :: ids) d₀) = (none, _) :=
        World.run_bind_of_none (Prod.ext hr rfl)
      rw [hrun] at h
      cases h
    | some r =>
      have hrun : w.run env (reprocessAll.go s (i :: ids) d₀) = _ :=
        World.run_bind_of (Prod.ext hr rfl)
      rw [ih (hrun.symm.trans h), Dictionary.find?_insert, List.mem_cons]
      by_cases hid : id = i <;> simp [hid]

/-- A list of calls that comes to a result has an entry for each of its ids, and no other. -/
theorem mem_keys_reprocessAll {s : Service} {env : Surroundings} {ids : List String}
    {w w' : World} {d : Dictionary String}
    (h : w.run env (s.reprocessAll ids) = (some d, w')) (id : String) :
    id ∈ d.keys ↔ id ∈ ids := by
  have hfound := s.isSome_find?_go h id
  have hnone : d.find? id = none ↔ id ∉ d.keys := Entries.find?_eq_none_iff
  rw [show (Dictionary.empty : Dictionary String).find? id = none from rfl,
    Option.isSome_iff_ne_none, ne_eq, hnone, not_not] at hfound
  simpa using hfound

end Service

/-! ## What calls come to, id by id -/

/-- The transport replies to each topic always in the same way. -/
def Surroundings.Replying (env : Surroundings) (reply : String → Except Transport.Error Unit) :
    Prop := ∀ n topic, (env.send n topic).answer = some (reply topic)

theorem Surroundings.Replying.replies {env : Surroundings}
    {reply : String → Except Transport.Error Unit} (h : env.Replying reply) : env.Replies := by
  intro n topic hsilent
  have hanswer := h n topic
  rw [hsilent] at hanswer
  cases hanswer

namespace Service

variable (s : Service) (reply : String → Except Transport.Error Unit)

/-- What the replay of a dead letter turns out to be. -/
def replayOf (l : DeadLetter) : Turnout := s.turnout l (reply l.topic)

def resultOf (l : DeadLetter) : String :=
  if l.reprocessed then l.recoveryResult.getD "" else (s.replayOf reply l).result l.topic

/-- What the first call returns of what it finds. -/
def returnedOf (id : String) : Option Row → Except Failure String
  | none => .error (.notFound id)
  | some x =>
    if x.letter.reprocessed then .ok (x.letter.recoveryResult.getD "")
    else (s.replayOf reply x.letter).returned x.letter.topic

/-- What is told at last of an id that is called `n` times: only the first call can fail. -/
def toldOf (id : String) (n : Nat) (found : Option Row) : String :=
  if n = 1 then entry (s.returnedOf reply id found)
  else
    match found with
    | none => entry (.error (.notFound id))
    | some x => s.resultOf reply x.letter

def sentOf : Option Row → List (String × String)
  | none => []
  | some x =>
    if x.letter.reprocessed then []
    else ((s.replayOf reply x.letter).sends x.letter.topic).filterMap Exchange.sent?

/-- A row after calls for the ids. -/
def rowAfter (ids : List String) (time : String → Int64) (x : Row) : Row :=
  if x.letter.id ∈ ids ∧ x.letter.reprocessed = false then
    { x with letter := x.letter.close (s.resultOf reply x.letter) (time x.letter.id) }
  else x

variable {s reply} {ids : List String} {time : String → Int64} {x : Row}

theorem toldOf_one (id : String) (found : Option Row) :
    s.toldOf reply id 1 found = entry (s.returnedOf reply id found) := if_pos rfl

/-- An id that is called more than once is told of as closed, or as not found. -/
theorem toldOf_some_of_ne {n : Nat} (h : n ≠ 1) (id : String) (x : Row) :
    s.toldOf reply id n (some x) = s.resultOf reply x.letter := if_neg h

theorem toldOf_none (id : String) (n : Nat) :
    s.toldOf reply id n none = entry (.error (.notFound id)) := ite_self _

theorem resultOf_pending {l : DeadLetter} (h : l.reprocessed = false) :
    s.resultOf reply l = (s.replayOf reply l).result l.topic := by
  simp [resultOf, h]

theorem resultOf_closed {l : DeadLetter} (h : l.reprocessed = true) :
    s.resultOf reply l = l.recoveryResult.getD "" := if_pos h

theorem rowAfter_of_mem (hid : x.letter.id ∈ ids) (h : x.letter.reprocessed = false) :
    s.rowAfter reply ids time x =
      { x with letter := x.letter.close (s.resultOf reply x.letter) (time x.letter.id) } :=
  if_pos ⟨hid, h⟩

theorem rowAfter_of_not_mem (hid : x.letter.id ∉ ids) : s.rowAfter reply ids time x = x :=
  if_neg fun h => hid h.1

theorem rowAfter_of_closed (h : x.letter.reprocessed = true) : s.rowAfter reply ids time x = x :=
  if_neg fun hp => by simp [h] at hp

/-- Rows that no call is for, or that are closed, are left. -/
theorem map_rowAfter_of_left {rows : List Row}
    (h : ∀ x ∈ rows, x.letter.id ∉ ids ∨ x.letter.reprocessed = true) :
    rows.map (s.rowAfter reply ids time) = rows := by
  refine (List.map_congr_left fun x hx => ?_).trans (List.map_id' rows)
  exact (h x hx).elim rowAfter_of_not_mem rowAfter_of_closed

theorem id_rowAfter (ids : List String) (time : String → Int64) (x : Row) :
    (s.rowAfter reply ids time x).letter.id = x.letter.id := by
  unfold rowAfter
  split <;> rfl

/-- Calls do not change the result that a dead letter has when it is closed. -/
theorem resultOf_rowAfter (ids : List String) (time : String → Int64) (x : Row) :
    s.resultOf reply (s.rowAfter reply ids time x).letter = s.resultOf reply x.letter := by
  unfold rowAfter
  split <;> rfl

/-- What has been called for is closed. -/
theorem reprocessed_rowAfter (hid : x.letter.id ∈ ids) :
    (s.rowAfter reply ids time x).letter.reprocessed = true := by
  cases h : x.letter.reprocessed with
  | true => rw [rowAfter_of_closed h, h]
  | false =>
    rw [rowAfter_of_mem hid h]
    rfl

theorem find?_rowAfter (ids : List String) (time : String → Int64) (id : String) (rows : List Row) :
    (rows.map (s.rowAfter reply ids time)).find? (hasId id) =
      (rows.find? (hasId id)).map (s.rowAfter reply ids time) := by
  rw [List.find?_map]
  congr 2
  funext x
  rw [Function.comp_apply, hasId, hasId, id_rowAfter]

/-- Calls for one id, and then for others. -/
theorem rowAfter_rowAfter (id : String) (now : Int64) (ids : List String) (time : String → Int64)
    (x : Row) :
    s.rowAfter reply ids time (s.rowAfter reply [id] (fun _ => now) x) =
      s.rowAfter reply (id :: ids) (fun j => if j = id then now else time j) x := by
  cases h : x.letter.reprocessed with
  | true => rw [rowAfter_of_closed h, rowAfter_of_closed h, rowAfter_of_closed h]
  | false =>
    by_cases hid : x.letter.id = id
    · have hone : x.letter.id ∈ [id] := List.mem_singleton.2 hid
      rw [rowAfter_of_closed (reprocessed_rowAfter hone), rowAfter_of_mem hone h,
        rowAfter_of_mem (hid ▸ List.mem_cons_self) h, if_pos hid]
    · rw [rowAfter_of_not_mem (mt List.mem_singleton.1 hid)]
      by_cases hmem : x.letter.id ∈ ids
      · rw [rowAfter_of_mem hmem h, rowAfter_of_mem (List.mem_cons_of_mem id hmem) h, if_neg hid]
      · rw [rowAfter_of_not_mem hmem, rowAfter_of_not_mem]
        exact fun hm => (List.mem_cons.1 hm).elim hid hmem

end Service

/-- Rows stay in order. -/
theorem Orderly.rowsAfter {s : Service} {reply : String → Except Transport.Error Unit}
    {rows : List Row} (h : Orderly rows) (ids : List String) (time : String → Int64) :
    Orderly (rows.map (s.rowAfter reply ids time)) where
  nodup := by simpa [Function.comp_def, Service.id_rowAfter] using h.nodup
  settled := by
    intro y hy
    obtain ⟨x, hx, rfl⟩ := List.mem_map.1 hy
    unfold Service.rowAfter
    split
    · exact .inr (DeadLetter.terminal_close _ _ _)
    · exact h.settled x hx
  legible := by
    intro y hy
    obtain ⟨x, hx, rfl⟩ := List.mem_map.1 hy
    unfold Service.rowAfter
    split <;> exact h.legible x hx

/-- The row with an id, in rows that are in order. -/
theorem Orderly.find?_of_mem {rows : List Row} (h : Orderly rows) {x : Row} (hx : x ∈ rows) :
    rows.find? (hasId x.letter.id) = some x := by
  obtain ⟨y, hy⟩ : ∃ y, rows.find? (hasId x.letter.id) = some y :=
    Option.isSome_iff_exists.1 (List.find?_isSome.2 ⟨x, hx, by simp [hasId]⟩)
  have hid : y.letter.id = x.letter.id := by simpa [hasId] using List.find?_some hy
  rw [hy, row_eq_of_id h (List.mem_of_find?_eq_some hy) hx hid]

section Calls

variable {env : Surroundings} {s : Service} {reply : String → Except Transport.Error Unit}
  {id : String} {ids : List String} {rows rows₁ rows' : List Row} {r : Except Failure String}
  {t u : List Exchange} {d₀ d : Dictionary String}

/-- One call, said of the rows at first. -/
theorem Reprocesses.first (h : Reprocesses env s id rows r t rows') (hreply : env.Replying reply)
    (ho : Orderly rows) :
    (∃ now, rows' = rows.map (s.rowAfter reply [id] fun _ => now)) ∧
      r = s.returnedOf reply id (rows.find? (hasId id)) ∧
      t.filterMap Exchange.sent? = s.sentOf reply (rows.find? (hasId id)) := by
  cases h with
  | absent hnone =>
    have hfind : rows.find? (hasId id) = none := by simpa [hasId] using hnone
    rw [hfind]
    refine ⟨⟨0, (Service.map_rowAfter_of_left fun x hx => .inl ?_).symm⟩, rfl, rfl⟩
    simpa using hnone x hx
  | @closed _ l result hl hid hterminal hresult =>
    subst hid
    rw [ho.find?_of_mem hl, Service.returnedOf, Service.sentOf, if_pos hterminal.reprocessed,
      if_pos hterminal.reprocessed]
    refine ⟨⟨0, (Service.map_rowAfter_of_left fun x hx => ?_).symm⟩, by simp [hresult], rfl⟩
    by_cases hx' : x.letter.id = l.id
    · exact .inr (row_eq_of_id ho hx hl hx' ▸ hterminal.reprocessed)
    · exact .inl (by simpa using hx')
  | @pending before behind l reply' o m n hid hp hr hturnout =>
    subst hid
    obtain rfl : reply' = reply l.topic := Option.some.inj (hr.symm.trans (hreply m l.topic))
    obtain rfl : s.replayOf reply l = o := hturnout
    have hfind : (before ++ ({ letter := l } : Row) :: behind).find? (hasId l.id) =
        some { letter := l } := ho.find?_of_mem (x := { letter := l }) (by simp)
    rw [hfind, Service.returnedOf, Service.sentOf, if_neg (by simp [hp.reprocessed]),
      if_neg (by simp [hp.reprocessed])]
    refine ⟨⟨env.clock n, ?_⟩, rfl, ?_⟩
    · have others : ∀ x, x ∈ before ∨ x ∈ behind → x.letter.id ∉ [l.id] := fun x hx => by
        simpa using ho.ne_of_split hx
      rw [List.map_append, List.map_cons,
        Service.map_rowAfter_of_left fun x hx => .inl (others x (.inl hx)),
        Service.map_rowAfter_of_left fun x hx => .inl (others x (.inr hx)),
        Service.rowAfter_of_mem (List.mem_singleton_self l.id) hp.reprocessed,
        Service.resultOf_pending hp.reprocessed]
    · rw [List.filterMap_append, List.filterMap_cons_none rfl]
      exact List.append_nil _

/-- What a list of calls comes to, on rows in order: what is told, over what has been told at first,
how the rows are left, and what is sent if no id is there twice. -/
structure ReprocessesAll (s : Service) (reply : String → Except Transport.Error Unit)
    (ids : List String) (rows : List Row) (d₀ d : Dictionary String) (t : List Exchange)
    (rows' : List Row) : Prop where
  told : ∀ id, d.find? id = if id ∈ ids then
    some (s.toldOf reply id (ids.count id) (rows.find? (hasId id))) else d₀.find? id
  left : ∃ time, rows' = rows.map (s.rowAfter reply ids time)
  sent : ids.Nodup → t.filterMap Exchange.sent? =
    ids.flatMap fun id => s.sentOf reply (rows.find? (hasId id))

theorem ReprocessesAll.nil (s : Service) (reply : String → Except Transport.Error Unit)
    (rows : List Row) (d : Dictionary String) : ReprocessesAll s reply [] rows d d [] rows where
  told := by simp
  left := ⟨fun _ => 0, (Service.map_rowAfter_of_left fun _ _ => .inl List.not_mem_nil).symm⟩
  sent _ := rfl

/-- A call for an id that is called again does not change what is told of it. -/
theorem Service.toldOf_again (hid : id ∈ ids) (time : String → Int64)
    {found : Option Row} (hfound : ∀ x, found = some x → x.letter.id = id) :
    s.toldOf reply id (ids.count id) (found.map (s.rowAfter reply [id] time)) =
      s.toldOf reply id ((id :: ids).count id) found := by
  have hcount : (id :: ids).count id ≠ 1 := by
    have hpos := List.count_pos_iff.2 hid
    rw [List.count_cons_self]
    omega
  cases found with
  | none => rw [Option.map_none, toldOf_none, toldOf_none]
  | some x =>
    have hclosed : (s.rowAfter reply [id] time x).letter.reprocessed = true :=
      reprocessed_rowAfter (by simpa using hfound x rfl)
    rw [Option.map_some, toldOf_some_of_ne hcount, ← resultOf_rowAfter [id] time x]
    by_cases hone : ids.count id = 1
    · rw [hone, toldOf_one, returnedOf, if_pos hclosed, resultOf_closed hclosed]
      rfl
    · exact toldOf_some_of_ne hone id _

/-- A call, and then a list of calls. -/
theorem ReprocessesAll.cons (h : Reprocesses env s id rows r t rows₁)
    (hreply : env.Replying reply) (ho : Orderly rows)
    (hrest : ReprocessesAll s reply ids rows₁ (d₀.insert id (Service.entry r)) d u rows') :
    ReprocessesAll s reply (id :: ids) rows d₀ d (t ++ u) rows' := by
  obtain ⟨⟨now, rfl⟩, rfl, hsent⟩ := h.first hreply ho
  have hfound : ∀ {j x}, rows.find? (hasId j) = some x → x.letter.id = j := fun hx => by
    simpa [hasId] using List.find?_some hx
  -- A call for one id leaves the rows of the others.
  have others : ∀ {j}, j ≠ id → (rows.find? (hasId j)).map
      (s.rowAfter reply [id] fun _ => now) = rows.find? (hasId j) := by
    intro j hj
    cases hx : rows.find? (hasId j) with
    | none => rfl
    | some x =>
      rw [Option.map_some, Service.rowAfter_of_not_mem (by simpa [hfound hx] using hj)]
  refine ⟨fun j => ?_, ?_, fun hnodup => ?_⟩
  · rw [hrest.told, Service.find?_rowAfter, Dictionary.find?_insert]
    by_cases hj : j = id
    · subst hj
      by_cases hmem : j ∈ ids
      · rw [if_pos hmem, if_pos List.mem_cons_self,
          Service.toldOf_again hmem _ fun x => hfound]
      · rw [if_neg hmem, if_pos rfl, if_pos List.mem_cons_self, List.count_cons_self,
          List.count_eq_zero_of_not_mem hmem, Service.toldOf_one]
    · rw [others hj, if_neg hj, List.count_cons_of_ne (Ne.symm hj)]
      simp only [List.mem_cons, hj, false_or]
  · obtain ⟨time, rfl⟩ := hrest.left
    refine ⟨fun j => if j = id then now else time j, ?_⟩
    rw [List.map_map]
    exact List.map_congr_left fun x _ => Service.rowAfter_rowAfter id now ids time x
  · obtain ⟨hnot, hnodup⟩ := List.nodup_cons.1 hnodup
    rw [List.filterMap_append, hsent, hrest.sent hnodup, List.flatMap_cons]
    congr 1
    refine List.flatMap_congr fun j hj => ?_
    rw [Service.find?_rowAfter, others]
    rintro rfl
    exact hnot hj

end Calls

/-- A list of calls comes to what is said of it. -/
theorem World.exists_reprocessAll {env : Surroundings} {w : World} (s : Service)
    {reply : String → Except Transport.Error Unit} {rows : List Row} (ids : List String)
    (hw : Working env w.store) (ho : Orderly w.store.rows) (hrows : w.store.letters = some rows)
    (hreply : env.Replying reply) :
    ∃ d t rows' w', w.Yields env (s.reprocessAll ids) d t w' ∧
      ReprocessesAll s reply ids rows .empty d t rows' ∧
      w'.store = { w.store with letters := some rows' } := by
  suffices hs : ∀ d₀, ∃ d t rows' w', w.Yields env (Service.reprocessAll.go s ids d₀) d t w' ∧
      ReprocessesAll s reply ids rows d₀ d t rows' ∧
      w'.store = { w.store with letters := some rows' } from hs .empty
  induction ids generalizing w rows with
  | nil =>
    intro d₀
    refine ⟨d₀, [], rows, w, yields_done env w d₀, .nil s reply rows d₀, ?_⟩
    rw [← hrows]
  | cons id ids ih =>
    intro d₀
    obtain ⟨r, t, rows₁, w₁, hfirst, hr, hs₁⟩ :=
      exists_reprocess s id hw ho hrows hreply.replies
    rw [rows_of_letters hrows] at ho
    obtain ⟨⟨now, hrows₁⟩, -, -⟩ := hr.first hreply ho
    have hletters : w₁.store.letters = some rows₁ := by rw [hs₁]
    have hw₁ : Working env w₁.store := by
      rw [hs₁]
      exact ⟨hw.accepts, hw.closed, hw.update, hw.delete⟩
    have ho₁ : Orderly w₁.store.rows := by
      rw [rows_of_letters hletters, hrows₁]
      exact ho.rowsAfter [id] fun _ => now
    obtain ⟨d, u, rows', w', hrest, hall, hs'⟩ :=
      ih hw₁ ho₁ hletters (d₀.insert id (Service.entry r))
    refine ⟨d, t ++ u, rows', w', hfirst.bind hrest, .cons hr hreply ho hall, ?_⟩
    rw [hs', hs₁]

/-! ## Any order -/

/-- A row without the time of its reprocessing. -/
def Store.Row.undated (x : Row) : Row :=
  { x with letter := { x.letter with reprocessedAt := x.letter.reprocessedAt.map fun _ => 0 } }

/-- What a list of calls has told, and what it has left of the rows.  Each dead letter that it was
called for is closed and told of with its result; that is an error if the only call has closed it
because its payload cannot be read. -/
structure Answered (rows : List Row) (ids : List String) (d : Dictionary String)
    (rows' : List Row) : Prop where
  keys : ∀ id, id ∈ d.keys ↔ id ∈ ids
  absent : ∀ id ∈ ids, (∀ x ∈ rows, x.letter.id ≠ id) →
    d.find? id = some ("Error: dead letter not found: " ++ id)
  present : ∀ x ∈ rows, x.letter.id ∈ ids → ∃ x' ∈ rows', x.letter.Continues x'.letter ∧
    x'.letter.Terminal ∧ ∃ result, x'.letter.recoveryResult = some result ∧
      d.find? x.letter.id = some (if ids.count x.letter.id = 1 ∧ x.letter.reprocessed = false ∧
        (Json.parseValue x.letter.payload).isOk = false then "Error: validation error: " ++ result
        else result)

section AnyOrder

variable {s : Service} {reply : String → Except Transport.Error Unit} {ids ids' : List String}
  {rows rows' rows'' : List Row} {d d' : Dictionary String} {t t' : List Exchange} {x : Row}

namespace Service

theorem entry_error (kind : Kind) (detail : String) :
    entry (.error ⟨kind, detail⟩) = "Error: " ++ kind.heading ++ ": " ++ detail := by
  rw [entry, Failure.message]
  simp only [String.append_assoc]

/-- What is told of a dead letter is its result, or that its payload cannot be read. -/
theorem toldOf_some (id : String) (n : Nat) : s.toldOf reply id n (some x) =
    if n = 1 ∧ x.letter.reprocessed = false ∧ (Json.parseValue x.letter.payload).isOk = false then
      "Error: validation error: " ++ s.resultOf reply x.letter
    else s.resultOf reply x.letter := by
  by_cases hn : n = 1
  · rw [hn, toldOf_one, returnedOf]
    cases hx : x.letter.reprocessed with
    | true =>
      rw [if_pos rfl, if_neg (by simp), resultOf_closed hx]
      rfl
    | false =>
      rw [if_neg Bool.false_ne_true, resultOf_pending hx]
      cases hp : Json.parseValue x.letter.payload with
      | ok payload =>
        rw [if_neg (by simp [Except.isOk, Except.toBool]), replayOf, s.returned_turnout hp]
        rfl
      | error e =>
        have hturnout : s.replayOf reply x.letter = .unreadable e := by
          simp only [replayOf, turnout, hp]
        rw [if_pos ⟨rfl, rfl, rfl⟩, hturnout]
        exact entry_error .validation _
  · rw [toldOf_some_of_ne hn, if_neg fun h => hn h.1]

/-- A dead letter that has been called for has its result. -/
theorem recoveryResult_rowAfter (hid : x.letter.id ∈ ids)
    (hx : x.letter.Pending ∨ x.letter.Terminal) (time : String → Int64) :
    (s.rowAfter reply ids time x).letter.Terminal ∧
      (s.rowAfter reply ids time x).letter.recoveryResult = some (s.resultOf reply x.letter) := by
  rcases hx with hp | ht
  · rw [rowAfter_of_mem hid hp.reprocessed]
    exact ⟨DeadLetter.terminal_close _ _ _, rfl⟩
  · obtain ⟨result, hresult⟩ := Option.isSome_iff_exists.1 ht.recoveryResult
    rw [rowAfter_of_closed ht.reprocessed, resultOf_closed ht.reprocessed, hresult]
    exact ⟨ht, rfl⟩

theorem continues_rowAfter (ids : List String) (time : String → Int64) (x : Row) :
    x.letter.Continues (s.rowAfter reply ids time x).letter := by
  unfold rowAfter
  split
  · next h => exact DeadLetter.continues_close h.2 _ _
  · exact .refl _

/-- But for times, a row is left as it is by calls for the same ids. -/
theorem undated_rowAfter (h : x.letter.id ∈ ids' ↔ x.letter.id ∈ ids)
    (time time' : String → Int64) :
    (s.rowAfter reply ids' time' x).undated = (s.rowAfter reply ids time x).undated := by
  unfold rowAfter
  simp only [h]
  split <;> rfl

end Service

namespace ReprocessesAll

theorem answered (h : ReprocessesAll s reply ids rows .empty d t rows')
    (hkeys : ∀ id, id ∈ d.keys ↔ id ∈ ids) (ho : Orderly rows) : Answered rows ids d rows' where
  keys := hkeys
  absent id hid hnone := by
    have hfind : rows.find? (hasId id) = none := by simpa [hasId] using hnone
    rw [h.told, if_pos hid, hfind, Service.toldOf_none]
    exact congrArg some (Service.entry_error .notFound id)
  present x hx hid := by
    obtain ⟨time, rfl⟩ := h.left
    obtain ⟨hterminal, hresult⟩ := Service.recoveryResult_rowAfter hid (ho.settled x hx) time
    refine ⟨_, List.mem_map_of_mem hx, Service.continues_rowAfter ids time x, hterminal, _,
      hresult, ?_⟩
    rw [h.told, if_pos hid, ho.find?_of_mem hx, Service.toldOf_some]

/-- The order of the ids does not matter to what is told. -/
theorem eq_of_perm (h : ReprocessesAll s reply ids rows .empty d t rows')
    (h' : ReprocessesAll s reply ids' rows .empty d' t' rows'') (hp : ids'.Perm ids) : d' = d := by
  have hfind : ∀ id, Entries.find? id d'.entries = Entries.find? id d.entries := by
    intro id
    have hsame : d'.find? id = d.find? id := by
      rw [h.told, h'.told, hp.count_eq]
      simp only [hp.mem_iff]
    exact hsame
  have hentries := Entries.ext_of_sorted d'.sorted d.sorted hfind
  cases d
  cases d'
  cases hentries
  rfl

/-- Nor to the rows that are left. -/
theorem undated_of_perm (h : ReprocessesAll s reply ids rows .empty d t rows')
    (h' : ReprocessesAll s reply ids' rows .empty d' t' rows'') (hp : ids'.Perm ids) :
    rows''.map Row.undated = rows'.map Row.undated := by
  obtain ⟨time, rfl⟩ := h.left
  obtain ⟨time', rfl⟩ := h'.left
  rw [List.map_map, List.map_map]
  exact List.map_congr_left fun x _ => Service.undated_rowAfter hp.mem_iff time time'

/-- Nor to what is sent, but for its order. -/
theorem sent_perm (h : ReprocessesAll s reply ids rows .empty d t rows')
    (h' : ReprocessesAll s reply ids' rows .empty d' t' rows'') (hp : ids'.Perm ids)
    (hn : ids.Nodup) : (t'.filterMap Exchange.sent?).Perm (t.filterMap Exchange.sent?) := by
  rw [h.sent hn, h'.sent (hp.nodup_iff.2 hn)]
  exact hp.flatMap_right _

end ReprocessesAll

/-- What is sent is exchanged with the queues. -/
theorem filterMap_sent?_only (t : List Exchange) :
    (only Request.isOutward t).filterMap Exchange.sent? = t.filterMap Exchange.sent? := by
  rw [only, List.filterMap_filter]
  refine List.filterMap_congr fun x _ => ?_
  obtain ⟨r, a⟩ := x
  cases r <;> rfl

theorem World.Yields.sent {α : Type} {env : Surroundings} {w w' : World} {p : Program α} {a : α}
    {t : List Exchange} (h : w.Yields env p a t w') : w'.journal.filterMap Exchange.sent? =
      w.journal.filterMap Exchange.sent? ++ t.filterMap Exchange.sent? := by
  rw [← filterMap_sent?_only, h.outward, List.filterMap_append, filterMap_sent?_only]

end AnyOrder

/-- With a store that answers, a list of calls hangs exactly at the first of them whose replay is not
answered, and otherwise it has an entry for each of its ids and no other, whatever the store fails.
With a store that works and a transport that replies to each topic always in the same way, it tells
of each dead letter as it has closed it; and in any surroundings with these replies the ids, if no
one is there twice, come to the same in any order, but for times and the order of publications. -/
theorem reprocessAll_in_any_order (s : Service) (ids : List String) :
    (∀ (env : Surroundings) (w : World), (∀ n q, env.store n q ≠ .silent) →
      ((w.run env (s.reprocessAll ids)).1 = none ↔ ∃ us id vs d w', ids = us ++ id :: vs ∧
        w.run env (s.reprocessAll us) = (some d, w') ∧ s.Stalls env w' id) ∧
      (env.Replies → ∃ d, (w.run env (s.reprocessAll ids)).1 = some d) ∧
      ∀ d w', w.run env (s.reprocessAll ids) = (some d, w') → ∀ id, id ∈ d.keys ↔ id ∈ ids) ∧
    ∀ (reply : String → Except Transport.Error Unit) (env : Surroundings) (w : World)
      (ops : List Operation) (s₀ : Store) (t : List Event),
      SideBySide (ops.map Operation.thread) s₀ t w.store → s₀.rows = [] →
      w.store.letters.isSome = true → Working env w.store → env.Replying reply →
      ∃ d w', w.run env (s.reprocessAll ids) = (some d, w') ∧
        Answered w.store.rows ids d w'.store.rows ∧
        ∀ (env' : Surroundings) (ids' : List String), Working env' w.store →
          env'.Replying reply → ids.Nodup → ids'.Perm ids →
          ∃ w'', w.run env' (s.reprocessAll ids') = (some d, w'') ∧
            w''.store.rows.map Row.undated = w'.store.rows.map Row.undated ∧
            (w''.journal.filterMap Exchange.sent?).Perm
              (w'.journal.filterMap Exchange.sent?) := by
  refine ⟨fun env w hstore => ⟨s.reprocessAll_eq_none_iff hstore ids, fun hreply => ?_,
    fun d w' => Service.mem_keys_reprocessAll⟩, ?_⟩
  · refine Option.ne_none_iff_exists'.1 fun hnone => ?_
    obtain ⟨us, id, vs, d, w', -, -, l, -, -, hstalls⟩ :=
      (s.reprocessAll_eq_none_iff hstore ids).1 hnone
    exact hreply _ _ hstalls.silent
  intro reply env w ops s₀ t h h0 htable hw hreply
  have ho : Orderly w.store.rows :=
    orderly_of_empty (u := []) (by rwa [List.append_nil]) h.history h0
  obtain ⟨rows, hrows⟩ := Option.isSome_iff_exists.1 htable
  rw [rows_of_letters hrows] at ho ⊢
  have calls : ∀ {env : Surroundings} (ids : List String), Working env w.store →
      env.Replying reply → ∃ d t w', w.Yields env (s.reprocessAll ids) d t w' ∧
        ReprocessesAll s reply ids rows .empty d t w'.store.rows := by
    intro env ids hw hreply
    rw [← rows_of_letters hrows] at ho
    obtain ⟨d, t, rows', w', hyields, hall, hs⟩ :=
      World.exists_reprocessAll s ids hw ho hrows hreply
    have hrows' : w'.store.rows = rows' := rows_of_letters (congrArg Store.letters hs)
    exact ⟨d, t, w', hyields, hrows'.symm ▸ hall⟩
  obtain ⟨d, t, w', hyields, hall⟩ := calls ids hw hreply
  refine ⟨d, w', hyields.run, hall.answered (Service.mem_keys_reprocessAll hyields.run) ho,
    fun env' ids' hw' hreply' hn hp => ?_⟩
  obtain ⟨d', t', w'', hyields', hall'⟩ := calls ids' hw' hreply'
  obtain rfl := hall.eq_of_perm hall' hp
  refine ⟨w'', hyields'.run, hall.undated_of_perm hall' hp, ?_⟩
  rw [hyields'.sent, hyields.sent]
  exact (hall.sent_perm hall' hp hn).append_left _

/-- A world with two pending dead letters: an upload, and a payload that cannot be read. -/
def World.pendings : World :=
  Operation.sequence Router.calm (.new .fresh) [.store .uploading ⟨"m", Topic.Upload.topic,
    "ProcessingError", "no", 1, .capture (Topic.Upload.sample 1).text, some 0⟩,
    .store .uploading .unreadable]

def Surroundings.broken : Surroundings :=
  { Router.calm with store := fun _ _ => .fails .closed }

/-- One is replayed, one cannot be read, and a third is not there, in whatever order; and if all
queries fail, each id has its entry all the same. -/
theorem reprocessAll_in_any_order_pendings :
    ∃ d w w', World.pendings.run Router.calm (Service.uploading.reprocessAll ["1", "9", "8"]) =
        (some d, w) ∧
      World.pendings.run Router.calm (Service.uploading.reprocessAll ["8", "1", "9"]) =
        (some d, w') ∧
      d.entries = [("1", "Replayed to topic ingest"),
        ("8", "Error: validation error: Payload deserialization failed: " ++
          "expected value at line 1 column 2"),
        ("9", "Error: dead letter not found: 9")] ∧
      w'.store.rows.map Row.undated = w.store.rows.map Row.undated ∧
      ∃ d', (World.pendings.run .broken (Service.uploading.reprocessAll ["1", "9", "8"])).1 =
        some d' ∧ ∀ id, id ∈ d'.keys ↔ id ∈ ["1", "9", "8"] := by
  obtain ⟨t, u, h, -⟩ := Operation.sequence_history Router.calm (.new .fresh)
    [.store .uploading ⟨"m", Topic.Upload.topic, "ProcessingError", "no", 1,
      .capture (Topic.Upload.sample 1).text, some 0⟩, .store .uploading .unreadable] []
  have hw : Working Router.calm World.pendings.store :=
    ⟨fun _ _ => rfl, by decide +kernel, by decide +kernel, by decide +kernel⟩
  have htable : World.pendings.store.letters.isSome = true := by decide +kernel
  have hreply : Router.calm.Replying fun _ => .ok () := fun _ _ => rfl
  obtain ⟨hany, hall⟩ := reprocessAll_in_any_order .uploading ["1", "9", "8"]
  obtain ⟨d, w, hrun, -, hperm⟩ :=
    hall _ Router.calm World.pendings _ _ _ h rfl htable hw hreply
  obtain ⟨w', hrun', hrows, -⟩ :=
    hperm Router.calm ["8", "1", "9"] hw hreply (by decide) (by decide)
  have hentries : (World.pendings.run Router.calm
      (Service.uploading.reprocessAll ["1", "9", "8"])).1.map Dictionary.entries =
    some [("1", "Replayed to topic ingest"),
      ("8", "Error: validation error: Payload deserialization failed: " ++
        "expected value at line 1 column 2"),
      ("9", "Error: dead letter not found: 9")] := by
    decide +kernel
  rw [hrun] at hentries
  obtain ⟨-, hresult, hkeys⟩ := hany .broken World.pendings fun _ _ => nofun
  obtain ⟨d', hd'⟩ := hresult fun _ _ => nofun
  exact ⟨d, w, w', hrun, hrun', Option.some.inj hentries, hrows, d', hd',
    hkeys d' _ (Prod.ext hd' rfl)⟩

/-- A transport that never replies to any topic keeps a list of calls waiting for ever. -/
theorem reprocessAll_hangs_mute :
    (∀ n q, mute.store n q ≠ .silent) ∧ (∀ n topic, mute.send n topic = .silent) ∧
      (pendingUpload.run mute (Service.uploading.reprocessAll ["1"])).1.isNone = true :=
  ⟨nofun, fun _ _ => rfl, by decide +kernel⟩

end DeadLetters
