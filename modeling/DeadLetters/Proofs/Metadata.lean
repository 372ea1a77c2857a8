import DeadLetters.Proofs.Table

/-!
# The table of content metadata

What the two changes of content metadata make of its rows, and that nothing else changes them.  An
upload keeps the attributes that are there, a merge keeps all else; either leaves other content as it
is, and neither takes content away.

    findContent j (recorded c cs)  is the content c, or what was there with the facts of c
                                                                           (findContent_recorded)
    findContent j (patched id a now cs)  has the attributes a if j = id      (findContent_patched)
    an exchange that makes no write leaves the rows                     (contents_of_not_writes)
-/

namespace DeadLetters

/-- Whether a query is a change of content metadata. -/
def Store.Query.changesContents : Store.Query → Bool
  | .putContent _ | .mergeContent _ _ _ => true
  | _ => false

def Request.changesContents : Request → Bool
  | store q => q.changesContents
  | _ => false

/-- Whether an exchange is a change of content metadata that was made. -/
def Exchange.writes : Exchange → Bool
  | ⟨.store (.putContent _), some (.ok ())⟩ => true
  | ⟨.store (.mergeContent _ _ _), some (.ok true)⟩ => true
  | _ => false

theorem Exchange.not_writes {x : Exchange} (h : x.request.changesContents = false) :
    x.writes = false := by
  obtain ⟨r, a⟩ := x
  cases r with
  | store q => cases q <;> first | rfl | cases h
  | _ => rfl

def writes (t : List Exchange) : List Exchange := t.filter Exchange.writes

theorem writes_append (t u : List Exchange) : writes (t ++ u) = writes t ++ writes u :=
  List.filter_append t u

namespace Store

/-! ## Rows -/

def findContent (id : String) (cs : List Content) : Option Content := cs.find? fun c => c.id == id

/-- The rows after an upload. -/
def recorded (c : Content) (cs : List Content) : List Content :=
  if cs.any fun d => d.id == c.id then cs.map fun d => if d.id == c.id then d.refresh c else d
  else cs ++ [c]

/-- The rows with other attributes for an id. -/
def patched (id attributes : String) (time : Int64) (cs : List Content) : List Content :=
  cs.map fun d => if d.id == id then { d with attributes := attributes, updatedAt := time } else d

variable {s s' : Store} {c : Content} {cs : List Content} {id j patch attributes : String}
  {time : Int64}

/-- Rows that keep their ids are found as before. -/
theorem findContent_map (f : Content → Content) (hf : ∀ d, (f d).id = d.id) :
    findContent j (cs.map f) = (findContent j cs).map f := by
  have hid : ((fun d : Content => d.id == j) ∘ f) = fun d => d.id == j := by
    funext d
    rw [Function.comp_apply, hf]
  rw [findContent, List.find?_map, hid, findContent]

theorem findContent_eq_none_iff :
    findContent id cs = none ↔ (cs.any fun d => d.id == id) = false := by
  rw [findContent, List.find?_eq_none, List.any_eq_false]

theorem id_of_findContent (h : findContent id cs = some c) : c.id = id := by
  simpa using List.find?_some h

theorem findContent_recorded : findContent j (recorded c cs) =
    if j = c.id then some ((findContent j cs).elim c fun d => d.refresh c)
    else findContent j cs := by
  unfold recorded
  cases hany : cs.any fun d => d.id == c.id with
  | true =>
    have hkeep : ∀ d : Content, (if d.id == c.id then d.refresh c else d).id = d.id := by
      intro d
      split
      · next h => exact (beq_iff_eq.1 h).symm
      · rfl
    rw [if_pos rfl, findContent_map _ hkeep]
    cases hd : findContent j cs with
    | none =>
      have hj : j ≠ c.id := by
        rintro rfl
        simp [findContent_eq_none_iff.1 hd] at hany
      rw [if_neg hj]
      rfl
    | some d =>
      rw [Option.map_some, id_of_findContent hd]
      by_cases hj : j = c.id
      · rw [if_pos (beq_iff_eq.2 hj), if_pos hj]
        rfl
      · rw [if_neg (by simpa using hj), if_neg hj]
  | false =>
    rw [if_neg Bool.false_ne_true, findContent, List.find?_append, ← findContent]
    by_cases hj : j = c.id
    · rw [if_pos hj, hj, findContent_eq_none_iff.2 hany]
      simp
    · rw [if_neg hj]
      simp [Ne.symm hj]

theorem findContent_patched : findContent j (patched id attributes time cs) =
    (findContent j cs).map fun d =>
      if j = id then { d with attributes := attributes, updatedAt := time } else d := by
  have hkeep : ∀ d : Content,
      (if d.id == id then { d with attributes := attributes, updatedAt := time } else d).id =
        d.id := by
    intro d
    split <;> rfl
  rw [patched, findContent_map _ hkeep]
  cases hd : findContent j cs with
  | none => rfl
  | some d =>
    rw [Option.map_some, Option.map_some, id_of_findContent hd]
    simp

/-! ## Queries that are answered -/

theorem putContent_eq_ok_iff : s.putContent c = .ok ((), s') ↔
    ∃ cs, s.contents = some cs ∧ s' = { s with contents := some (recorded c cs) } := by
  rw [putContent, withContents]
  cases s.contents with
  | none => simp
  | some cs =>
    show Except.ok ((), { s with contents := some (recorded c cs) }) = .ok ((), s') ↔ _
    simp only [Except.ok.injEq, Prod.mk.injEq, true_and, Option.some.injEq, exists_eq_left']
    exact eq_comm

theorem mergeContent_eq_ok_iff {b : Bool} : s.mergeContent id patch time = .ok (b, s') ↔
    ∃ cs, s.contents = some cs ∧
      (findContent id cs = none ∧ b = false ∧ s' = s ∨
        ∃ c attributes, findContent id cs = some c ∧
          Json.patchText c.attributes patch = .ok attributes ∧ b = true ∧
          s' = { s with contents := some (patched id attributes time cs) }) := by
  rw [mergeContent, withContents]
  cases s.contents with
  | none => simp
  | some cs =>
    simp only [Option.some.injEq, exists_eq_left', findContent]
    cases hc : cs.find? fun c => c.id == id with
    | none => simp [eq_comm]
    | some c =>
      simp only [reduceCtorEq, false_and, Option.some.injEq, false_or]
      cases hp : Json.patchText c.attributes patch with
      | error f => cases f <;> simp [hp]
      | ok attributes =>
        show Except.ok (true, { s with contents := some (patched id attributes time cs) }) =
          .ok (b, s') ↔ _
        rw [Except.ok.injEq, Prod.mk.injEq]
        constructor
        · rintro ⟨hb, hs⟩
          exact ⟨c, attributes, rfl, hp, hb.symm, hs.symm⟩
        · rintro ⟨c', attributes', rfl, hp', hb, hs⟩
          rw [hp] at hp'
          cases hp'
          exact ⟨hb.symm, hs.symm⟩

/-! ## One step -/

/-- No query opens or closes the store, and few change the content metadata. -/
theorem answer_unchanged (s : Store) (q : Query) :
    (s.answer q).2.closed = s.closed ∧
      (q.changesContents = false → (s.answer q).2.contents = s.contents) := by
  cases ha : (s.answer q).1 with
  | error e =>
    rw [answer_of_error ha]
    exact ⟨rfl, fun _ => rfl⟩
  | ok a =>
    have hp := (answer_eq_ok_iff.1 (Prod.ext ha rfl : s.answer q = (.ok a, (s.answer q).2))).2
    cases q with
    | insert l =>
      obtain ⟨rows, -, -, -, hs⟩ := insert_eq_ok_iff.1 hp
      rw [hs]
      exact ⟨rfl, fun _ => rfl⟩
    | mark id result time =>
      obtain ⟨rows, -, -, -, hs⟩ := mark_eq_ok_iff.1 hp
      rw [hs]
      exact ⟨rfl, fun _ => rfl⟩
    | delete f =>
      obtain ⟨rows, -, -, -, hs⟩ := delete_eq_ok_iff.1 hp
      rw [hs]
      exact ⟨rfl, fun _ => rfl⟩
    | putContent c => exact ⟨(alike_putContent hp).closed, nofun⟩
    | mergeContent id patch time => exact ⟨(alike_mergeContent hp).closed, nofun⟩
    | get | list | count | countByTopic | countByError | getContent =>
      rw [(eq_of_map_eq_ok hp).2]
      exact ⟨rfl, fun _ => rfl⟩

end Store

section Step

variable {s s' : Store} {x : Exchange}

theorem Reacts.closed (h : Reacts s x s') : s'.closed = s.closed := by
  cases h with
  | answered q => exact (s.answer_unchanged q).1
  | lost q => exact (s.answer_unchanged q).1
  | refused | elsewhere => rfl

theorem Reacts.contents (h : Reacts s x s') (hx : x.request.changesContents = false) :
    s'.contents = s.contents := by
  cases h with
  | answered q => exact (s.answer_unchanged q).2 hx
  | lost q => exact (s.answer_unchanged q).2 hx
  | refused | elsewhere => rfl

end Step

/-- Changes of content metadata reach the store, and its answers come back. -/
def ContentsHeard (t : List Event) : Prop :=
  ∀ e ∈ t, ∀ q, e.request = .store q → q.changesContents = true →
    e.exchange = ⟨.store q, some (e.before.answer q).1⟩

/-- An exchange that is no write leaves the rows as they are. -/
theorem contents_of_not_writes {t : List Event} {e : Event} (h : ContentsHeard t) (he : e ∈ t)
    (hr : Reacts e.before e.exchange e.after) (hw : e.exchange.writes = false) :
    e.after.contents = e.before.contents := by
  cases hq : e.request.changesContents with
  | false => exact hr.contents hq
  | true =>
    obtain ⟨q, hreq⟩ : ∃ q, e.request = .store q := by
      cases hreq : e.request with
      | store q => exact ⟨q, rfl⟩
      | _ => simp [hreq, Request.changesContents] at hq
    have hx := h e he q hreq (by rwa [hreq] at hq)
    rw [hx] at hr hw
    cases ha : (e.before.answer q).1 with
    | error f =>
      have hsame := Store.answer_of_error ha
      rcases reacts_store_iff.1 hr with ⟨-, hs⟩ | ⟨-, hs | hs⟩ <;> rw [hs]
      · rw [hsame]
      · rw [hsame]
    | ok a =>
      rw [ha] at hr hw
      have hp := (Store.answer_eq_ok_iff.1 hr.answer_eq).2
      cases q with
      | putContent c => cases hw
      | mergeContent id patch time =>
        obtain ⟨cs, -, ⟨-, -, hs⟩ | ⟨c, attributes, -, -, rfl, -⟩⟩ :=
          Store.mergeContent_eq_ok_iff.1 hp
        · rw [hs]
        · cases hw
      | _ => simp [hreq, Request.changesContents, Store.Query.changesContents] at hq

end DeadLetters
