import DeadLetters.Proofs.Handling
import DeadLetters.Proofs.Operation

/-!
# The life of a dead letter

Operations of all kinds run side by side on a store that holds no dead letters at first, and any of
their queries may fail.  In each state that is reached, ids are unique and every dead letter is
pending or closed as a whole.  From a state to a later one a dead letter goes on: what was stored of
the failure stays, and if it is closed, all of it stays.  It goes away by a purge that selects it,
and not otherwise.

    every state is orderly                                                  (orderly_of_empty)
    a dead letter goes on, or is purged                                          (fate_of_row)
    a dead letter with the id of an earlier one goes on from it             (continues_of_id)
-/

namespace DeadLetters

open Store

variable {ops : List Operation} {s s₁ s₂ : Store} {t u : List Event}

theorem orderly_nil : Orderly [] := ⟨by simp, by simp, by simp⟩

/-- The invariant holds along every run. -/
theorem orderly_of_empty (h : SideBySide (ops.map Operation.thread) s (t ++ u) s₂)
    (h₁ : History s t s₁) (h0 : s.rows = []) : Orderly s₁.rows := by
  refine h₁.along (P := fun _ m => Orderly m.rows) (by rw [h0]; exact orderly_nil) ?_
  intro past e rest ht ho hreacts
  obtain ⟨o, -, ha⟩ := Operation.allows_of_mem h (e := e) (by simp [ht])
  exact hreacts.moves.orderly ha.insert ho

/-- The event purges a dead letter: it deletes by the filter of its purge, which selects it. -/
structure Purges (ops : List Operation) (e : Event) (l : DeadLetter) : Prop where
  purge : ∃ service f, ops[e.thread]? = some (.purge service f) ∧
    e.request = .store (.delete f) ∧ f.selects l = true
  before : ∃ y ∈ e.before.rows, y.letter = l
  after : ∀ y ∈ e.after.rows, y.letter ≠ l

theorem fate_of_row (h : SideBySide (ops.map Operation.thread) s (t ++ u) s₂)
    (h₂ : History s₁ u s₂) {x : Row} (hx : x ∈ s₁.rows) :
    (∃ y ∈ s₂.rows, x.letter.Continues y.letter) ∨
      ∃ e ∈ u, ∃ l, x.letter.Continues l ∧ Purges ops e l := by
  refine h₂.along (P := fun past m => (∃ y ∈ m.rows, x.letter.Continues y.letter) ∨
    ∃ e ∈ past, ∃ l, x.letter.Continues l ∧ Purges ops e l) (.inl ⟨x, hx, .refl _⟩) ?_
  intro past e rest hu hpast hreacts
  rcases hpast with ⟨y, hy, hc⟩ | ⟨e', he', l, hl⟩
  · rcases hreacts.moves.fate hy with ⟨y', hy', hc'⟩ | ⟨f, hf, hsel, hgone⟩
    · exact .inl ⟨y', hy', hc.trans hc'⟩
    · obtain ⟨o, ho, ha⟩ := Operation.allows_of_mem h (e := e) (by simp [hu])
      obtain ⟨service, rfl⟩ := ha.delete f hf
      exact .inr ⟨e, by simp, y.letter, hc, ⟨service, f, ho, hf, hsel⟩, ⟨y, hy, rfl⟩, hgone⟩
  · exact .inr ⟨e', by simp [he'], l, hl⟩

/-- Where a dead letter comes from: it was there, or it has been inserted since. -/
theorem origin_of_row (h₂ : History s₁ u s₂) {y : Row} (hy : y ∈ s₂.rows) :
    (∃ x ∈ s₁.rows, x.letter.Continues y.letter) ∨
      ∃ e ∈ u, ∃ l, e.request = .store (.insert l) ∧ l.id = y.letter.id := by
  refine h₂.along (P := fun past m => ∀ y ∈ m.rows,
    (∃ x ∈ s₁.rows, x.letter.Continues y.letter) ∨
      ∃ e ∈ past, ∃ l, e.request = .store (.insert l) ∧ l.id = y.letter.id)
    (fun y hy => .inl ⟨y, hy, .refl _⟩) ?_ y hy
  intro past e rest _ hpast hreacts y hy
  rcases hreacts.moves.origin hy with ⟨x, hx, hc⟩ | hr
  · rcases hpast x hx with ⟨x', hx', hc'⟩ | ⟨e', he', l, hl, hid⟩
    · exact .inl ⟨x', hx', hc'.trans hc⟩
    · exact .inr ⟨e', by simp [he'], l, hl, hid.trans hc.id.symm⟩
  · exact .inr ⟨e, by simp, y.letter, hr, rfl⟩

/-- An id stands for one dead letter, as long as it is not inserted anew. -/
theorem continues_of_id (ho : Orderly s₁.rows) (h₂ : History s₁ u s₂) {x y : Row}
    (hx : x ∈ s₁.rows) (hy : y ∈ s₂.rows) (hid : y.letter.id = x.letter.id)
    (hnew : ∀ e ∈ u, ∀ l, e.request = .store (.insert l) → l.id ≠ x.letter.id) :
    x.letter.Continues y.letter := by
  rcases origin_of_row h₂ hy with ⟨x', hx', hc⟩ | ⟨e, he, l, hl, hli⟩
  · obtain rfl : x' = x := by
      refine List.inj_on_of_nodup_map ho.nodup hx' hx ?_
      show x'.letter.id = x.letter.id
      rw [← hc.id, hid]
    exact hc
  · exact absurd (hli.trans hid) (hnew e he l hl)

/-- The life of dead letters, from a state that a run of operations reaches to a later one. -/
theorem lifecycle (h : SideBySide (ops.map Operation.thread) s (t ++ u) s₂) (h₁ : History s t s₁)
    (h₂ : History s₁ u s₂) (h0 : s.rows = []) :
    Orderly s₁.rows ∧
      (∀ x ∈ s₁.rows, (∃ y ∈ s₂.rows, x.letter.Continues y.letter) ∨
        ∃ e ∈ u, ∃ l, x.letter.Continues l ∧ Purges ops e l) ∧
      ∀ x ∈ s₁.rows, ∀ y ∈ s₂.rows, y.letter.id = x.letter.id →
        (∀ e ∈ u, ∀ l, e.request = .store (.insert l) → l.id ≠ x.letter.id) →
        x.letter.Continues y.letter := by
  have ho := orderly_of_empty h h₁ h0
  refine ⟨ho, fun x hx => fate_of_row h h₂ hx, fun x hx y hy hid hnew => ?_⟩
  exact continues_of_id ho h₂ hx hy hid hnew

def Draft.sample : Draft := ⟨"m", "t", "ProcessingError", "no", 1, .text "no", some 0⟩

/-- A dead letter that is stored by one operation, and closed by another. -/
theorem lifecycle_closed :
    ∃ t u s₁ s₂, SideBySide (List.map Operation.thread
        [.store (.ofConfig {}) .sample, .markReprocessed (.ofConfig {}) "1" "done"])
        .fresh (t ++ u) s₂ ∧ History .fresh t s₁ ∧ History s₁ u s₂ ∧
      ∃ x ∈ s₁.rows, x.letter.Pending ∧ ∃ y ∈ s₂.rows, x.letter.Continues y.letter ∧
        y.letter.recoveryResult = some "done" := by
  obtain ⟨t, u, h, h₁, h₂⟩ := Operation.sequence_history Router.calm (.new .fresh)
    [.store (.ofConfig {}) .sample] [.markReprocessed (.ofConfig {}) "1" "done"]
  have hlife := lifecycle h h₁ h₂ rfl
  refine ⟨t, u, _, _, h, h₁, h₂, ?_⟩
  have hrows₁ : (Operation.sequence Router.calm (.new .fresh)
      [.store (.ofConfig {}) .sample]).store.rows.map (fun x => x.letter.reprocessed) =
        [false] := by
    decide +kernel
  have hrows₂ : (Operation.sequence Router.calm (.new .fresh) ([.store (.ofConfig {}) .sample] ++
      [.markReprocessed (.ofConfig {}) "1" "done"])).store.rows.map
        (fun y => y.letter.recoveryResult) = [some "done"] := by
    decide +kernel
  obtain ⟨x, hx, hpending⟩ := List.mem_map.1 (hrows₁ ▸ List.mem_singleton_self false)
  refine ⟨x, hx, ?_, ?_⟩
  · rcases hlife.1.settled x hx with hp | ht
    · exact hp
    · rw [ht.reprocessed] at hpending
      cases hpending
  · rcases hlife.2.1 x hx with ⟨y, hy, hc⟩ | ⟨e, he, l, -, hpurge⟩
    · have hy' := List.mem_map_of_mem (f := fun y : Row => y.letter.recoveryResult) hy
      rw [hrows₂] at hy'
      exact ⟨y, hy, hc, List.mem_singleton.1 hy'⟩
    · obtain ⟨service, f, ho, -⟩ := hpurge.purge
      have hmem := List.mem_of_getElem? ho
      simp at hmem

end DeadLetters
