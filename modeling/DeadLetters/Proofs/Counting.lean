import DeadLetters.Proofs.Entries
import DeadLetters.Proofs.Table

/-!
# Counting dead letters

The store counts dead letters in two ways: those that a filter selects, and how many there are of
each name.  Both are exact, and since a dead letter is pending or closed as a whole, the closed ones
and the pending ones make up all of them.

    Tallies (tally names) names                                                   (tallies_tally)
    Orderly rows → pending + terminal = all                          (Orderly.pending_add_terminal)
-/

namespace DeadLetters

open Store

/-! ## How often each name occurs -/

/-- The dictionary has exactly the names that occur, and says how often each does. -/
structure Tallies (d : Dictionary Nat) (names : List String) : Prop where
  keys : ∀ n, n ∈ d.keys ↔ n ∈ names
  count : ∀ n ∈ names, d.find? n = some (names.count n)
  positive : ∀ e ∈ d.entries, 0 < e.2
  sum : (d.entries.map (·.2)).sum = names.length

namespace Store

/-- The dictionary knows the names counted so far. -/
structure Counted (d : Dictionary Nat) (names : List String) : Prop where
  find : ∀ n, d.find? n = if n ∈ names then some (names.count n) else none
  sum : (d.entries.map (·.2)).sum = names.length

theorem Counted.insert {d : Dictionary Nat} {names : List String} (h : Counted d names)
    (n : String) : Counted (d.insert n ((d.find? n).getD 0 + 1)) (names ++ [n]) := by
  have hn : (d.find? n).getD 0 = names.count n := by
    rw [h.find n]
    split
    · rfl
    · next hm => simp [List.count_eq_zero_of_not_mem hm]
  refine ⟨fun j => ?_, ?_⟩
  · rw [Dictionary.find?_insert, hn, h.find j]
    by_cases hj : j = n
    · simp [hj]
    · simp [hj, Ne.symm hj]
  · have hsum := Entries.sum_insert d.sorted n ((d.find? n).getD 0 + 1)
    have hold : (Entries.find? n d.entries).getD 0 = (d.find? n).getD 0 := rfl
    rw [List.length_append, List.length_singleton, ← h.sum]
    show ((Entries.insert n _ d.entries).map (·.2)).sum = _
    omega

theorem counted_tally (names : List String) : Counted (tally names) names := by
  suffices hs : ∀ (rest past : List String) (d : Dictionary Nat), Counted d past →
      Counted (rest.foldl (fun d n => d.insert n ((d.find? n).getD 0 + 1)) d) (past ++ rest) from
    hs names [] .empty ⟨fun _ => rfl, rfl⟩
  intro rest
  induction rest with
  | nil => exact fun past d h => by rwa [List.append_nil]
  | cons n rest ih =>
    intro past d h
    have := ih (past ++ [n]) _ (h.insert n)
    rwa [List.append_assoc] at this

theorem tallies_tally (names : List String) : Tallies (tally names) names := by
  have h := counted_tally names
  have hcount : ∀ n ∈ names, (tally names).find? n = some (names.count n) := fun n hn => by
    rw [h.find n, if_pos hn]
  have hkeys : ∀ n, n ∈ (tally names).keys ↔ n ∈ names := by
    intro n
    rw [← not_iff_not]
    refine Entries.find?_eq_none_iff.symm.trans ?_
    show (tally names).find? n = none ↔ n ∉ names
    rw [h.find n]
    simp
  refine ⟨hkeys, hcount, ?_, h.sum⟩
  rintro ⟨n, k⟩ he
  have hn : n ∈ names := (hkeys n).1 (List.mem_map_of_mem he)
  have hk : (tally names).find? n = some k := Entries.find?_of_mem (tally names).sorted.distinct he
  rw [hcount n hn, Option.some.injEq] at hk
  exact hk ▸ List.count_pos_iff.2 hn

end Store

/-! ## Pending and closed -/

namespace DeadLetter

instance : DecidablePred Pending := fun l =>
  decidable_of_iff (l.reprocessed = false ∧ l.reprocessedAt = none ∧ l.recoveryResult = none)
    ⟨fun ⟨h, ha, hr⟩ => ⟨h, ha, hr⟩, fun h => ⟨h.1, h.2, h.3⟩⟩

instance : DecidablePred Terminal := fun l =>
  decidable_of_iff
    (l.reprocessed = true ∧ l.reprocessedAt.isSome = true ∧ l.recoveryResult.isSome = true)
    ⟨fun ⟨h, ha, hr⟩ => ⟨h, ha, hr⟩, fun h => ⟨h.1, h.2, h.3⟩⟩

end DeadLetter

def pendingCount (rows : List Row) : Nat := rows.countP fun x => decide x.letter.Pending

def terminalCount (rows : List Row) : Nat := rows.countP fun x => decide x.letter.Terminal

namespace Orderly

variable {rows : List Row}

theorem terminal_iff (h : Orderly rows) {x : Row} (hx : x ∈ rows) :
    x.letter.Terminal ↔ x.letter.reprocessed = true := by
  refine ⟨fun ht => ht.reprocessed, fun hr => ?_⟩
  rcases h.settled x hx with hp | ht
  · rw [hp.reprocessed] at hr
    cases hr
  · exact ht

theorem pending_iff (h : Orderly rows) {x : Row} (hx : x ∈ rows) :
    x.letter.Pending ↔ ¬ x.letter.Terminal := by
  constructor
  · intro hp ht
    have hr := ht.reprocessed
    rw [hp.reprocessed] at hr
    cases hr
  · intro hn
    rcases h.settled x hx with hp | ht
    · exact hp
    · exact absurd ht hn

/-- Each is one or the other. -/
theorem pending_add_terminal (h : Orderly rows) :
    pendingCount rows + terminalCount rows = rows.length := by
  have hnot : terminalCount rows = rows.countP fun x => !decide x.letter.Pending := by
    refine List.countP_congr fun x hx => ?_
    simp [h.pending_iff hx]
  rw [hnot, List.length_eq_countP_add_countP (fun x => decide x.letter.Pending)]
  simp [pendingCount]

/-- The filter for closed dead letters selects those that are closed. -/
theorem countP_chosen (h : Orderly rows) :
    rows.countP (chosen { reprocessed := some true }) = terminalCount rows := by
  refine List.countP_congr fun x hx => ?_
  simp [chosen, Filter.selects, Filter.holds, h.terminal_iff hx]

end Orderly

/-- The filter without conditions selects everything. -/
theorem countP_chosen_all (rows : List Row) : rows.countP (chosen {}) = rows.length :=
  List.countP_eq_length.2 fun x _ => by simp [chosen, Filter.selects, Filter.holds]

end DeadLetters
