import DeadLetters.Proofs.Alone
import DeadLetters.Proofs.Statistics

/-!
# What a purge leaves

A purge deletes the dead letters that meet the conditions of its filter, and says how many.  The
window of the filter plays no part.  The others stay as they are and are listed in the same order,
and the statistics drop by what is gone.

    selects exactly what meets the conditions                                        (selects_iff)
    listing what is left = what is left of the listing                            (listing_filter)
    in every state that operations reach, a purge is exact                          (purge_exact)
-/

namespace DeadLetters

open Program Store

/-! ## Conditions -/

namespace Filter

/-- A dead letter meets each condition that is given. -/
structure Meets (f : Filter) (l : DeadLetter) : Prop where
  topic : ∀ t, f.topic = some t → l.topic = t
  errorName : ∀ n, f.errorName = some n → l.errorName = n
  reprocessed : ∀ b, f.reprocessed = some b → l.reprocessed = b
  start : ∀ t, f.start = some t → t ≤ l.failedAt
  finish : ∀ t, f.finish = some t → l.failedAt ≤ t

theorem holds_iff {α : Type} {condition : Option α} {test : α → Bool} :
    holds condition test = true ↔ ∀ a, condition = some a → test a = true := by
  cases condition <;> simp [holds]

theorem selects_iff {f : Filter} {l : DeadLetter} : f.selects l = true ↔ f.Meets l := by
  simp only [selects, Bool.and_eq_true, holds_iff, beq_iff_eq, decide_eq_true_eq]
  constructor
  · rintro ⟨⟨⟨⟨ht, he⟩, hr⟩, ha⟩, hb⟩
    exact ⟨ht, he, hr, ha, hb⟩
  · rintro ⟨ht, he, hr, ha, hb⟩
    exact ⟨⟨⟨⟨ht, he⟩, hr⟩, ha⟩, hb⟩

instance (f : Filter) : DecidablePred f.Meets := fun _ => decidable_of_iff _ selects_iff

end Filter

theorem Store.chosen_eq (f : Filter) (x : Row) : chosen f x = decide (f.Meets x.letter) := by
  rw [Bool.eq_iff_iff, decide_eq_true_eq]
  exact Filter.selects_iff

/-! ## Listing what is left -/

section

variable {α : Type} {le : α → α → Bool}

/-- A list splits in one way into what is not above an element, and what is. -/
theorem append_inj_of_le {a : α} {l₁ l₂ m₁ m₂ : List α} (h : l₁ ++ l₂ = m₁ ++ m₂)
    (hl₁ : ∀ b ∈ l₁, le a b = false) (hl₂ : ∀ b ∈ l₂, le a b = true)
    (hm₁ : ∀ b ∈ m₁, le a b = false) (hm₂ : ∀ b ∈ m₂, le a b = true) : l₁ = m₁ ∧ l₂ = m₂ := by
  have below : ∀ u v : List α, (∀ b ∈ u, le a b = false) → (∀ b ∈ v, le a b = true) →
      (u ++ v).filter (fun b => !le a b) = u := by
    intro u v hu hv
    rw [List.filter_append, List.filter_eq_self.2 fun b hb => by simp [hu b hb],
      List.filter_eq_nil_iff.2 fun b hb => by simp [hv b hb], List.append_nil]
  obtain rfl : l₁ = m₁ := by rw [← below l₁ l₂ hl₁ hl₂, h, below m₁ m₂ hm₁ hm₂]
  exact ⟨rfl, List.append_cancel_left h⟩

/-- Sorting keeps the order of equals, so it does not matter whether one sorts first. -/
theorem filter_mergeSort (trans : ∀ a b c, le a b = true → le b c = true → le a c = true)
    (total : ∀ a b, (le a b || le b a) = true) (p : α → Bool) (l : List α) :
    (l.mergeSort le).filter p = (l.filter p).mergeSort le := by
  induction l with
  | nil => simp
  | cons a l ih =>
    obtain ⟨l₁, l₂, hcons, hl, hl₁⟩ := List.mergeSort_cons trans total a l
    rw [hl, List.filter_append] at ih
    rw [hcons, List.filter_append]
    by_cases ha : p a = true
    · obtain ⟨m₁, m₂, hcons', hm, hm₁⟩ := List.mergeSort_cons trans total a (l.filter p)
      -- in both sorted lists what comes behind `a` is above it
      have above : ∀ (k u v : List α), k.mergeSort le = u ++ a :: v → ∀ b ∈ v, le a b = true := by
        intro k u v hk b hb
        have hsorted := List.pairwise_mergeSort trans total k
        rw [hk, List.pairwise_append, List.pairwise_cons] at hsorted
        exact hsorted.2.1.1 b hb
      rw [hm] at ih
      obtain ⟨h₁, h₂⟩ := @append_inj_of_le α le a _ _ _ _ ih
        (fun b hb => by simpa using hl₁ b (List.mem_filter.1 hb).1)
        (fun b hb => above _ _ _ hcons b (List.mem_filter.1 hb).1)
        (fun b hb => by simpa using hm₁ b hb) (above _ _ _ hcons')
      rw [List.filter_cons_of_pos ha, List.filter_cons_of_pos ha, hcons', h₁, h₂]
    · rw [List.filter_cons_of_neg ha, List.filter_cons_of_neg ha, ih]

end

namespace Store

theorem listing_filter (p : Row → Bool) (rows : List Row) :
    (listing rows).filter p = listing (rows.filter p) := by
  unfold listing
  rw [← List.filter_reverse]
  refine filter_mergeSort (fun a b c => ?_) (fun a b => ?_) p rows.reverse
  · simp only [decide_eq_true_eq]
    exact fun hab hbc => Int64.le_trans hbc hab
  · simp only [Bool.or_eq_true, decide_eq_true_eq]
    exact Int64.le_total _ _

theorem mem_listing {rows : List Row} {x : Row} : x ∈ listing rows ↔ x ∈ rows := by
  rw [listing, List.mem_mergeSort, List.mem_reverse]

def listed (s : Store) (f : Filter) : List DeadLetter :=
  (listing (s.rows.filter (chosen f))).map Row.letter

/-- The store without what a filter selects. -/
def purged (s : Store) (f : Filter) : Store :=
  { s with letters := s.letters.map fun rows => rows.filter fun x => !chosen f x }

theorem rows_purged (s : Store) (f : Filter) :
    (s.purged f).rows = s.rows.filter fun x => !chosen f x := by
  unfold Store.rows purged
  cases s.letters <;> rfl

theorem purged_of_countP {s : Store} {f : Filter} (h : s.rows.countP (chosen f) = 0) :
    s.purged f = s := by
  cases hl : s.letters with
  | none => rw [purged, hl, Option.map_none, ← hl]
  | some rows =>
    rw [rows_of_letters hl, List.countP_eq_zero] at h
    have hkept : rows.filter (fun x => !chosen f x) = rows :=
      List.filter_eq_self.2 fun x hx => by simpa using h x hx
    rw [purged, hl, Option.map_some, hkept, ← hl]

/-- What is listed afterwards is what is left of what was listed. -/
theorem listed_purged (s : Store) (f g : Filter) :
    (s.purged f).listed g = (s.listed g).filter fun l => !decide (f.Meets l) := by
  have hmeets : ((fun l => !decide (f.Meets l)) ∘ Row.letter) = fun x => !chosen f x := by
    funext x
    simp [chosen_eq]
  rw [listed, listed, List.filter_map, hmeets, listing_filter, rows_purged, List.filter_comm]

theorem length_listed (s : Store) (f : Filter) :
    (s.listed f).length = s.rows.countP (chosen f) := by
  rw [listed, List.length_map, listing, List.length_mergeSort, List.length_reverse,
    List.countP_eq_length_filter]

end Store

/-! ## Calls alone -/

namespace Store

theorem mapM_read {rows : List Row} (h : ∀ x ∈ rows, x.legible = true) :
    rows.mapM Row.read = .ok (rows.map Row.letter) := by
  induction rows with
  | nil => rfl
  | cons x rows ih =>
    have hx : x.read = .ok x.letter := if_pos (h x List.mem_cons_self)
    rw [List.mapM_cons, hx, ih fun y hy => h y (List.mem_cons_of_mem x hy)]
    rfl

variable {s : Store} {rows : List Row} (hc : s.closed = false)
include hc

theorem answer_list (h : s.letters = some rows) (hlegible : ∀ x ∈ rows, x.legible = true)
    (f : Filter) : (s.answer (.list f)).1 = .ok (f.window (s.listed f)) := by
  have hread : s.list f = .ok (f.window (s.listed f)) := by
    rw [Store.list, withRows, h]
    show ((f.window (listing (rows.filter (chosen f)))).mapM Row.read) = _
    rw [mapM_read, Filter.window, Filter.window, listed, rows_of_letters h, List.map_take,
      List.map_drop]
    intro x hx
    have hmem := List.mem_of_mem_drop (List.mem_of_mem_take hx)
    exact hlegible x (List.mem_filter.1 (mem_listing.1 hmem)).1
  simp [answer, hc, perform, hread, Except.map]

theorem answer_count (h : s.letters = some rows) (f : Filter) :
    (s.answer (.count f)).1 = .ok (rows.countP (chosen f)) := by
  simp [answer, hc, perform, count, withRows, h, Except.map]

theorem answer_delete (h : s.letters = some rows) (hf : s.faults.delete = false) (f : Filter) :
    s.answer (.delete f) = (.ok (rows.countP (chosen f)), s.purged f) := by
  refine answer_eq_ok_iff.2 ⟨hc, delete_eq_ok_iff.2 ⟨rows, h, rfl, fun _ => hf, ?_⟩⟩
  rw [purged, h]
  rfl

/-- Without a table there is nothing to list and nothing to count. -/
theorem answer_missing (h : s.letters = none) (f : Filter) :
    (s.answer (.list f)).1 = .error (.missingTable "dead_letters") ∧
      (s.answer (.count f)).1 = .error (.missingTable "dead_letters") := by
  simp [answer, hc, perform, list, count, withRows, h, Except.map]

end Store

theorem isMissingTable_missing :
    (Store.Error.missingTable "dead_letters").failure.isMissingTable = true := by
  decide +kernel

theorem Service.ends_warnOfPurge (s : Service) (f : Filter) (matching : Nat) :
    (s.warnOfPurge f matching).Ends := by
  unfold warnOfPurge
  split
  · exact (ends_emit _ _).bind fun _ => ends_log _
  · trivial

namespace World

variable {env : Surroundings} {w : World}

/-- Listing shows the window of what the filter selects. -/
theorem exists_list (service : Service) (f : Filter) (hw : Reading env w.store)
    (hlegible : ∀ x ∈ w.store.rows, x.legible = true) :
    ∃ t w', w.Yields env (service.list f) (.ok (f.window (w.store.listed f))) t w' ∧
      w'.store = w.store := by
  obtain ⟨n, w₁, h₁, hs₁⟩ := exists_stopwatch env w
  obtain ⟨w₂, h₂, hs₂⟩ := exists_query (q := .list f) (fun _ => hw.accepts _ _ rfl) w₁
  rw [hs₁] at h₂ hs₂
  rw [answer_snd_of_not_changes w.store rfl] at hs₂
  cases hl : w.store.letters with
  | none =>
    have hnone : f.window (w.store.listed f) = [] := by
      simp [Store.listed, Store.rows, hl, listing, Filter.window]
    rw [(answer_missing hw.closed hl f).1] at h₂
    obtain ⟨w₃, h₃, hs₃⟩ := exists_logged env w₂ (Service.event .warn "list"
      "dead_letters table does not exist yet" []) (Except.ok [] : Except Failure (List DeadLetter))
    rw [hnone]
    obtain ⟨w₄, h₄, hs₄⟩ : ∃ w', w.Yields env (service.list f) (.ok [])
        [⟨.store (.list f), some (.error (.missingTable "dead_letters"))⟩] w' ∧
        w'.store = w₃.store := by
      refine h₁.observed (h₂.before ?_)
      show w₂.Yields env (if (Store.Error.missingTable "dead_letters").failure.isMissingTable = true
        then _ else _) _ _ _
      rw [if_pos isMissingTable_missing]
      exact h₃
    exact ⟨_, w₄, h₄, hs₄.trans (hs₃.trans hs₂)⟩
  | some rows =>
    rw [answer_list hw.closed hl (rows_of_letters hl ▸ hlegible)] at h₂
    obtain ⟨w₃, h₃, hs₃⟩ : ∃ w', w.Yields env (service.list f) (.ok (f.window (w.store.listed f)))
        [⟨.store (.list f), some (.ok (f.window (w.store.listed f)))⟩] w' ∧ w'.store = w₂.store :=
      h₁.observed (h₂.before (yields_done env w₂ _))
    exact ⟨_, w₃, h₃, hs₃.trans hs₂⟩

/-- A purge deletes what the filter selects, and returns how many there were. -/
theorem exists_purge (service : Service) (f : Filter) (hw : Working env w.store) :
    ∃ t w', w.Yields env (service.purge f) (.ok (w.store.rows.countP (chosen f))) t w' ∧
      w'.store = w.store.purged f := by
  obtain ⟨n, w₁, h₁, hs₁⟩ := exists_stopwatch env w
  obtain ⟨w₂, h₂, hs₂⟩ := exists_query (q := .count f) (fun _ => hw.accepts _ _) w₁
  rw [hs₁] at h₂ hs₂
  rw [answer_snd_of_not_changes w.store rfl] at hs₂
  cases hl : w.store.letters with
  | none =>
    have hnone : w.store.rows = [] := by rw [Store.rows, hl, Option.getD_none]
    have hsame : w.store.purged f = w.store := purged_of_countP (by rw [hnone, List.countP_nil])
    rw [(answer_missing hw.closed hl f).2] at h₂
    obtain ⟨w₃, h₃, hs₃⟩ := exists_logged env w₂ (Service.event .warn "purge"
      "dead_letters table does not exist yet, nothing purged" [])
      (Except.ok 0 : Except Failure Nat)
    rw [hsame, hnone, List.countP_nil]
    obtain ⟨w₄, h₄, hs₄⟩ : ∃ w', w.Yields env (service.purge f) (.ok 0)
        [⟨.store (.count f), some (.error (.missingTable "dead_letters"))⟩] w' ∧
        w'.store = w₃.store := by
      refine h₁.observed (h₂.before ?_)
      show w₂.Yields env (if (Store.Error.missingTable "dead_letters").failure.isMissingTable = true
        then _ else _) _ _ _
      rw [if_pos isMissingTable_missing]
      exact h₃
    exact ⟨_, w₄, h₄, hs₄.trans (hs₃.trans hs₂)⟩
  | some rows =>
    rw [answer_count hw.closed hl] at h₂
    rw [rows_of_letters hl]
    obtain ⟨w₃, h₃, hs₃⟩ := exists_said
      (Service.asks_warnOfPurge lenient_aside service f (rows.countP (chosen f)))
      (Service.ends_warnOfPurge service f _) w₂
    obtain ⟨w₄, h₄, hs₄⟩ := exists_query (q := .delete f) (fun _ => hw.accepts _ _) w₃
    rw [hs₃, hs₂, answer_delete hw.closed hl hw.delete] at h₄ hs₄
    obtain ⟨w₅, h₅, hs₅⟩ := exists_logged env w₄ (Service.event .info "purge"
      "purged dead letters" [("deleted", .nat (rows.countP (chosen f)))])
      (Except.ok (rows.countP (chosen f)) : Except Failure Nat)
    obtain ⟨w₆, h₆, hs₆⟩ : ∃ w', w.Yields env (service.purge f) (.ok (rows.countP (chosen f)))
        [⟨.store (.count f), some (.ok (rows.countP (chosen f)))⟩,
          ⟨.store (.delete f), some (.ok (rows.countP (chosen f)))⟩] w' ∧
        w'.store = w₅.store := by
      refine h₁.observed (h₂.bind ?_)
      exact h₃.after (h₄.before h₅)
    exact ⟨_, w₆, h₆, hs₆.trans (hs₅.trans hs₄)⟩

/-- Whatever window of a filter is listed, it is cut out of these dead letters. -/
def Lists (env : Surroundings) (w : World) (service : Service) (f : Filter)
    (ls : List DeadLetter) : Prop :=
  ∀ limit offset : UInt32, ∃ w',
    w.run env (service.list { f with limit := limit, offset := offset }) =
      (some (.ok ((ls.drop offset.toNat).take limit.toNat)), w') ∧ w'.store = w.store

theorem lists_listed (service : Service) (f : Filter) (hw : Reading env w.store)
    (hlegible : ∀ x ∈ w.store.rows, x.legible = true) :
    w.Lists env service f (w.store.listed f) := by
  intro limit offset
  obtain ⟨t, w', h, hs⟩ :=
    exists_list service { f with limit := limit, offset := offset } hw hlegible
  exact ⟨w', h.run, hs⟩

end World

/-! ## The purge -/

/-- A purge of a filter returns `n` and leaves another world.  Calls before and after it are made in
the two worlds. -/
structure PurgesExactly (env : Surroundings) (service : Service) (w : World) (f : Filter) (n : Nat)
    (w' : World) : Prop where
  run : w.run env (service.purge f) = (some (.ok n), w')
  /-- As many as meet the conditions. -/
  matching : n = w.store.rows.countP fun x => decide (f.Meets x.letter)
  /-- Those are gone; the others and all else are as before. -/
  removed : w'.store = { w.store with
    letters := w.store.letters.map fun rows => rows.filter fun x => !decide (f.Meets x.letter) }
  windowless : ∀ limit offset : UInt32, ∃ v,
    w.run env (service.purge { f with limit := limit, offset := offset }) = (some (.ok n), v) ∧
      v.store = w'.store
  counted : w.store.letters.isSome = true → (w.store.answer (.count f)).1 = .ok n
  listed : ∃ ls, w.Lists env service f ls ∧ ls.length = n
  /-- By any filter, what is left is listed in the order from before. -/
  kept : ∀ g, ∃ ls, w.Lists env service g ls ∧
    w'.Lists env service g (ls.filter fun l => !decide (f.Meets l))
  again : ∃ v, w'.run env (service.purge f) = (some (.ok 0), v) ∧ v.store = w'.store
  /-- The statistics drop by what is gone. -/
  stats : ∃ st st' v v', w.run env service.stats = (some (.ok st), v) ∧
    w'.run env service.stats = (some (.ok st'), v') ∧ st.total = st'.total + n ∧
    (∀ t, (st.byTopic.find? t).getD 0 = (st'.byTopic.find? t).getD 0 +
      w.store.rows.countP fun x => decide (x.letter.topic = t ∧ f.Meets x.letter)) ∧
    ∀ t, (st.byError.find? t).getD 0 = (st'.byError.find? t).getD 0 +
      w.store.rows.countP fun x => decide (x.letter.errorName = t ∧ f.Meets x.letter)

/-- A name that does not occur counts as none. -/
theorem Tallies.getD {d : Dictionary Nat} {names : List String} (h : Tallies d names) (n : String) :
    (d.find? n).getD 0 = names.count n := by
  by_cases hn : n ∈ names
  · rw [h.count n hn]
    rfl
  · have hnone : d.find? n = none := Entries.find?_eq_none_iff.2 fun hk => hn ((h.keys n).1 hk)
    rw [hnone, List.count_eq_zero_of_not_mem hn]
    rfl

/-- The figures of a name drop by what is gone of it. -/
theorem count_filter_add (f : Filter) (name : DeadLetter → String) (rows : List Row) (t : String) :
    (rows.map fun x => name x.letter).count t =
      ((rows.filter fun x => !chosen f x).map fun x => name x.letter).count t +
        rows.countP fun x => decide (name x.letter = t ∧ f.Meets x.letter) := by
  have hgone : rows.countP (fun x => decide (name x.letter = t ∧ f.Meets x.letter)) =
      (rows.filter (chosen f)).countP fun x => name x.letter == t := by
    rw [List.countP_filter]
    refine List.countP_congr fun x _ => ?_
    simp [chosen_eq]
  rw [hgone, List.count_eq_countP, List.count_eq_countP, List.countP_map, List.countP_map,
    Nat.add_comm]
  exact List.countP_eq_countP_filter_add rows _ (chosen f)

theorem Working.purged {env : Surroundings} {s : Store} (h : Working env s) (f : Filter) :
    Working env (s.purged f) := ⟨h.accepts, h.closed, h.update, h.delete⟩

theorem Working.reading {env : Surroundings} {s : Store} (h : Working env s) : Reading env s :=
  ⟨fun n q _ => h.accepts n q, h.closed⟩

/-- In every state that operations reach from a store without dead letters, a purge is exact. -/
theorem purge_exact {env : Surroundings} {w : World} {ops : List Operation} {s : Store}
    {t : List Event} (service : Service) (f : Filter)
    (h : SideBySide (ops.map Operation.thread) s t w.store) (h0 : s.rows = [])
    (hw : Working env w.store) : ∃ n w', PurgesExactly env service w f n w' := by
  have ho : Orderly w.store.rows :=
    orderly_of_empty (u := []) (by rwa [List.append_nil]) h.history h0
  obtain ⟨x, w', hpurge, hs⟩ := World.exists_purge service f hw
  have hw' : Working env w'.store := hs ▸ hw.purged f
  have hrows : w'.store.rows = w.store.rows.filter fun x => !chosen f x := by
    rw [hs, rows_purged]
  have ho' : Orderly w'.store.rows := hrows ▸ (Moves.delete f w.store.rows).orderly nofun ho
  refine ⟨_, w', ⟨hpurge.run, ?_, ?_, ?_, ?_, ?_, ?_, ?_, ?_⟩⟩
  · exact List.countP_congr fun x _ => by rw [chosen_eq]
  · simp only [hs, Store.purged, chosen_eq]
  · intro limit offset
    obtain ⟨y, v, h, hv⟩ :=
      World.exists_purge service { f with limit := limit, offset := offset } hw
    exact ⟨v, h.run, hv.trans hs.symm⟩
  · intro htable
    obtain ⟨rows, hr⟩ := Option.isSome_iff_exists.1 htable
    rw [answer_count hw.closed hr, rows_of_letters hr]
  · exact ⟨_, World.lists_listed service f hw.reading ho.legible, length_listed _ f⟩
  · intro g
    refine ⟨_, World.lists_listed service g hw.reading ho.legible, ?_⟩
    rw [← listed_purged, ← hs]
    exact World.lists_listed service g hw'.reading ho'.legible
  · obtain ⟨y, v, h, hv⟩ := World.exists_purge service f hw'
    have hnone : w'.store.rows.countP (chosen f) = 0 := by
      rw [hrows, List.countP_filter]
      simp
    rw [hnone] at h
    exact ⟨v, h.run, hv.trans (purged_of_countP hnone)⟩
  · obtain ⟨-, v, hrun, -⟩ := service.run_stats hw.reading
    obtain ⟨-, v', hrun', -⟩ := service.run_stats hw'.reading
    have hexact := exact_figures ho
    have hexact' := exact_figures ho'
    refine ⟨_, _, v, v', hrun, hrun', ?_, fun t => ?_, fun t => ?_⟩
    · rw [hexact.total, hexact'.total, hrows, ← List.countP_eq_length_filter, Nat.add_comm]
      simpa using List.length_eq_countP_add_countP (chosen f)
    · rw [hexact.byTopic.getD, hexact'.byTopic.getD, hrows]
      exact count_filter_add f DeadLetter.topic w.store.rows t
    · rw [hexact.byError.getD, hexact'.byError.getD, hrows]
      exact count_filter_add f DeadLetter.errorName w.store.rows t

/-- Of two dead letters the purge of one topic takes one. -/
theorem purge_exact_topic :
    ∃ (w : World) (w' : World),
      PurgesExactly Router.calm .recording w (.ofTopic "t") 1 w' ∧ w.store.rows.length = 2 := by
  let ops : List Operation := [.store .recording .sample,
    .store .recording { Draft.sample with topic := "u" }]
  obtain ⟨t, u, h, -, -⟩ := Operation.sequence_history Router.calm (.new .fresh) [] ops
  rw [List.nil_append] at h
  let w := Operation.sequence Router.calm (.new .fresh) ops
  have hw : Working Router.calm w.store :=
    ⟨fun _ _ => rfl, by decide +kernel, by decide +kernel, by decide +kernel⟩
  obtain ⟨n, w', hpurge⟩ := purge_exact (w := w) .recording (.ofTopic "t") h rfl hw
  have hone : (w.store.rows.countP fun x => decide ((Filter.ofTopic "t").Meets x.letter)) = 1 := by
    decide +kernel
  obtain rfl : n = 1 := hpurge.matching.trans hone
  exact ⟨w, w', hpurge, by decide +kernel⟩

end DeadLetters
