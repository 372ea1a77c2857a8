import Mathlib.Data.List.Nodup
import Mathlib.Data.List.Pairwise
import DeadLetters.Proofs.Purging

/-!
# Listing in pages

A listing is a window of one list: all dead letters that the filter selects, the latest failure
first, and of failures at the same time the one that was stored last.  That order is strict and
total, however the dead letters came into the table and went out of it, so pages that are read one
after another show each of them once.

The engine orders equal times by the number of the row, and it gives numbers again once the rows
that had them are gone.  That makes no difference.

    what an event stores, and what it leaves                                   (stored?_cases)
    rows stand in the order of storing, and so do their numbers                (storing)
    sorting keeps the order of equals                                      (pairwise_mergeSort_of)
    the pages of a listing, one after another, are the listing             (exists_readPages)
-/

namespace DeadLetters

open Program Store

/-! ## The order of storing -/

/-- The dead letter that an event stores: it was not there before, and is there behind. -/
def Event.stored? (e : Event) : Option String :=
  match e.request with
  | .store (.insert l) =>
    if !e.before.rows.any (hasId l.id) && e.after.rows.any (hasId l.id) then some l.id else none
  | _ => none

/-- The ids of dead letters in the order in which they were stored, the latest first. -/
def arrivals (t : List Event) : List String := (t.filterMap Event.stored?).reverse

/-- `a` was stored after `b`, the last time that each of them was stored. -/
def StoredAfter (t : List Event) (a b : DeadLetter) : Prop :=
  (arrivals t).idxOf a.id < (arrivals t).idxOf b.id

/-- The number that the engine gives to a new row: one more than the greatest that is in use. -/
def nextNumber (numbered : List (Nat × String)) : Nat :=
  numbered.foldr (fun x n => max x.1 n) 0 + 1

/-- The rows behind an event, with their numbers: what is stored gets a number, and what is gone
gives its number back. -/
def renumber (numbered : List (Nat × String)) (e : Event) : List (Nat × String) :=
  ((e.stored?.map fun id => (nextNumber numbered, id)).toList ++ numbered).filter
    fun x => e.after.rows.any (hasId x.2)

/-- The numbers and ids of rows, the latest row first. -/
def numbers (t : List Event) : List (Nat × String) := t.foldl renumber []

def rowNumber (t : List Event) (id : String) : Nat :=
  (((numbers t).find? fun x => x.2 == id).map Prod.fst).getD 0

def latestIds (rows : List Row) : List String := (rows.map fun x => x.letter.id).reverse

theorem any_hasId_iff {rows : List Row} {id : String} :
    rows.any (hasId id) = true ↔ id ∈ latestIds rows := by
  simp [latestIds, hasId]

theorem latestIds_append (rows : List Row) (l : DeadLetter) :
    latestIds (rows ++ [{ letter := l }]) = l.id :: latestIds rows := by
  simp [latestIds]

/-- What an event stores, and what it leaves. -/
theorem stored?_cases {e : Event} (h : Reacts e.before e.exchange e.after) :
    e.stored? = none ∧ (latestIds e.after.rows).Sublist (latestIds e.before.rows) ∨
      ∃ id, e.stored? = some id ∧ id ∉ latestIds e.before.rows ∧
        latestIds e.after.rows = id :: latestIds e.before.rows := by
  obtain ⟨i, ⟨r, a⟩, s, s'⟩ := e
  have hmoves : Moves r s.rows s'.rows := h.moves
  simp only [Event.stored?, Event.request, Exchange.request]
  generalize s.rows = rows, s'.rows = rows' at hmoves
  cases hmoves with
  | keep =>
    refine .inl ⟨?_, .refl _⟩
    split
    · cases rows.any _ <;> rfl
    · rfl
  | @insert l _ hnew =>
    have hid : l.id ∉ latestIds rows := by
      simpa [latestIds] using hnew
    have hbefore : rows.any (hasId l.id) = false := by
      rwa [Bool.eq_false_iff, ne_eq, any_hasId_iff]
    refine .inr ⟨l.id, ?_, hid, latestIds_append rows l⟩
    simp [hbefore, hasId]
  | mark id result time =>
    refine .inl ⟨rfl, ?_⟩
    simp [latestIds, Function.comp_def, Row.id_close]
  | delete f => exact .inl ⟨rfl, (List.filter_sublist.map _).reverse⟩

/-! ## What storing keeps -/

/-- Rows stand in the order in which they were stored, and their numbers increase. -/
structure Storing (t : List Event) (rows : List Row) : Prop where
  arrived : (latestIds rows).Pairwise fun a b => (arrivals t).idxOf a < (arrivals t).idxOf b
  ids : (numbers t).map Prod.snd = latestIds rows
  decreasing : (numbers t).Pairwise fun x y => y.1 < x.1

theorem Storing.nodup {t : List Event} {rows : List Row} (h : Storing t rows) :
    (latestIds rows).Nodup := by
  refine h.arrived.imp ?_
  rintro a _ hlt rfl
  exact Nat.lt_irrefl _ hlt

theorem lt_nextNumber {numbered : List (Nat × String)} {x : Nat × String} (hx : x ∈ numbered) :
    x.1 < nextNumber numbered := by
  suffices hs : x.1 ≤ numbered.foldr (fun x n => max x.1 n) 0 from Nat.lt_succ_of_le hs
  induction numbered with
  | nil => cases hx
  | cons y numbered ih =>
    rw [List.foldr_cons]
    rcases List.mem_cons.1 hx with rfl | hx
    · exact Nat.le_max_left _ _
    · exact Nat.le_trans (ih hx) (Nat.le_max_right _ _)

/-- What stands in a sublist is all that is left of a list without repetitions. -/
theorem filter_of_sublist {l m : List String} (h : m.Sublist l) (hn : l.Nodup) :
    l.filter (fun a => decide (a ∈ m)) = m := by
  have hsub : m.Sublist (l.filter fun a => decide (a ∈ m)) := by
    have hf := h.filter fun a => decide (a ∈ m)
    rwa [List.filter_eq_self.2 fun a ha => decide_eq_true ha] at hf
  refine (hsub.eq_of_length ?_).symm
  refine List.Perm.length_eq ((List.perm_ext_iff_of_nodup (hn.sublist h) (hn.filter _)).2 ?_)
  intro a
  simp only [List.mem_filter, decide_eq_true_eq]
  exact ⟨fun ha => ⟨h.subset ha, ha⟩, And.right⟩

theorem map_filter_any (numbered : List (Nat × String)) (rows : List Row) :
    (numbered.filter fun x => rows.any (hasId x.2)).map Prod.snd =
      (numbered.map Prod.snd).filter fun a => decide (a ∈ latestIds rows) := by
  rw [List.filter_map]
  refine congrArg _ (List.filter_congr fun x _ => ?_)
  rw [Bool.eq_iff_iff, any_hasId_iff]
  simp

theorem Storing.step {past : List Event} {e : Event} (h : Storing past e.before.rows)
    (hreacts : Reacts e.before e.exchange e.after) : Storing (past ++ [e]) e.after.rows := by
  have hnumbers : numbers (past ++ [e]) = renumber (numbers past) e := by
    simp [numbers]
  rcases stored?_cases hreacts with ⟨hnone, hsub⟩ | ⟨id, hsome, hnew, hids⟩
  · have harrivals : arrivals (past ++ [e]) = arrivals past := by
      simp [arrivals, hnone]
    have hkept : renumber (numbers past) e =
        (numbers past).filter fun x => e.after.rows.any (hasId x.2) := by
      simp [renumber, hnone]
    refine ⟨?_, ?_, ?_⟩
    · rw [harrivals]
      exact h.arrived.sublist hsub
    · rw [hnumbers, hkept, map_filter_any, h.ids]
      exact filter_of_sublist hsub h.nodup
    · rw [hnumbers, hkept]
      exact h.decreasing.sublist List.filter_sublist
  · have harrivals : arrivals (past ++ [e]) = id :: arrivals past := by
      simp [arrivals, hsome]
    have hkept : renumber (numbers past) e = (nextNumber (numbers past), id) :: numbers past := by
      refine (List.filter_eq_self.2 fun x hx => ?_).trans (by simp [hsome])
      rw [any_hasId_iff, hids]
      rw [hsome] at hx
      rcases List.mem_cons.1 hx with rfl | hx
      · exact List.mem_cons_self
      · exact List.mem_cons_of_mem _ (h.ids ▸ List.mem_map_of_mem hx)
    refine ⟨?_, ?_, ?_⟩
    · have hne : ∀ a ∈ latestIds e.before.rows,
          (id :: arrivals past).idxOf a = (arrivals past).idxOf a + 1 := by
        intro a ha
        exact List.idxOf_cons_ne _ fun heq => hnew (heq ▸ ha)
      rw [harrivals, hids, List.pairwise_cons]
      refine ⟨fun a ha => ?_, h.arrived.imp_of_mem fun ha hb hlt => ?_⟩
      · rw [hne a ha, List.idxOf_cons_self]
        exact Nat.succ_pos _
      · rw [hne _ ha, hne _ hb]
        exact Nat.succ_lt_succ hlt
    · rw [hnumbers, hkept, hids, List.map_cons, h.ids]
    · rw [hnumbers, hkept]
      exact List.pairwise_cons.2 ⟨fun x hx => lt_nextNumber hx, h.decreasing⟩

/-- Along every history, from a store without dead letters. -/
theorem History.storing {s s' : Store} {t : List Event} (h : History s t s') (h0 : s.rows = []) :
    Storing t s'.rows := by
  refine h.along (P := fun past m => Storing past m.rows) ?_ fun past e rest _ hp hreacts =>
    hp.step hreacts
  rw [h0]
  exact ⟨.nil, rfl, .nil⟩

/-! ## Numbers tell the order -/

/-- Where two measures both follow the order of a list, they compare alike. -/
theorem lt_iff_of_pairwise {l : List String} {f g : String → Nat}
    (hf : l.Pairwise fun a b => f a < f b) (hg : l.Pairwise fun a b => g b < g a) {a b : String}
    (ha : a ∈ l) (hb : b ∈ l) : f a < f b ↔ g b < g a := by
  refine List.Pairwise.forall_of_forall_of_flip (R := fun a b => f a < f b ↔ g b < g a)
    (fun _ _ => by simp) ?_ ?_ ha hb
  · exact hf.imp₂ (fun _ _ h h' => iff_of_true h h') hg
  · exact hf.imp₂ (fun _ _ h h' => iff_of_false (Nat.lt_asymm h) (Nat.lt_asymm h')) hg

namespace Storing

variable {t : List Event} {rows : List Row} (h : Storing t rows)
include h

theorem rowNumber_eq {x : Nat × String} (hx : x ∈ numbers t) : rowNumber t x.2 = x.1 := by
  have hn : ((numbers t).map Prod.snd).Nodup := h.ids ▸ h.nodup
  cases hfind : (numbers t).find? fun y => y.2 == x.2 with
  | none =>
    have hnone := List.find?_eq_none.1 hfind x hx
    simp at hnone
  | some y =>
    have hid : y.2 = x.2 := by simpa using List.find?_some hfind
    obtain rfl := List.inj_on_of_nodup_map hn (List.mem_of_find?_eq_some hfind) hx hid
    rw [rowNumber, hfind, Option.map_some, Option.getD_some]

theorem numbered : (latestIds rows).Pairwise fun a b => rowNumber t b < rowNumber t a := by
  rw [← h.ids, List.pairwise_map]
  refine h.decreasing.imp_of_mem fun hx hy hlt => ?_
  rwa [h.rowNumber_eq hx, h.rowNumber_eq hy]

/-- What was stored later has the greater number, although numbers are given again. -/
theorem storedAfter_iff {a b : DeadLetter} (ha : a.id ∈ latestIds rows)
    (hb : b.id ∈ latestIds rows) : StoredAfter t a b ↔ rowNumber t b.id < rowNumber t a.id :=
  lt_iff_of_pairwise h.arrived h.numbered ha hb

end Storing

/-! ## The order of listing -/

/-- The latest failure comes first, and of failures at the same time the one stored last. -/
def Precedes (t : List Event) (a b : DeadLetter) : Prop :=
  b.failedAt < a.failedAt ∨ b.failedAt = a.failedAt ∧ StoredAfter t a b

theorem Precedes.asymm {t : List Event} {a b : DeadLetter} (h : Precedes t a b) :
    ¬ Precedes t b a := by
  rcases h with h | ⟨ht, h⟩ <;> rintro (h' | ⟨ht', h'⟩)
  · exact Int64.lt_asymm h h'
  · exact Int64.lt_irrefl (ht' ▸ h)
  · exact Int64.lt_irrefl (ht ▸ h')
  · exact Nat.lt_asymm h h'

/-- Sorting keeps the order of equals. -/
theorem pairwise_mergeSort_of {α : Type} {le : α → α → Bool} {R : α → α → Prop}
    (trans : ∀ a b c, le a b = true → le b c = true → le a c = true)
    (total : ∀ a b, (le a b || le b a) = true) {l : List α} (h : l.Pairwise R) :
    (l.mergeSort le).Pairwise fun a b => le a b = true ∧ (le b a = true → R a b) := by
  induction l with
  | nil => simp
  | cons a l ih =>
    obtain ⟨hR, hl⟩ := List.pairwise_cons.1 h
    obtain ⟨l₁, l₂, hcons, hsorted, hbelow⟩ := List.mergeSort_cons trans total a l
    have hrest := ih hl
    have hle := List.pairwise_mergeSort trans total (a :: l)
    rw [hsorted, List.pairwise_append] at hrest
    rw [hcons, List.pairwise_append, List.pairwise_cons] at hle ⊢
    obtain ⟨h₁, h₂, h₁₂⟩ := hrest
    obtain ⟨-, ⟨ha, -⟩, hto⟩ := hle
    refine ⟨h₁, ⟨fun b hb => ⟨ha b hb, fun _ => hR b ?_⟩, h₂⟩, fun b hb c hc => ?_⟩
    · exact List.mem_mergeSort.1 (hsorted ▸ List.mem_append_right l₁ hb)
    · rcases List.mem_cons.1 hc with rfl | hc
      · -- what comes before `a` is strictly below it
        refine ⟨hto b hb c List.mem_cons_self, fun hab => ?_⟩
        have hn := hbelow b hb
        rw [hab] at hn
        cases hn
      · exact h₁₂ b hb c hc

namespace Store

/-- The order of listing is that of failures, and of storing among equals. -/
theorem pairwise_listed {t : List Event} {s : Store} (h : Storing t s.rows) (f : Filter) :
    (s.listed f).Pairwise (Precedes t) := by
  have hrows : s.rows.reverse.Pairwise fun x y => StoredAfter t x.letter y.letter := by
    have harrived := h.arrived
    rwa [latestIds, ← List.map_reverse, List.pairwise_map] at harrived
  have hchosen : (s.rows.filter (chosen f)).reverse.Pairwise
      fun x y => StoredAfter t x.letter y.letter := by
    rw [← List.filter_reverse]
    exact hrows.filter _
  rw [listed, List.pairwise_map]
  refine (pairwise_mergeSort_of (fun a b c => ?_) (fun a b => ?_) hchosen).imp ?_
  · simp only [decide_eq_true_eq]
    exact fun hab hbc => Int64.le_trans hbc hab
  · simp only [Bool.or_eq_true, decide_eq_true_eq]
    exact Int64.le_total _ _
  · rintro x y ⟨hle, hequal⟩
    simp only [decide_eq_true_eq] at hle hequal
    by_cases heq : y.letter.failedAt = x.letter.failedAt
    · exact .inr ⟨heq, hequal (heq ▸ Int64.le_refl _)⟩
    · exact .inl (Int64.lt_of_le_of_ne hle heq)

theorem perm_listed (s : Store) (f : Filter) :
    (s.listed f).Perm ((s.rows.map Row.letter).filter fun l => decide (f.Meets l)) := by
  have hchosen : (fun l => decide (f.Meets l)) ∘ Row.letter = chosen f :=
    funext fun x => (chosen_eq f x).symm
  rw [List.filter_map, hchosen]
  exact ((List.mergeSort_perm _ _).trans (List.reverse_perm _)).map _

theorem mem_latestIds_of_listed {s : Store} {f : Filter} {l : DeadLetter} (h : l ∈ s.listed f) :
    l.id ∈ latestIds s.rows := by
  obtain ⟨x, hx, rfl⟩ := List.mem_map.1 (List.mem_filter.1 ((s.perm_listed f).subset h)).1
  exact List.mem_reverse.2 (List.mem_map_of_mem (f := fun x : Row => x.letter.id) hx)

theorem nodup_listed {s : Store} (h : Orderly s.rows) (f : Filter) :
    ((s.listed f).map DeadLetter.id).Nodup := by
  have hids : ((s.rows.map Row.letter).map DeadLetter.id).Nodup := by
    rw [List.map_map]
    exact h.nodup
  rw [((s.perm_listed f).map DeadLetter.id).nodup_iff]
  exact hids.sublist (List.filter_sublist.map _)

end Store

/-! ## Pages -/

namespace Service

/-- Reads pages of a size from an offset on, until one is empty or the next offset is too large. -/
def readPages (s : Service) (f : Filter) (size offset : UInt32) :
    Program (Except Failure (List DeadLetter)) := do
  match ← s.list { f with limit := size, offset := offset } with
  | .error e => return .error e
  | .ok [] => return .ok []
  | .ok (l :: page) =>
    if _ : 0 < size.toNat ∧ offset.toNat + size.toNat < UInt32.size then
      return (← s.readPages f size (offset + size)).map (l :: page ++ ·)
    else return .ok (l :: page)
termination_by UInt32.size - offset.toNat
decreasing_by
  have hnext : 0 < size.toNat ∧ offset.toNat + size.toNat < UInt32.size := ‹_›
  rw [UInt32.toNat_add, Nat.mod_eq_of_lt hnext.2]
  omega

end Service

namespace World

variable {env : Surroundings}

/-- The pages from an offset on are the rest of the listing. -/
theorem exists_readPages (service : Service) (f : Filter) {size : UInt32} (hsize : 0 < size.toNat)
    (offset : UInt32) {w : World} (hw : Reading env w.store)
    (hlegible : ∀ x ∈ w.store.rows, x.legible = true)
    (hlength : (w.store.listed f).length ≤ UInt32.size) :
    ∃ w', w.run env (service.readPages f size offset) =
      (some (.ok ((w.store.listed f).drop offset.toNat)), w') ∧ w'.store = w.store := by
  induction hm : UInt32.size - offset.toNat using Nat.strongRecOn generalizing offset w with
  | ind m ih =>
    obtain ⟨w₁, hrun, hs₁⟩ := lists_listed service f hw hlegible size offset
    rw [Service.readPages]
    cases hpage : ((w.store.listed f).drop offset.toNat).take size.toNat with
    | nil =>
      have hnone : (w.store.listed f).drop offset.toNat = [] :=
        (List.take_eq_nil_iff.1 hpage).resolve_left (Nat.ne_of_gt hsize)
      rw [hpage] at hrun
      rw [hnone]
      exact ⟨w₁, run_bind_of hrun, hs₁⟩
    | cons l page =>
      rw [hpage] at hrun
      by_cases hnext : 0 < size.toNat ∧ offset.toNat + size.toNat < UInt32.size
      · have hoffset : (offset + size).toNat = offset.toNat + size.toNat := by
          rw [UInt32.toNat_add, Nat.mod_eq_of_lt hnext.2]
        have hless : UInt32.size - (offset + size).toNat < m := by omega
        rw [← hs₁] at hw hlegible hlength
        obtain ⟨w₂, hrest, hs₂⟩ := ih _ hless (offset + size) hw hlegible hlength rfl
        refine ⟨w₂, (run_bind_of hrun).trans ?_, hs₂.trans hs₁⟩
        simp only [dif_pos hnext]
        refine (run_bind_of hrest).trans ?_
        rw [hs₁, hoffset, ← List.drop_drop]
        simp only [Except.map, ← hpage, List.take_append_drop]
        rfl
      · -- behind the last offset that fits there is no more than one page
        have hrest : ((w.store.listed f).drop offset.toNat).length ≤ size.toNat := by
          rw [List.length_drop]
          omega
        refine ⟨w₁, (run_bind_of hrun).trans ?_, hs₁⟩
        simp only [dif_neg hnext]
        rw [← hpage, List.take_of_length_le hrest]
        rfl

end World

/-! ## The listing -/

/-- By a filter the service lists windows of `ls`, in the state that the events have led to. -/
structure Listing (env : Surroundings) (service : Service) (w : World) (t : List Event) (f : Filter)
    (ls : List DeadLetter) : Prop where
  /-- These are the dead letters that meet the conditions. -/
  selects : ls.Perm ((w.store.rows.map Row.letter).filter fun l => decide (f.Meets l))
  once : (ls.map DeadLetter.id).Nodup
  ordered : ls.Pairwise (Precedes t)
  /-- No other list has that order. -/
  unique : ∀ ms : List DeadLetter, ms.Perm ls → ms.Pairwise (Precedes t) → ms = ls
  /-- The numbers of rows tell which was stored later, although they are given again. -/
  numbered : ∀ a ∈ ls, ∀ b ∈ ls, StoredAfter t a b ↔ rowNumber t b.id < rowNumber t a.id
  windows : w.Lists env service f ls
  /-- Pages of any size, one after another, as far as the offsets reach. -/
  pages : ∀ size : UInt32, 0 < size.toNat → ls.length ≤ UInt32.size →
    ∃ w', w.run env (service.readPages f size 0) = (some (.ok ls), w') ∧ w'.store = w.store

/-- In every state that operations reach from a store without dead letters, each window is cut out
of one list, and pages show that list. -/
theorem listing_in_order {env : Surroundings} {w : World} {ops : List Operation} {s : Store}
    {t : List Event} (service : Service) (f : Filter)
    (h : SideBySide (ops.map Operation.thread) s t w.store) (h0 : s.rows = [])
    (hread : Reading env w.store) : Listing env service w t f (w.store.listed f) := by
  have ho : Orderly w.store.rows :=
    orderly_of_empty (u := []) (by rwa [List.append_nil]) h.history h0
  have hstoring : Storing t w.store.rows := h.history.storing h0
  have hordered := pairwise_listed hstoring f
  refine ⟨w.store.perm_listed f, nodup_listed ho f, hordered, fun ms hperm hms => ?_,
    fun a ha b hb => ?_, World.lists_listed service f hread ho.legible, fun size hsize hlength => ?_⟩
  · exact hperm.eq_of_pairwise (fun a b _ _ hab hba => absurd hba hab.asymm) hms hordered
  · exact hstoring.storedAfter_iff (mem_latestIds_of_listed ha) (mem_latestIds_of_listed hb)
  · exact World.exists_readPages service f hsize 0 hread ho.legible hlength

/-- Two dead letters are stored at the same time of failure, the second is purged, and a third is
stored. -/
theorem listing_in_order_purged :
    ∃ (w : World) (t : List Event), Listing Router.calm .recording w t {} (w.store.listed {}) ∧
      w.store.rows.map (fun x => x.letter.topic) = ["t", "v"] := by
  let ops : List Operation := [.store .recording .sample,
    .store .recording { Draft.sample with topic := "u" }, .purge .recording (.ofTopic "u"),
    .store .recording { Draft.sample with topic := "v" }]
  obtain ⟨t, u, h, -, -⟩ := Operation.sequence_history Router.calm (.new .fresh) [] ops
  rw [List.nil_append] at h
  have hopen : (Operation.sequence Router.calm (.new .fresh) ops).store.closed = false := by
    decide +kernel
  have hread : Reading Router.calm (Operation.sequence Router.calm (.new .fresh) ops).store :=
    ⟨fun _ _ _ => rfl, hopen⟩
  exact ⟨_, _, listing_in_order .recording {} h rfl hread, by decide +kernel⟩

end DeadLetters
