import Mathlib.Algebra.GroupWithZero.Nat
import Mathlib.Data.List.Nodup
import DeadLetters.Dictionary

/-!
# Entries by key

Lists of keys with values, in order of the keys or not.  Entries are known by what is found under
each key: insertion, erasure and replacement each change one look-up, and lists in order with the
same look-ups are equal.

    find? j (set k v es) = if j = k then some v else find? j es                     (find?_set)
    Distinct es → find? k (ofList es) = find? k es                   (find?_ofList_of_distinct)
    two lists in order with the same look-ups are equal                        (ext_of_sorted)
-/

namespace DeadLetters.Entries

variable {α β : Type} {es fs : List (String × α)} {j k : String}

def Distinct (es : List (String × α)) : Prop := (es.map (·.1)).Nodup

def erase (k : String) (es : List (String × α)) : List (String × α) := es.filter fun e => e.1 ≠ k

/-- Puts `v` at `k`, in the place of the value that is there, or behind all others. -/
def set (k : String) (v : α) : List (String × α) → List (String × α)
  | [] => [(k, v)]
  | (j, w) :: es => if k = j then (k, v) :: es else (j, w) :: set k v es

theorem Sorted.distinct (h : Sorted es) : Distinct es :=
  (List.pairwise_map.2 h).imp fun hlt => String.ne_of_lt hlt

/-! ## Look-ups -/

theorem find?_eq_none_of_lt (h : ∀ e ∈ es, k < e.1) : find? k es = none := by
  induction es with
  | nil => rfl
  | cons e es ih =>
    rw [find?, if_neg (String.ne_of_lt (h e List.mem_cons_self))]
    exact ih fun e' he => h e' (List.mem_cons_of_mem e he)

theorem find?_eq_none_iff : find? k es = none ↔ k ∉ es.map (·.1) := by
  induction es with
  | nil => simp [find?]
  | cons e es ih =>
    rw [List.map_cons, List.mem_cons, not_or, find?]
    split
    · next hk => simp [hk]
    · next hk => simp [hk, ih]

theorem mem_of_find?_eq_some {v : α} (h : find? k es = some v) : (k, v) ∈ es := by
  induction es with
  | nil => cases h
  | cons e es ih =>
    rw [find?] at h
    split at h
    · next hk =>
      cases h
      exact hk ▸ List.mem_cons_self
    · exact List.mem_cons_of_mem e (ih h)

theorem find?_append : find? k (es ++ fs) = (find? k es).or (find? k fs) := by
  induction es with
  | nil => rfl
  | cons e es ih =>
    rw [List.cons_append, find?, find?, ih]
    split <;> rfl

theorem find?_of_mem (h : Distinct es) {v : α} (hm : (k, v) ∈ es) : find? k es = some v := by
  induction es with
  | nil => cases hm
  | cons e es ih =>
    obtain ⟨he, hes⟩ := List.nodup_cons.1 h
    rcases List.mem_cons.1 hm with rfl | hm
    · rw [find?, if_pos rfl]
    · have hk : k ≠ e.1 := by
        rintro rfl
        exact he (List.mem_map.2 ⟨_, hm, rfl⟩)
      rw [find?, if_neg hk]
      exact ih hes hm

theorem find?_set (v : α) : find? j (set k v es) = if j = k then some v else find? j es := by
  induction es with
  | nil => simp [set, find?]
  | cons e es ih => grind [set, find?]

theorem find?_erase : find? j (erase k es) = if j = k then none else find? j es := by
  induction es with
  | nil => simp [erase, find?]
  | cons e es ih => grind [erase, find?]

theorem find?_map (f : α → β) :
    find? k (es.map fun e => (e.1, f e.2)) = (find? k es).map f := by
  induction es with
  | nil => rfl
  | cons e es ih =>
    rw [List.map_cons, find?, find?, ih]
    split <;> rfl

theorem find?_ofList_of_distinct (h : Distinct es) : find? k (ofList es) = find? k es := by
  suffices hs : ∀ es acc : List (String × α), Distinct es →
      find? k (es.foldl (fun acc e => insert e.1 e.2 acc) acc) =
        (find? k es).or (find? k acc) by
    rw [ofList, hs es [] h]
    cases find? k es <;> rfl
  intro es
  induction es with
  | nil => exact fun _ _ => rfl
  | cons e es ih =>
    intro acc h
    obtain ⟨he, hes⟩ := List.nodup_cons.1 h
    rw [List.foldl_cons, ih _ hes, find?_insert, find?]
    split
    · next hk =>
      rw [hk, find?_eq_none_iff.2 he]
      rfl
    · rfl

/-- What an insertion replaces leaves the sum. -/
theorem sum_insert {es : List (String × Nat)} (h : Sorted es) (k : String) (v : Nat) :
    ((insert k v es).map (·.2)).sum + (find? k es).getD 0 = (es.map (·.2)).sum + v := by
  induction es with
  | nil => simp [insert, find?]
  | cons e es ih =>
    obtain ⟨he, hes⟩ := List.pairwise_cons.1 h
    rw [insert, find?]
    split
    · simp
      omega
    · next hk =>
      split
      · next hlt =>
        have hnone : find? k es = none :=
          find?_eq_none_of_lt fun e' he' => String.lt_trans hlt (he e' he')
        simp [hnone]
        omega
      · have := ih hes
        simp
        omega

/-! ## Entries in order -/

instance (es : List (String × α)) : Decidable (Sorted es) :=
  inferInstanceAs (Decidable (es.Pairwise _))

theorem insert_of_lt {k : String} {v : α} :
    ∀ {es : List (String × α)}, (∀ e ∈ es, e.1 < k) → insert k v es = es ++ [(k, v)]
  | [], _ => rfl
  | (j, w) :: es, h => by
    have hj : j < k := h (j, w) (by simp)
    have hne : k ≠ j := fun hk => String.lt_irrefl j (by rwa [hk] at hj)
    have hnlt : ¬ k < j := fun hk => String.lt_irrefl j (String.lt_trans hj hk)
    rw [insert, if_neg hne, if_neg hnlt, insert_of_lt fun e he => h e (List.mem_cons_of_mem _ he)]
    rfl

/-- Entries in order stay as they are. -/
theorem ofList_of_sorted {es : List (String × α)} (h : Sorted es) : ofList es = es := by
  suffices hs : ∀ es acc : List (String × α), Sorted (acc ++ es) →
      es.foldl (fun acc e => insert e.1 e.2 acc) acc = acc ++ es from hs es [] h
  intro es
  induction es with
  | nil => simp
  | cons e es ih =>
    intro acc h
    have hacc : ∀ a ∈ acc, a.1 < e.1 := fun a ha =>
      (List.pairwise_append.1 h).2.2 a ha e (by simp)
    rw [List.foldl_cons, insert_of_lt hacc, ih _ (by simpa using h)]
    simp

theorem sorted_ofList (es : List (String × α)) : Sorted (ofList es) := by
  suffices hs : ∀ es acc : List (String × α), Sorted acc →
      Sorted (es.foldl (fun acc e => insert e.1 e.2 acc) acc) from hs es [] .nil
  intro es
  induction es with
  | nil => exact fun _ h => h
  | cons e es ih => exact fun acc h => ih _ (sorted_insert e.1 e.2 h)

theorem mem_of_mem_ofList {es : List (String × α)} {e : String × α} (h : e ∈ ofList es) :
    e ∈ es := by
  suffices hs : ∀ es acc : List (String × α),
      e ∈ es.foldl (fun acc e => insert e.1 e.2 acc) acc → e ∈ acc ∨ e ∈ es by
    simpa using hs es [] h
  intro es
  induction es with
  | nil => exact fun _ h => .inl h
  | cons a es ih =>
    intro acc h
    rcases ih _ h with h | h
    · rcases mem_insert h with rfl | h
      · exact .inr List.mem_cons_self
      · exact .inl h
    · exact .inr (List.mem_cons_of_mem _ h)

/-- Entries in order are known by their look-ups. -/
theorem ext_of_sorted (hs : Sorted es) (ht : Sorted fs) (h : ∀ k, find? k es = find? k fs) :
    es = fs := by
  induction es generalizing fs with
  | nil =>
    cases fs with
    | nil => rfl
    | cons f fs =>
      have hf := h f.1
      simp [find?] at hf
  | cons e es ih =>
    obtain ⟨he, hes⟩ := List.pairwise_cons.1 hs
    cases fs with
    | nil =>
      have hf := h e.1
      simp [find?] at hf
    | cons f fs =>
      obtain ⟨hf, hfs⟩ := List.pairwise_cons.1 ht
      have first : ∀ {a b : String × α} {as bs : List (String × α)}, (∀ c ∈ bs, b.1 < c.1) →
          find? a.1 (a :: as) = find? a.1 (b :: bs) → ¬ a.1 < b.1 := by
        intro a b as bs hb hab hlt
        have hnone : find? a.1 (b :: bs) = none :=
          find?_eq_none_of_lt (List.forall_mem_cons.2 ⟨hlt, fun c hc => String.lt_trans hlt (hb c hc)⟩)
        rw [hnone, find?, if_pos rfl] at hab
        cases hab
      have hkey : e.1 = f.1 := String.le_antisymm
        (String.not_lt.1 (first he (h f.1).symm)) (String.not_lt.1 (first hf (h e.1)))
      have hvalue := h e.1
      rw [find?, find?, if_pos rfl, if_pos hkey] at hvalue
      obtain rfl : e = f := Prod.ext hkey (Option.some.inj hvalue)
      refine congrArg (e :: ·) (ih hes hfs fun k => ?_)
      by_cases hk : k = e.1
      · rw [hk, find?_eq_none_of_lt he, find?_eq_none_of_lt hf]
      · have hrest := h k
        rwa [find?, find?, if_neg hk, if_neg hk] at hrest

/-! ## Changes by key -/

theorem sorted_erase (h : Sorted es) : Sorted (erase k es) := h.filter _

theorem distinct_erase (h : Distinct es) : Distinct (erase k es) :=
  h.sublist (List.filter_sublist.map _)

theorem mem_set {e : String × α} {v : α} (h : e ∈ set k v es) : e = (k, v) ∨ e ∈ es := by
  induction es with
  | nil => exact .inl (List.mem_singleton.1 h)
  | cons f es ih =>
    rw [set] at h
    split at h
    · exact (List.mem_cons.1 h).imp_right (List.mem_cons_of_mem f)
    · rcases List.mem_cons.1 h with rfl | h
      · exact .inr List.mem_cons_self
      · exact (ih h).imp_right (List.mem_cons_of_mem f)

theorem distinct_set (h : Distinct es) (v : α) : Distinct (set k v es) := by
  induction es with
  | nil => exact List.nodup_singleton k
  | cons e es ih =>
    obtain ⟨he, hes⟩ := List.nodup_cons.1 h
    rw [set]
    split
    · next hk => exact List.nodup_cons.2 ⟨hk ▸ he, hes⟩
    · next hk =>
      refine List.nodup_cons.2 ⟨fun hmem => ?_, ih hes⟩
      obtain ⟨f, hf, hfe⟩ := List.mem_map.1 hmem
      rcases mem_set hf with rfl | hf
      · exact hk hfe
      · exact he (hfe ▸ List.mem_map_of_mem (f := (·.1)) hf)

theorem erase_of_not_mem (h : k ∉ es.map (·.1)) : erase k es = es :=
  List.filter_eq_self.2 fun _ he => decide_eq_true fun hk => h (hk ▸ List.mem_map_of_mem he)

theorem erase_append : erase k (es ++ fs) = erase k es ++ erase k fs := List.filter_append es fs

theorem set_of_not_mem (h : k ∉ es.map (·.1)) (v : α) : set k v es = es ++ [(k, v)] := by
  induction es with
  | nil => rfl
  | cons e es ih =>
    rw [List.map_cons, List.mem_cons, not_or] at h
    rw [set, if_neg h.1, ih h.2, List.cons_append]

/-- Setting what is there already changes nothing. -/
theorem set_of_find? {v : α} (h : find? k es = some v) : set k v es = es := by
  induction es with
  | nil => cases h
  | cons e es ih =>
    rw [find?] at h
    rw [set]
    by_cases he : k = e.1
    · rw [if_pos he] at h ⊢
      rw [he, ← Option.some.inj h]
    · rw [if_neg he] at h ⊢
      rw [ih h]

theorem set_append_of_mem (h : k ∈ es.map (·.1)) (v : α) : set k v (es ++ fs) = set k v es ++ fs := by
  induction es with
  | nil => cases h
  | cons e es ih =>
    rw [List.cons_append, set, set]
    split
    · rfl
    · next hk => rw [ih ((List.mem_cons.1 h).resolve_left hk), List.cons_append]

theorem ofList_erase (h : Distinct es) : ofList (erase k es) = erase k (ofList es) := by
  refine ext_of_sorted (sorted_ofList _) (sorted_erase (sorted_ofList es)) fun j => ?_
  rw [find?_ofList_of_distinct (distinct_erase h), find?_erase, find?_erase,
    find?_ofList_of_distinct h]

theorem ofList_set (h : Distinct es) (v : α) : ofList (set k v es) = insert k v (ofList es) := by
  refine ext_of_sorted (sorted_ofList _) (sorted_insert k v (sorted_ofList es)) fun j => ?_
  rw [find?_ofList_of_distinct (distinct_set h v), find?_set, find?_insert,
    find?_ofList_of_distinct h]

theorem map_erase (f : α → β) :
    (erase k es).map (fun e => (e.1, f e.2)) = erase k (es.map fun e => (e.1, f e.2)) := by
  rw [erase, erase, List.filter_map]
  rfl

theorem map_set (f : α → β) (v : α) :
    (set k v es).map (fun e => (e.1, f e.2)) = set k (f v) (es.map fun e => (e.1, f e.2)) := by
  induction es with
  | nil => rfl
  | cons e es ih =>
    rw [List.map_cons, set, set]
    split
    · rfl
    · rw [List.map_cons, ih]

end DeadLetters.Entries
