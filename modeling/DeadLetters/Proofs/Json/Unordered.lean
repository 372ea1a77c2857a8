import DeadLetters.Proofs.Json.Rereading

/-!
# Values whose members stand in any order

A text may give the members of an object in any order.  If no key occurs twice, it is read as the
value with the same members in the order of their keys.

    v.WellFormed → v.sorted = v                                            (sorted_of_wellFormed)
    parseValue v.text = .ok v.sorted                                       (parseValue_unordered)
-/

namespace DeadLetters.Json

mutual

/-- No object inside the value names a member twice. -/
def Value.Distinct : Value → Prop
  | .array items => DistinctItems items
  | .object members => Entries.Distinct members ∧ DistinctMembers members
  | _ => True

def DistinctItems : List Value → Prop
  | [] => True
  | v :: vs => v.Distinct ∧ DistinctItems vs

def DistinctMembers : List (String × Value) → Prop
  | [] => True
  | m :: ms => m.2.Distinct ∧ DistinctMembers ms

end

mutual

/-- The value with the members of all objects in the order of their keys. -/
def Value.sorted : Value → Value
  | .array items => .array (sortedItems items)
  | .object members => .object (Entries.ofList (sortedMembers members))
  | v => v

def sortedItems : List Value → List Value
  | [] => []
  | v :: vs => v.sorted :: sortedItems vs

def sortedMembers : List (String × Value) → List (String × Value)
  | [] => []
  | m :: ms => (m.1, m.2.sorted) :: sortedMembers ms

end

theorem distinctItems_iff {vs : List Value} : DistinctItems vs ↔ ∀ v ∈ vs, v.Distinct := by
  induction vs with
  | nil => simp [DistinctItems]
  | cons v vs ih => simp [DistinctItems, ih]

theorem distinctMembers_iff {ms : List (String × Value)} :
    DistinctMembers ms ↔ ∀ m ∈ ms, m.2.Distinct := by
  induction ms with
  | nil => simp [DistinctMembers]
  | cons m ms ih => simp only [DistinctMembers, ih, List.forall_mem_cons]

theorem sortedItems_eq (vs : List Value) : sortedItems vs = vs.map Value.sorted := by
  induction vs with
  | nil => rfl
  | cons v vs ih => rw [sortedItems, ih, List.map_cons]

theorem sortedMembers_eq (ms : List (String × Value)) :
    sortedMembers ms = ms.map fun m => (m.1, m.2.sorted) := by
  induction ms with
  | nil => rfl
  | cons m ms ih => rw [sortedMembers, ih, List.map_cons]

variable {v : Value} {d : Nat} {r : List Char}

/-- What is in order stays as it is. -/
theorem sorted_of_wellFormed (h : v.WellFormed) : v.sorted = v := by
  induction v using Value.induction with
  | null | bool | number | string => rfl
  | array vs ih =>
    have hitems : vs.map Value.sorted = vs :=
      (List.map_congr_left fun v hv => ih v hv (wellFormedItems_iff.1 h v hv)).trans (List.map_id vs)
    rw [Value.sorted, sortedItems_eq, hitems]
  | object ms ih =>
    have hmembers : ms.map (fun m => (m.1, m.2.sorted)) = ms := by
      refine (List.map_congr_left fun m hm => ?_).trans (List.map_id ms)
      rw [ih m hm (wellFormedMembers_iff.1 h.2 m hm)]
      rfl
    rw [Value.sorted, sortedMembers_eq, hmembers, Entries.ofList_of_sorted h.1]

/-- What is in order names no member twice. -/
theorem distinct_of_wellFormed (h : v.WellFormed) : v.Distinct := by
  induction v using Value.induction with
  | null | bool | number | string => trivial
  | array vs ih => exact distinctItems_iff.2 fun v hv => ih v hv (wellFormedItems_iff.1 h v hv)
  | object ms ih =>
    exact ⟨h.1.distinct, distinctMembers_iff.2 fun m hm => ih m hm (wellFormedMembers_iff.1 h.2 m hm)⟩

/-! ## Reading -/

/-- Without doubles, a text in any order is read as the value in order. -/
theorem reads_sorted (hd : v.depth ≤ d) (hi : v.All Number.Integral) (hr : EndsNumeral r) :
    Reads (value d) (fun u => some u.sorted) (v.chars ++ r) v r := by
  have hf : v.All Number.Fits := hi.mono fun _ => Number.Integral.fits
  induction v using Value.induction generalizing d r with
  | null =>
    cases (spelled_printed hf hr).stands with
    | scalar hl ho h => rw [Reads, value_run_scalar hl ho, h]; rfl
  | bool b =>
    cases (spelled_printed hf hr).stands with
    | scalar hl ho h => rw [Reads, value_run_scalar hl ho, h]; rfl
  | number n =>
    cases n with
    | int i =>
      cases (spelled_printed hf hr).stands with
      | scalar hl ho h => rw [Reads, value_run_scalar hl ho, h]; rfl
    | float x => exact hi.elim
  | string t =>
    cases (spelled_printed hf hr).stands with
    | scalar hl ho h => rw [Reads, value_run_scalar hl ho, h]; rfl
  | array vs ih =>
    obtain ⟨e, rfl⟩ : ∃ e, d = e + 1 := ⟨d - 1, by rw [Value.depth] at hd; omega⟩
    have hs := (congrArg skipGap (chars_array_append vs r)).trans (skipGap_cons rfl _)
    have all : ItemsAt (Reads (value e) fun u => some u.sorted) true _ vs r :=
      itemsAt_printed r (fun v _ => startsItem_chars v) fun v hv u hu =>
        ih v hv (itemsDepth_le_iff.1 (Nat.le_of_succ_le_succ hd) v hv) (allItems_iff.1 hi v hv) hu
          (allItems_iff.1 hf v hv)
    have hitems : vs.mapM (fun u => some u.sorted) = some (vs.map Value.sorted) := List.mapM_pure
    rw [Reads, value_run_array hs, toOption_map, all.toOption_items, hitems, Value.sorted,
      sortedItems_eq]
    rfl
  | object ms ih =>
    obtain ⟨e, rfl⟩ : ∃ e, d = e + 1 := ⟨d - 1, by rw [Value.depth] at hd; omega⟩
    have hs := (congrArg skipGap (chars_object_append ms r)).trans (skipGap_cons rfl _)
    have all : MembersAt (Reads (value e) fun u => some u.sorted) true _ ms r :=
      membersAt_printed r fun m hm u hu =>
        ih m hm (membersDepth_le_iff.1 (Nat.le_of_succ_le_succ hd) m hm)
          (allMembers_iff.1 hi m hm) hu (allMembers_iff.1 hf m hm)
    have hmembers : ms.mapM (fun m => (some m.2.sorted).map fun a => (m.1, a)) =
        some (ms.map fun m => (m.1, m.2.sorted)) := List.mapM_pure
    rw [Reads, value_run_object hs, toOption_map, all.toOption_members, hmembers, Value.sorted,
      sortedMembers_eq]
    rfl

theorem parseValue_unordered (hd : v.depth ≤ depthLimit) (hi : v.All Number.Integral) :
    parseValue v.text = .ok v.sorted := by
  have h := reads_sorted hd hi endsNumeral_nil
  rw [List.append_nil] at h
  refine toOption_eq_some_iff.1 (toOption_parse (r := []) ?_ rfl)
  rwa [Value.text, String.toList_ofList]

end DeadLetters.Json
