import DeadLetters.Proofs.Json.Documents
import DeadLetters.Proofs.Json.Unordered

/-!
# Merging values

What a merge patch means for values, and that merging texts means the same.  A patch that is no
object replaces the value.  An object is merged member by member: `null` removes the member, and any
other patch of a member is merged into what is there, or into nothing.

The members of the text stay in their places, so the text that comes out has its members in some
order of its own; read again, it is the merged value.

    patchText v.text p.text = .ok (v.merged p).text                                (patchText_text)
    (v.merged p).sorted = v.sorted.mergePatch p                                    (sorted_merged)
    (v.merged p).merged p = v.merged p                                             (merged_merged)
-/

namespace DeadLetters.Json

/-- The members of an object; anything else has none. -/
def Value.members : Value → List (String × Value)
  | .object members => members
  | _ => []

mutual

/-- The value after a merge patch; `put` puts a member into an object. -/
def Value.mergeBy (put : String → Value → List (String × Value) → List (String × Value))
    (target : Value) : Value → Value
  | .object patch => .object (mergeMembersBy put target.members patch)
  | patch => patch

/-- The members after the patches of members, one after another. -/
def mergeMembersBy (put : String → Value → List (String × Value) → List (String × Value))
    (members : List (String × Value)) : List (String × Value) → List (String × Value)
  | [] => members
  | (key, .null) :: patch => mergeMembersBy put (Entries.erase key members) patch
  | (key, p) :: patch =>
    mergeMembersBy put
      (put key (((Entries.find? key members).getD .null).mergeBy put p) members) patch

end

/-- The value after a merge patch, with members in the order of their keys. -/
def Value.mergePatch (target patch : Value) : Value := target.mergeBy Entries.insert patch

/-- The value after a merge patch, with members in their places and new ones behind them. -/
def Value.merged (target patch : Value) : Value := target.mergeBy Entries.set patch

theorem mergeMembersBy_null (put : String → Value → List (String × Value) → List (String × Value))
    (ms ps : List (String × Value)) (k : String) :
    mergeMembersBy put ms ((k, .null) :: ps) = mergeMembersBy put (Entries.erase k ms) ps := rfl

theorem mergeMembersBy_cons (put : String → Value → List (String × Value) → List (String × Value))
    (ms ps : List (String × Value)) (k : String) {p : Value} (hp : p ≠ .null) :
    mergeMembersBy put ms ((k, p) :: ps) =
      mergeMembersBy put
        (put k (((Entries.find? k ms).getD .null).mergeBy put p) ms) ps := by
  cases p <;> first | rfl | exact absurd rfl hp

/-! ## What merging keeps -/

variable {u v p : Value} {ms ps : List (String × Value)} {k : String}

theorem mem_erase {m : String × Value} (h : m ∈ Entries.erase k ms) : m ∈ ms :=
  (List.mem_filter.1 h).1

/-- What all members have, those of a merged object have too, if the patches keep it. -/
theorem forall_mem_mergeMembers {P : Value → Prop} (hms : ∀ m ∈ ms, P m.2) (hnull : P .null)
    (hps : ∀ m ∈ ps, ∀ t, P t → P (t.merged m.2)) :
    ∀ m ∈ mergeMembersBy Entries.set ms ps, P m.2 := by
  induction ps generalizing ms with
  | nil => exact hms
  | cons m ps ih =>
    obtain ⟨k, p⟩ := m
    have hrest : ∀ m ∈ ps, ∀ t, P t → P (t.merged m.2) := fun m hm => hps m (by simp [hm])
    by_cases hp : p = .null
    · rw [hp, mergeMembersBy_null]
      exact ih (fun m hm => hms m (mem_erase hm)) hrest
    · rw [mergeMembersBy_cons _ _ _ _ hp]
      have hold : P ((Entries.find? k ms).getD .null) := by
        cases hf : Entries.find? k ms with
        | none => exact hnull
        | some t => exact hms _ (Entries.mem_of_find?_eq_some hf)
      refine ih (fun m hm => ?_) hrest
      rcases Entries.mem_set hm with rfl | hm
      · exact hps _ List.mem_cons_self _ hold
      · exact hms m hm

/-- A value that is nested no deeper than `d`, all of whose numbers have a property. -/
structure Value.Within (q : Number → Prop) (d : Nat) (v : Value) : Prop where
  depth_le : v.depth ≤ d
  all : v.All q

theorem within_null (q : Number → Prop) (d : Nat) : Value.null.Within q d := ⟨Nat.zero_le d, trivial⟩

theorem within_object_iff {q : Number → Prop} {d : Nat} :
    (Value.object ms).Within q (d + 1) ↔ ∀ m ∈ ms, m.2.Within q d := by
  constructor
  · rintro ⟨hd, ha⟩ m hm
    exact ⟨membersDepth_le_iff.1 (Nat.le_of_succ_le_succ hd) m hm, allMembers_iff.1 ha m hm⟩
  · intro h
    exact ⟨Nat.succ_le_succ (membersDepth_le_iff.2 fun m hm => (h m hm).depth_le),
      allMembers_iff.2 fun m hm => (h m hm).all⟩

/-- Nothing is nested deeper than before, and no other numbers come in. -/
theorem within_merged {q : Number → Prop} {d : Nat} (hv : v.Within q d) (hp : p.Within q d) :
    (v.merged p).Within q d := by
  induction p using Value.induction generalizing v d with
  | null | bool | number | string | array => exact hp
  | object ps ih =>
    obtain ⟨e, rfl⟩ : ∃ e, d = e + 1 := by
      have := hp.depth_le
      rw [Value.depth] at this
      exact ⟨d - 1, by omega⟩
    have hmembers : ∀ m ∈ v.members, m.2.Within q e := by
      cases v with
      | object ms => exact within_object_iff.1 hv
      | null | bool | number | string | array => exact fun m hm => by cases hm
    refine within_object_iff.2 (forall_mem_mergeMembers hmembers (within_null q e) ?_)
    exact fun m hm t ht => ih m hm ht (within_object_iff.1 hp m hm)

theorem depth_merged {d : Nat} (hv : v.depth ≤ d) (hp : p.depth ≤ d) : (v.merged p).depth ≤ d :=
  (within_merged (q := fun _ => True) ⟨hv, v.all_of_forall fun _ => trivial⟩
    ⟨hp, p.all_of_forall fun _ => trivial⟩).depth_le

theorem distinct_keys_mergeMembers (h : Entries.Distinct ms) :
    Entries.Distinct (mergeMembersBy Entries.set ms ps) := by
  induction ps generalizing ms with
  | nil => exact h
  | cons m ps ih =>
    obtain ⟨k, p⟩ := m
    by_cases hp : p = .null
    · rw [hp, mergeMembersBy_null]
      exact ih (Entries.distinct_erase h)
    · rw [mergeMembersBy_cons _ _ _ _ hp]
      exact ih (Entries.distinct_set h _)

theorem distinct_members (h : v.Distinct) :
    Entries.Distinct v.members ∧ ∀ m ∈ v.members, m.2.Distinct := by
  cases v with
  | object ms => exact ⟨h.1, distinctMembers_iff.1 h.2⟩
  | null | bool | number | string | array => exact ⟨List.nodup_nil, fun m hm => by cases hm⟩

theorem distinct_merged (hv : v.Distinct) (hp : p.Distinct) : (v.merged p).Distinct := by
  induction p using Value.induction generalizing v with
  | null | bool | number | string | array => exact hp
  | object ps ih =>
    obtain ⟨hkeys, hmembers⟩ := distinct_members hv
    refine ⟨distinct_keys_mergeMembers hkeys, distinctMembers_iff.2 ?_⟩
    exact forall_mem_mergeMembers hmembers trivial fun m hm t ht =>
      ih m hm ht (distinctMembers_iff.1 hp.2 m hm)

/-! ## Merging again -/

/-- What a patch does not name stays. -/
theorem find?_mergeMembers_of_not_mem (h : k ∉ ps.map (·.1)) :
    Entries.find? k (mergeMembersBy Entries.set ms ps) = Entries.find? k ms := by
  induction ps generalizing ms with
  | nil => rfl
  | cons m ps ih =>
    obtain ⟨j, p⟩ := m
    obtain ⟨hj, hrest⟩ := not_or.1 (mt List.mem_cons.2 h)
    by_cases hp : p = .null
    · rw [hp, mergeMembersBy_null, ih hrest, Entries.find?_erase, if_neg hj]
    · rw [mergeMembersBy_cons _ _ _ _ hp, ih hrest, Entries.find?_set, if_neg hj]

/-- What a patch names is gone, or merged. -/
theorem find?_mergeMembers_of_mem (hps : Entries.Distinct ps) (h : (k, p) ∈ ps) :
    p = .null ∧ Entries.find? k (mergeMembersBy Entries.set ms ps) = none ∨
      p ≠ .null ∧ Entries.find? k (mergeMembersBy Entries.set ms ps) =
        some (((Entries.find? k ms).getD .null).merged p) := by
  induction ps generalizing ms with
  | nil => cases h
  | cons m ps ih =>
    obtain ⟨j, q⟩ := m
    obtain ⟨hj, hps⟩ := List.nodup_cons.1 hps
    rcases List.mem_cons.1 h with heq | hmem
    · obtain ⟨rfl, rfl⟩ := Prod.mk.inj heq
      by_cases hp : p = .null
      · refine .inl ⟨hp, ?_⟩
        rw [hp, mergeMembersBy_null, find?_mergeMembers_of_not_mem hj, Entries.find?_erase,
          if_pos rfl]
      · refine .inr ⟨hp, ?_⟩
        rw [mergeMembersBy_cons _ _ _ _ hp, find?_mergeMembers_of_not_mem hj, Entries.find?_set,
          if_pos rfl]
        rfl
    · have hkj : k ≠ j := by
        rintro rfl
        exact hj (List.mem_map_of_mem (f := (·.1)) hmem)
      by_cases hq : q = .null
      · have hrest := @ih (Entries.erase j ms) hps hmem
        rw [Entries.find?_erase, if_neg hkj] at hrest
        rwa [hq, mergeMembersBy_null]
      · rw [mergeMembersBy_cons _ _ _ _ hq]
        have hrest := fun u => @ih (Entries.set j u ms) hps hmem
        simp only [Entries.find?_set, if_neg hkj] at hrest
        exact hrest _

/-- Patches that are merged already change nothing. -/
theorem mergeMembers_of_absorbed
    (h : ∀ m ∈ ps, m.2 = .null ∧ Entries.find? m.1 ms = none ∨
      m.2 ≠ .null ∧ ∃ t, Entries.find? m.1 ms = some t ∧ t.merged m.2 = t) :
    mergeMembersBy Entries.set ms ps = ms := by
  induction ps with
  | nil => rfl
  | cons m ps ih =>
    obtain ⟨k, p⟩ := m
    have hrest := ih fun m hm => h m (List.mem_cons_of_mem _ hm)
    rcases h (k, p) List.mem_cons_self with ⟨hp, hnone⟩ | ⟨hp, t, ht, hmerged⟩
    · obtain rfl : p = .null := hp
      rw [mergeMembersBy_null, Entries.erase_of_not_mem (Entries.find?_eq_none_iff.1 hnone), hrest]
    · rw [mergeMembersBy_cons _ _ _ _ hp, ht, Option.getD_some]
      show mergeMembersBy Entries.set (Entries.set k (t.merged p) ms) ps = ms
      rw [hmerged, Entries.set_of_find? ht, hrest]

/-- Merging a patch again changes nothing. -/
theorem merged_merged (hp : p.Distinct) (v : Value) : (v.merged p).merged p = v.merged p := by
  induction p using Value.induction generalizing v with
  | null | bool | number | string | array => rfl
  | object ps ih =>
    refine congrArg Value.object (mergeMembers_of_absorbed fun m hm => ?_)
    rcases @find?_mergeMembers_of_mem m.2 v.members ps m.1 hp.1 hm with hgone | ⟨hnull, hfind⟩
    · exact .inl hgone
    · exact .inr ⟨hnull, _, hfind, ih m hm (distinctMembers_iff.1 hp.2 m hm) _⟩

/-! ## The order of members -/

def inOrder (ms : List (String × Value)) : List (String × Value) :=
  Entries.ofList (ms.map fun m => (m.1, m.2.sorted))

theorem members_sorted (v : Value) : v.sorted.members = inOrder v.members := by
  cases v with
  | object ms => exact congrArg Entries.ofList (sortedMembers_eq ms)
  | null | bool | number | string | array => rfl

theorem distinct_map (h : Entries.Distinct ms) :
    Entries.Distinct (ms.map fun m => (m.1, m.2.sorted)) := by
  rw [Entries.Distinct, List.map_map]
  exact h

theorem find?_inOrder (h : Entries.Distinct ms) :
    Entries.find? k (inOrder ms) = (Entries.find? k ms).map Value.sorted := by
  rw [inOrder, Entries.find?_ofList_of_distinct (distinct_map h), Entries.find?_map]

theorem inOrder_erase (h : Entries.Distinct ms) :
    inOrder (Entries.erase k ms) = Entries.erase k (inOrder ms) := by
  rw [inOrder, Entries.map_erase, Entries.ofList_erase (distinct_map h), inOrder]

theorem inOrder_set (h : Entries.Distinct ms) (v : Value) :
    inOrder (Entries.set k v ms) = Entries.insert k v.sorted (inOrder ms) := by
  rw [inOrder, Entries.map_set, Entries.ofList_set (distinct_map h), inOrder]

theorem inOrder_mergeMembers (hkeys : Entries.Distinct ms) (hms : ∀ m ∈ ms, m.2.Distinct)
    (hps : ∀ m ∈ ps, m.2.WellFormed)
    (hmerged : ∀ m ∈ ps, ∀ t : Value, t.Distinct → (t.merged m.2).sorted = t.sorted.mergePatch m.2) :
    inOrder (mergeMembersBy Entries.set ms ps) = mergeMembersBy Entries.insert (inOrder ms) ps := by
  induction ps generalizing ms with
  | nil => rfl
  | cons m ps ih =>
    obtain ⟨k, p⟩ := m
    have hrest : ∀ m ∈ ps, m.2.WellFormed := fun m hm => hps m (by simp [hm])
    have hmergedRest : ∀ m ∈ ps, ∀ t : Value, t.Distinct →
        (t.merged m.2).sorted = t.sorted.mergePatch m.2 := fun m hm => hmerged m (by simp [hm])
    by_cases hp : p = .null
    · rw [hp, mergeMembersBy_null, mergeMembersBy_null, ← inOrder_erase hkeys]
      exact ih (Entries.distinct_erase hkeys) (fun m hm => hms m (mem_erase hm)) hrest hmergedRest
    · have hold : ((Entries.find? k ms).getD .null).Distinct := by
        cases hf : Entries.find? k ms with
        | none => trivial
        | some t => exact hms _ (Entries.mem_of_find?_eq_some hf)
      have hsorted : ((Entries.find? k ms).getD .null).sorted =
          (Entries.find? k (inOrder ms)).getD .null := by
        rw [find?_inOrder hkeys]
        cases Entries.find? k ms <;> rfl
      have hvalue := hmerged (k, p) List.mem_cons_self _ hold
      rw [mergeMembersBy_cons _ _ _ _ hp, mergeMembersBy_cons _ _ _ _ hp, ← hsorted]
      show _ = mergeMembersBy Entries.insert (Entries.insert k (Value.mergePatch _ p) _) ps
      rw [← hvalue, ← inOrder_set hkeys]
      refine ih (Entries.distinct_set hkeys _) (fun m hm => ?_) hrest hmergedRest
      rcases Entries.mem_set hm with rfl | hm
      · exact distinct_merged hold (distinct_of_wellFormed (hps (k, p) List.mem_cons_self))
      · exact hms m hm

/-- Whatever the order of the members, the merged value is the same. -/
theorem sorted_merged (hv : v.Distinct) (hp : p.WellFormed) :
    (v.merged p).sorted = v.sorted.mergePatch p := by
  induction p using Value.induction generalizing v with
  | null | bool | number | string | array => exact sorted_of_wellFormed hp
  | object ps ih =>
    obtain ⟨hkeys, hmembers⟩ := distinct_members hv
    have hps : ∀ m ∈ ps, m.2.WellFormed := wellFormedMembers_iff.1 hp.2
    have horder := inOrder_mergeMembers hkeys hmembers hps fun m hm t ht => ih m hm ht (hps m hm)
    rw [← members_sorted] at horder
    rw [Value.mergePatch, Value.mergeBy, ← horder, Value.merged, Value.mergeBy, Value.sorted,
      sortedMembers_eq, inOrder]

/-! ## Drafts -/

theorem flatMap_escaped_injective {s t : List Char} (h : s.flatMap escaped = t.flatMap escaped) :
    s = t := by
  have hs := stringBody_printed s []
  rw [h, stringBody_printed t []] at hs
  cases hs
  rfl

/-- Printed keys are spelled alike only if they are the same. -/
theorem Key.same_printed (j k : String) : (Key.printed j).same (.printed k) = decide (j = k) := by
  rw [Key.printed, Key.printed, Key.same, decide_eq_true rfl, Bool.true_and]
  refine decide_eq_decide.2 ⟨fun h => String.toList_inj.1 (flatMap_escaped_injective h), ?_⟩
  rintro rfl
  rfl

def memberText (m : String × Value) : List Char := memberChars (m.1, m.2.chars)

theorem chars_object_eq (ms : List (String × Value)) :
    (Value.object ms).chars = '\x7b' :: commaSeparated (ms.map memberText) ++ ['\x7d'] := by
  rw [Value.chars, objectChars, memberValues_eq, List.map_map]
  rfl

/-- A draft that stands in the text, spelled like a value. -/
structure Draft.Shows (t : Draft) (v : Value) : Prop where
  stays : t ≠ .removed
  chars_eq : t.chars = v.chars

theorem Draft.Shows.member {t : Draft} (h : t.Shows v) (ds : List (Key × Draft)) :
    Draft.memberChars ((.printed k, t) :: ds) = memberText (k, v) :: Draft.memberChars ds := by
  rw [Draft.memberChars, h.chars_eq, Key.chars_printed]
  · rfl
  · exact h.stays

theorem shows_replaced (h : p.document.withoutNulls = u.document) :
    (Draft.replaced p.document.withoutNulls).Shows u :=
  ⟨nofun, by rw [h, Draft.chars, chars_document]⟩

/-- How the members of an object become a draft: some are unchanged, and what has been changed or
removed has a key that no other patch names. -/
inductive Drafted (pending : List String) : List (Key × Draft) → List (String × Value) → Prop
  | nil : Drafted pending [] []
  | unchanged {m : String × Value} {ds : List (Key × Draft)} {ms : List (String × Value)}
      (h : Drafted pending ds ms) :
      Drafted pending ((.printed m.1, m.2.document.draft) :: ds) (m :: ms)
  | changed {k : String} {t : Draft} {v : Value} {ds : List (Key × Draft)}
      {ms : List (String × Value)} (hk : k ∉ pending) (ht : t.Shows v) (h : Drafted pending ds ms) :
      Drafted pending ((.printed k, t) :: ds) ((k, v) :: ms)
  | removed {k : String} {ds : List (Key × Draft)} {ms : List (String × Value)} (hk : k ∉ pending)
      (h : Drafted pending ds ms) : Drafted pending ((.printed k, .removed) :: ds) ms

theorem draft_ne_removed (d : Document) : d.draft ≠ .removed := by
  intro h
  cases d <;> cases h

theorem shows_draft (v : Value) : v.document.draft.Shows v := by
  induction v using Value.induction with
  | null | bool | number | string => exact ⟨draft_ne_removed _, rfl⟩
  | array vs =>
    refine ⟨draft_ne_removed _, ?_⟩
    rw [← chars_document]
    rfl
  | object ms ih =>
    have hmembers : Draft.memberChars (memberDrafts (memberDocuments ms)) = ms.map memberText := by
      induction ms with
      | nil => rfl
      | cons m ms ihs =>
        rw [memberDocuments, memberDrafts, (ih m List.mem_cons_self).member,
          ihs fun m hm => ih m (List.mem_cons_of_mem _ hm)]
        rfl
    refine ⟨draft_ne_removed _, ?_⟩
    rw [Value.document, Document.draft, Draft.chars, hmembers, chars_object_eq, List.map_nil,
      List.append_nil]

namespace Drafted

variable {pending : List String} {ds : List (Key × Draft)}

theorem memberChars (h : Drafted pending ds ms) : Draft.memberChars ds = ms.map memberText := by
  induction h with
  | nil => rfl
  | unchanged _ ih => rw [(shows_draft _).member, ih, List.map_cons]
  | changed _ ht _ ih => rw [ht.member, ih, List.map_cons]
  | removed _ _ ih => rw [Draft.memberChars, ih]

theorem any_same (h : Drafted pending ds ms) (hk : k ∈ pending) :
    (ds.any fun d => d.1.same (.printed k)) = decide (k ∈ ms.map (·.1)) := by
  induction h with
  | nil => rfl
  | unchanged _ ih | changed _ _ _ ih =>
    rw [List.any_cons, ih, Key.same_printed, List.map_cons, ← Bool.decide_or]
    exact decide_eq_decide.2 (by rw [List.mem_cons, eq_comm])
  | removed hj _ ih =>
    rw [List.any_cons, ih, Key.same_printed, decide_eq_false (by rintro rfl; exact hj hk)]
    rfl

theorem of_drafts (ms : List (String × Value)) :
    Drafted pending (memberDrafts (memberDocuments ms)) ms := by
  induction ms with
  | nil => exact .nil
  | cons m ms ih => exact ih.unchanged

theorem tail (h : Drafted (k :: pending) ds ms) : Drafted pending ds ms := by
  induction h with
  | nil => exact .nil
  | unchanged _ ih => exact ih.unchanged
  | changed hk ht _ ih => exact ih.changed (fun h => hk (List.mem_cons_of_mem _ h)) ht
  | removed hk _ ih => exact ih.removed fun h => hk (List.mem_cons_of_mem _ h)

theorem remove (h : Drafted (k :: pending) ds ms) (hkeys : Entries.Distinct ms) (hk : k ∉ pending)
    {f : Draft → Draft} (hf : ∀ v : Value, f v.document.draft = .removed) :
    Drafted pending (Draft.update (.printed k) f ds) (Entries.erase k ms) := by
  induction h with
  | nil => exact .nil
  | @unchanged m ds ms h ih =>
    obtain ⟨hm, hms⟩ := List.nodup_cons.1 hkeys
    rw [Draft.update, Key.same_printed]
    by_cases hmk : m.1 = k
    · rw [if_pos (decide_eq_true hmk), hf, Entries.erase, List.filter_cons_of_neg (by simp [hmk])]
      subst hmk
      have hrest : ms.filter (fun e => e.1 ≠ m.1) = ms := Entries.erase_of_not_mem hm
      exact .removed hk (hrest.symm ▸ h.tail)
    · rw [if_neg (by simp [hmk]), Entries.erase, List.filter_cons_of_pos (by simp [hmk])]
      exact (ih hms).unchanged
  | @changed j t v ds ms hj ht h ih =>
    obtain ⟨hjk, hj⟩ := not_or.1 (mt List.mem_cons.2 hj)
    rw [Draft.update, Key.same_printed, if_neg (by simp [hjk]), Entries.erase,
      List.filter_cons_of_pos (by simp [hjk])]
    exact .changed hj ht (ih (List.nodup_cons.1 hkeys).2)
  | @removed j ds ms hj h ih =>
    obtain ⟨hjk, hj⟩ := not_or.1 (mt List.mem_cons.2 hj)
    rw [Draft.update, Key.same_printed, if_neg (by simp [hjk])]
    exact .removed hj (ih hkeys)

theorem replace (h : Drafted (k :: pending) ds ms) (hk : k ∉ pending) {f : Draft → Draft}
    {v : Value} (hf : Entries.find? k ms = some v) (hu : (f v.document.draft).Shows u) :
    Drafted pending (Draft.update (.printed k) f ds) (Entries.set k u ms) := by
  induction h with
  | nil => cases hf
  | @unchanged m ds ms h ih =>
    rw [Entries.find?] at hf
    rw [Draft.update, Key.same_printed, Entries.set]
    by_cases hmk : k = m.1
    · rw [if_pos hmk, Option.some.injEq] at hf
      rw [if_pos (decide_eq_true hmk.symm), if_pos hmk, ← hmk, hf]
      exact .changed hk hu h.tail
    · rw [if_neg hmk] at hf
      rw [if_neg (by simp [Ne.symm hmk]), if_neg hmk]
      exact (ih hf).unchanged
  | @changed j t v ds ms hj ht h ih =>
    obtain ⟨hjk, hj⟩ := not_or.1 (mt List.mem_cons.2 hj)
    rw [Entries.find?, if_neg (Ne.symm hjk)] at hf
    rw [Draft.update, Key.same_printed, if_neg (by simp [hjk]), Entries.set, if_neg (Ne.symm hjk)]
    exact .changed hj ht (ih hf)
  | @removed j ds ms hj h ih =>
    obtain ⟨hjk, hj⟩ := not_or.1 (mt List.mem_cons.2 hj)
    rw [Draft.update, Key.same_printed, if_neg (by simp [hjk])]
    exact .removed hj (ih hf)

end Drafted

/-! ## Patches -/

theorem document_ne_null (hp : p ≠ .null) : p.document ≠ .null := by
  cases p with
  | null => exact absurd rfl hp
  | bool | number | string | array | object => exact fun h => by cases h

theorem patch_null (v : Value) : v.document.draft.patch .null = .removed := by
  cases v <;> simp [Value.document, Document.draft, Draft.patch, Draft.settle]

/-- A key that is named once is not among those that were put before the rest. -/
theorem fresh_append {es : List (String × Value)} (hps : Entries.Distinct ((k, p) :: ps))
    (h : ∀ m ∈ (k, p) :: ps, m.1 ∉ es.map (·.1)) (u : Value) :
    ∀ m ∈ ps, m.1 ∉ (es ++ [(k, u)]).map (·.1) := by
  intro m hm hmem
  rw [List.map_append, List.mem_append, List.map_singleton, List.mem_singleton] at hmem
  rcases hmem with hmem | hk
  · exact h m (List.mem_cons_of_mem _ hm) hmem
  · exact (List.nodup_cons.1 hps).1 (List.mem_map.2 ⟨m, hm, hk⟩)

theorem membersWithoutNulls_documents (hps : Entries.Distinct ps)
    (hfresh : ∀ m ∈ ps, m.1 ∉ ms.map (·.1))
    (hmerged : ∀ m ∈ ps, m.2 ≠ .null → m.2.document.withoutNulls = (Value.null.merged m.2).document) :
    memberDocuments (mergeMembersBy Entries.set ms ps) =
      memberDocuments ms ++ membersWithoutNulls (memberDocuments ps) := by
  induction ps generalizing ms with
  | nil => exact (List.append_nil _).symm
  | cons m ps ih =>
    obtain ⟨k, p⟩ := m
    have hps' : Entries.Distinct ps := (List.nodup_cons.1 hps).2
    have hkms : k ∉ ms.map (·.1) := hfresh (k, p) List.mem_cons_self
    have hrest : ∀ m ∈ ps, m.1 ∉ ms.map (·.1) := fun m hm => hfresh m (List.mem_cons_of_mem _ hm)
    have hmergedRest := fun m hm => hmerged m (List.mem_cons_of_mem _ hm)
    by_cases hp : p = .null
    · rw [hp, mergeMembersBy_null, Entries.erase_of_not_mem hkms, ih hps' hrest hmergedRest]
      rfl
    · rw [mergeMembersBy_cons _ _ _ _ hp, Entries.find?_eq_none_iff.2 hkms, Entries.set_of_not_mem hkms]
      show memberDocuments (mergeMembersBy _ (ms ++ [(k, Value.null.merged p)]) ps) = _
      rw [ih hps' (fresh_append hps hfresh _) hmergedRest, memberDocuments_eq (ms ++ _), List.map_append,
        ← memberDocuments_eq, List.append_assoc, memberDocuments, membersWithoutNulls,
        hmerged (k, p) List.mem_cons_self hp]
      · rfl
      · exact document_ne_null hp

/-- What a patch adds is the patch without the members that are `null`. -/
theorem withoutNulls_document (hp : p ≠ .null) (hd : p.Distinct) :
    p.document.withoutNulls = (Value.null.merged p).document := by
  induction p using Value.induction with
  | null => exact absurd rfl hp
  | bool | number | string | array => rfl
  | object ps ih =>
    have hmembers : memberDocuments (mergeMembersBy Entries.set [] ps) = _ :=
      membersWithoutNulls_documents hd.1 (fun _ _ => List.not_mem_nil)
        fun m hm hm0 => ih m hm hm0 (distinctMembers_iff.1 hd.2 m hm)
    rw [Value.document, Document.withoutNulls, Value.merged, Value.mergeBy, Value.document,
      Value.members, hmembers]
    · rfl
    · intro _ h
      cases h

/-- The text of a member that a patch adds. -/
theorem texts_addition (k : String) {p : Value} (hp : p ≠ .null) (hd : p.Distinct) :
    (addition? (.printed k) p.document).toList.map Draft.additionChars =
      [memberText (k, Value.null.merged p)] := by
  rw [addition?, withoutNulls_document hp hd]
  · rw [Option.toList, List.map_singleton, Draft.additionChars, Key.spelling_printed,
      chars_document]
    rfl
  · exact document_ne_null hp

/-- The texts of members that are merged: those of the draft, behind them what other members of the
patch have added before, and then what is added. -/
theorem texts_patchMembers {ds : List (Key × Draft)} {plus : List (String × Value)}
    (h : Drafted (ps.map (·.1)) ds ms) (hms : Entries.Distinct ms) (hvs : ∀ m ∈ ms, m.2.Distinct)
    (hps : Entries.Distinct ps) (hplus : ∀ m ∈ ps, m.1 ∉ plus.map (·.1))
    (hd : ∀ m ∈ ps, m.2.Distinct)
    (hmerged : ∀ m ∈ ps, m.2 ≠ .null → ∀ t : Value, t.Distinct →
      (t.document.draft.patch m.2.document).Shows (t.merged m.2)) :
    Draft.memberChars (Draft.patchMembers ds (memberDocuments ps)).1 ++ plus.map memberText ++
        (Draft.patchMembers ds (memberDocuments ps)).2.map Draft.additionChars =
      (mergeMembersBy Entries.set (ms ++ plus) ps).map memberText := by
  induction ps generalizing ds ms plus with
  | nil =>
    rw [memberDocuments, Draft.patchMembers, h.memberChars, List.map_nil, List.append_nil,
      mergeMembersBy, List.map_append]
  | cons m ps ih =>
    obtain ⟨k, p⟩ := m
    obtain ⟨hk, hps'⟩ := List.nodup_cons.1 hps
    have hkplus : k ∉ plus.map (·.1) := hplus (k, p) List.mem_cons_self
    have hplusRest : ∀ m ∈ ps, m.1 ∉ plus.map (·.1) := fun m hm => hplus m (List.mem_cons_of_mem _ hm)
    have hdRest : ∀ m ∈ ps, m.2.Distinct := fun m hm => hd m (List.mem_cons_of_mem _ hm)
    have hmergedRest := fun m hm => hmerged m (List.mem_cons_of_mem _ hm)
    rw [memberDocuments, Draft.patchMembers, h.any_same (by simp)]
    by_cases hmem : k ∈ ms.map (·.1)
    · rw [if_pos (decide_eq_true hmem)]
      by_cases hp : p = .null
      · rw [hp, mergeMembersBy_null, Entries.erase_append, Entries.erase_of_not_mem hkplus]
        exact ih (h.remove hms hk patch_null) (Entries.distinct_erase hms)
          (fun m hm => hvs m (mem_erase hm)) hps' hplusRest hdRest hmergedRest
      · obtain ⟨v, hv⟩ := Option.ne_none_iff_exists'.1 (mt Entries.find?_eq_none_iff.1 (not_not_intro hmem))
        have hold : v.Distinct := hvs (k, v) (Entries.mem_of_find?_eq_some hv)
        rw [mergeMembersBy_cons _ _ _ _ hp, Entries.find?_append, hv, Entries.set_append_of_mem hmem]
        refine ih (h.replace hk hv (hmerged (k, p) List.mem_cons_self hp v hold))
          (Entries.distinct_set hms _) (fun m hm => ?_) hps' hplusRest hdRest hmergedRest
        rcases Entries.mem_set hm with rfl | hm
        · exact distinct_merged hold (hd (k, p) List.mem_cons_self)
        · exact hvs m hm
    · rw [if_neg (by simpa using hmem)]
      have hnone : k ∉ (ms ++ plus).map (·.1) := by
        rw [List.map_append, List.mem_append]
        exact not_or.2 ⟨hmem, hkplus⟩
      by_cases hp : p = .null
      · rw [hp, mergeMembersBy_null, Entries.erase_of_not_mem hnone]
        exact ih h.tail hms hvs hps' hplusRest hdRest hmergedRest
      · have hadded := texts_addition k hp (hd (k, p) List.mem_cons_self)
        have hrest := ih h.tail hms hvs hps' (fresh_append hps hplus (Value.null.merged p)) hdRest
          hmergedRest
        rw [mergeMembersBy_cons _ _ _ _ hp, Entries.find?_eq_none_iff.2 hnone,
          Entries.set_of_not_mem hnone, List.append_assoc ms]
        show _ = (mergeMembersBy _ (ms ++ (plus ++ [(k, Value.null.merged p)])) ps).map memberText
        rw [← hrest]
        simp only [List.map_append, hadded, List.map_singleton, List.append_assoc]

theorem mergePatch_document (v : Value) (hp : p ≠ .null) :
    v.document.mergePatch p.document = v.document.draft.patch p.document := by
  cases p with
  | null => exact absurd rfl hp
  | bool | number | string | array | object => rfl

/-- A patch that is no object replaces the value. -/
theorem shows_replacement (v : Value) (hp : p ≠ .null) (ho : ∀ ps, p.document ≠ .object ps) :
    (v.document.draft.patch p.document).Shows p := by
  rw [← mergePatch_document v hp, Document.mergePatch_of_not_object ho]
  exact ⟨nofun, chars_document p⟩

/-- A member under its patch is spelled like the merged value. -/
theorem shows_patch (hv : v.Distinct) (hp : p ≠ .null) (hd : p.Distinct) :
    (v.document.draft.patch p.document).Shows (v.merged p) := by
  induction p using Value.induction generalizing v with
  | null => exact absurd rfl hp
  | bool | number | string | array => exact shows_replacement v hp nofun
  | object ps ih =>
    cases v with
    | object ms =>
      obtain ⟨hkeys, hvalues⟩ := distinct_members hv
      have hfresh : ∀ m ∈ ps, m.1 ∉ ([] : List (String × Value)).map (·.1) :=
        fun _ _ => List.not_mem_nil
      have htexts := texts_patchMembers (Drafted.of_drafts ms) hkeys hvalues hd.1 hfresh
        (distinctMembers_iff.1 hd.2)
        fun m hm hm0 t ht => ih m hm ht hm0 (distinctMembers_iff.1 hd.2 m hm)
      rw [List.map_nil, List.append_nil, List.append_nil] at htexts
      refine ⟨nofun, ?_⟩
      rw [Value.merged, Value.mergeBy, chars_object_eq, Value.members, ← htexts]
      show '\x7b' :: commaSeparated (Draft.memberChars _ ++ List.map _ (if _ then [] else _)) ++ _ = _
      rw [ite_eq_right_iff.2 fun h => (List.isEmpty_iff.1 h).symm]
    | null | bool | number | string | array =>
      exact shows_replaced (withoutNulls_document hp hd)

/-- Merging texts means merging values. -/
theorem patchText_text (hv : v.Distinct) (hp : p.Distinct) (hvd : v.depth ≤ Document.depthLimit)
    (hpd : p.depth ≤ Document.depthLimit) : patchText v.text p.text = .ok (v.merged p).text := by
  have hchars : (v.document.mergePatch p.document).chars = (v.merged p).chars := by
    by_cases h : p = .null
    · rw [h]
      rfl
    · rw [mergePatch_document v h, (shows_patch hv h hp).chars_eq]
  rw [patchText, ofText_text hvd, ofText_text hpd]
  show Except.ok (String.ofList _) = _
  rw [hchars, Value.text]

end DeadLetters.Json
