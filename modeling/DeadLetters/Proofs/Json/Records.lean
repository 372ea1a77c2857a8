import DeadLetters.Json.Record
import DeadLetters.Proofs.Json.Rereading

/-!
# Records in a text

What a text is read as by a record with simple fields, told by the value in the text.  The order of
members does not matter, nor do members with other keys, so the value itself, which is in order and
has each key once, is read as the text is, unless the text repeats a field.

    slots.offerAll ms depends on the values of each field's key            (offerAll_congr)
    (record.parse v.text).toOption = record.accept v                            (parse_text)
    parseValue text = .ok v → (record.parse text).toOption = record.accept v
                                    unless the text repeats a field     (toOption_parse_of_value)
-/

namespace DeadLetters.Json

/-- The values that members give to a key. -/
def valuesOf {α : Type} (key : String) (ms : List (String × α)) : List α :=
  (ms.filter fun m => m.1 = key).map (·.2)

section

variable {α : Type} {key j : String} {a : α} {ms : List (String × α)}

theorem valuesOf_cons_self : valuesOf key ((key, a) :: ms) = a :: valuesOf key ms := by
  simp [valuesOf]

theorem valuesOf_cons_ne (h : j ≠ key) : valuesOf key ((j, a) :: ms) = valuesOf key ms := by
  simp [valuesOf, h]

theorem valuesOf_filter_ne (h : key ≠ j) :
    valuesOf key (ms.filter fun m => m.1 ≠ j) = valuesOf key ms := by
  unfold valuesOf
  rw [List.filter_filter]
  congr 2
  funext m
  by_cases hm : m.1 = key
  · simp [hm, h]
  · simp [hm]

theorem valuesOf_filter_self : valuesOf key (ms.filter fun m => m.1 ≠ key) = [] := by
  simp [valuesOf, List.filter_filter]

/-- In order, a key has one value at most. -/
theorem valuesOf_sorted (h : Entries.Sorted ms) :
    valuesOf key ms = (Entries.find? key ms).toList := by
  induction ms with
  | nil => rfl
  | cons m ms ih =>
    obtain ⟨j, b⟩ := m
    obtain ⟨hj, hms⟩ := List.pairwise_cons.1 h
    by_cases hk : key = j
    · subst hk
      have hnone : valuesOf key ms = [] := by
        simp only [valuesOf, List.map_eq_nil_iff, List.filter_eq_nil_iff, decide_eq_true_eq]
        exact fun m hm he => String.lt_irrefl key (he ▸ hj m hm)
      rw [valuesOf_cons_self, hnone, Entries.find?, if_pos rfl]
      rfl
    · rw [valuesOf_cons_ne (Ne.symm hk), Entries.find?, if_neg hk, ih hms]

/-- The last value of a key wins. -/
theorem find?_ofList (key : String) (ms : List (String × α)) :
    Entries.find? key (Entries.ofList ms) = (valuesOf key ms).getLast? := by
  suffices hs : ∀ ms acc : List (String × α),
      Entries.find? key (ms.foldl (fun acc e => Entries.insert e.1 e.2 acc) acc) =
        (valuesOf key ms).getLast?.or (Entries.find? key acc) by
    simpa [Entries.ofList, Entries.find?] using hs ms []
  intro ms
  induction ms with
  | nil => exact fun _ => rfl
  | cons m ms ih =>
    intro acc
    obtain ⟨j, b⟩ := m
    rw [List.foldl_cons, ih, Entries.find?_insert]
    by_cases hk : key = j
    · subst hk
      rw [if_pos rfl, valuesOf_cons_self, List.getLast?_cons]
      cases (valuesOf key ms).getLast? <;> rfl
    · rw [if_neg hk, valuesOf_cons_ne (Ne.symm hk)]

/-- In order, a key has its value if it has just one. -/
theorem valuesOf_ofList (h : (valuesOf key ms).length ≤ 1) :
    valuesOf key (Entries.ofList ms) = valuesOf key ms := by
  rw [valuesOf_sorted (Entries.sorted_ofList ms), find?_ofList]
  match hv : valuesOf key ms, h with
  | [], _ => rfl
  | [_], _ => rfl

end

/-! ## Members in any order -/

namespace Slots

variable {fs : List Field}

/-- Takes a member, unless its value does not fit its field or the field has one already. -/
def offer (key : String) (v : Value) : {fs : List Field} → Slots fs → Option (Slots fs)
  | [], slots => some slots
  | f :: _, (slot, rest) =>
    if key = f.name then
      match slot with
      | some _ => none
      | none => (f.schema.accept v).map fun a => (some a, rest)
    else (rest.offer key v).map fun rest => (slot, rest)

def cons {f : Field} (slot : Option f.schema.Carrier) (rest : Slots fs) : Slots (f :: fs) :=
  (slot, rest)

theorem exists_cons {f : Field} (slots : Slots (f :: fs)) : ∃ slot rest, slots = cons slot rest :=
  ⟨slots.1, slots.2, rfl⟩

section

variable {f : Field} {slot : Option f.schema.Carrier} {a : f.schema.Carrier} {rest : Slots fs}
  {key : String} {v : Value}

theorem offer_known : (cons none rest).offer f.name v =
    (f.schema.accept v).map fun a => cons (some a) rest :=
  if_pos rfl

theorem offer_again : (cons (some a) rest).offer f.name v = none :=
  if_pos rfl

theorem offer_other (h : key ≠ f.name) :
    (cons slot rest).offer key v = (rest.offer key v).map (cons slot) :=
  if_neg h

end

def offerAll (slots : Slots fs) : List (String × Value) → Option (Slots fs)
  | [] => some slots
  | m :: ms => (slots.offer m.1 m.2).bind fun slots => slots.offerAll ms

/-- What one slot makes of all the values for its field. -/
def settle (f : Field) (slot : Option f.schema.Carrier) :
    List Value → Option (Option f.schema.Carrier)
  | [] => some slot
  | v :: vs =>
    match slot with
    | some _ => none
    | none => (f.schema.accept v).bind fun a => settle f (some a) vs

theorem length_le_of_settle {f : Field} {vs : List Value} {slot : Option f.schema.Carrier}
    (h : settle f none vs = some slot) : vs.length ≤ 1 := by
  match vs with
  | [] => exact Nat.zero_le _
  | [_] => exact Nat.le_refl _
  | v :: w :: vs =>
    obtain ⟨a, -, ha⟩ := Option.bind_eq_some_iff.1 h
    simp [settle] at ha

theorem offerAll_nil (slots : Slots []) (ms : List (String × Value)) :
    slots.offerAll ms = some slots := by
  induction ms with
  | nil => rfl
  | cons m ms ih => exact ih

/-- Each slot is filled on its own. -/
theorem offerAll_cons {f : Field} (slot : Option f.schema.Carrier) (rest : Slots fs)
    (ms : List (String × Value)) :
    (cons slot rest).offerAll ms =
      (settle f slot (valuesOf f.name ms)).bind fun slot =>
        (rest.offerAll (ms.filter fun m => m.1 ≠ f.name)).map (cons slot) := by
  induction ms generalizing slot rest with
  | nil => rfl
  | cons m ms ih =>
    obtain ⟨key, v⟩ := m
    rw [offerAll]
    by_cases hk : key = f.name
    · subst hk
      rw [valuesOf_cons_self, List.filter_cons_of_neg (by simp)]
      cases slot with
      | some a =>
        rw [offer_again]
        rfl
      | none =>
        rw [offer_known, settle]
        cases f.schema.accept v with
        | none => rfl
        | some a => exact ih (some a) rest
    · rw [valuesOf_cons_ne hk, List.filter_cons_of_pos (by simpa using hk), offer_other hk,
        offerAll]
      cases rest.offer key v with
      | none => cases settle f slot (valuesOf f.name ms) <;> rfl
      | some rest' => exact ih slot rest'

/-- Only the values of each field matter, in their order. -/
theorem offerAll_congr {slots : Slots fs} {ms ms' : List (String × Value)}
    (h : ∀ f ∈ fs, valuesOf f.name ms = valuesOf f.name ms') :
    slots.offerAll ms = slots.offerAll ms' := by
  induction fs generalizing ms ms' with
  | nil => rw [offerAll_nil, offerAll_nil]
  | cons f fs ih =>
    obtain ⟨slot, rest, rfl⟩ := slots.exists_cons
    have hrest : rest.offerAll (ms.filter fun m => m.1 ≠ f.name) =
        rest.offerAll (ms'.filter fun m => m.1 ≠ f.name) := by
      refine ih fun g hg => ?_
      by_cases hgf : g.name = f.name
      · rw [hgf, valuesOf_filter_self, valuesOf_filter_self]
      · rw [valuesOf_filter_ne hgf, valuesOf_filter_ne hgf, h g (List.mem_cons_of_mem _ hg)]
    rw [offerAll_cons, offerAll_cons, hrest, h f List.mem_cons_self]

/-- No field takes two values. -/
theorem length_valuesOf_le {slots : Slots fs} {ms : List (String × Value)}
    (h : (empty fs).offerAll ms = some slots) : ∀ f ∈ fs, (valuesOf f.name ms).length ≤ 1 := by
  induction fs generalizing ms with
  | nil => simp
  | cons f fs ih =>
    change (cons none (empty fs)).offerAll ms = _ at h
    rw [offerAll_cons] at h
    obtain ⟨slot, hslot, h⟩ := Option.bind_eq_some_iff.1 h
    obtain ⟨rest, hrest, -⟩ := Option.map_eq_some_iff.1 h
    intro g hg
    by_cases hgf : g.name = f.name
    · rw [hgf]
      exact length_le_of_settle hslot
    · have hmem : g ∈ fs := (List.mem_cons.1 hg).resolve_left fun he => hgf (by rw [he])
      simpa only [valuesOf_filter_ne hgf] using ih hrest g hmem

end Slots

/-! ## Items in order -/

/-- The row of the defaults, if each field has one. -/
def defaultRow : (fs : List Field) → Option (Row fs)
  | [] => some ()
  | f :: fs => f.default.bind fun a => (defaultRow fs).map fun row => (a, row)

/-- The row of items; fields that are left over take their defaults. -/
def rowOf : (fs : List Field) → List Value → Option (Row fs)
  | [], [] => some ()
  | [], _ :: _ => none
  | f :: fs, [] => defaultRow (f :: fs)
  | f :: fs, v :: vs => (f.schema.accept v).bind fun a => (rowOf fs vs).map fun row => (a, row)

namespace Record

variable {α : Type} (record : Record α)

def IsFlat : Prop := ∀ f ∈ record.fields, f.schema.isFlat = true

instance : Decidable record.IsFlat := inferInstanceAs (Decidable (∀ f ∈ record.fields, _))

/-- What members are read as, in the order of the text. -/
def acceptMembers (ms : List (String × Value)) : Option α :=
  ((Slots.empty record.fields).offerAll ms).bind fun slots => slots.row.toOption.map record.ofRow

/-- What a value is read as. -/
def accept : Value → Option α
  | .array vs => (rowOf record.fields vs).map record.ofRow
  | .object ms => record.acceptMembers ms
  | _ => none

end Record

/-! ## Reading -/

section Reading

variable {fs : List Field} {s t r : List Char} {first : Bool}

/-- The value `v` can be skipped, and each field's reader makes of it what the schema accepts. -/
structure Legible (fs : List Field) (depth : Nat) (s : List Char) (v : Value) (r : List Char) :
    Prop where
  skips : Skips s v r
  reads : ∀ f ∈ fs, Reads (f.schema.reader depth) f.schema.accept s v r

theorem Spelled.legible {v : Value} (h : Spelled s v r) (hf : ∀ f ∈ fs, f.schema.isFlat = true)
    (depth : Nat) : Legible fs depth s v r :=
  ⟨h.skips, fun f hmem => h.reads (hf f hmem) depth⟩

theorem Legible.tail {f : Field} {depth : Nat} {v : Value} (h : Legible (f :: fs) depth s v r) :
    Legible fs depth s v r :=
  ⟨h.skips, fun g hg => h.reads g (List.mem_cons_of_mem _ hg)⟩

theorem skipValue_of_skips {α : Type} {a : α} (h : Skips s a r) : skipValue s = .ok ((), r) := by
  have hmore : skipIn [] .more r = .ok ((), r) := by rw [skipIn.eq_def]
  exact (h []).trans hmore

namespace Slots

section

variable {f : Field} {slot : Option f.schema.Carrier} {a : f.schema.Carrier} {rest : Slots fs}
  {depth : Nat} {key : String}

theorem fill_known (hc : colon s = .ok ((), t)) : (cons none rest).fill depth f.name s =
    some (((f.schema.reader depth).run t).map fun a => cons (some a) rest) := by
  refine (if_pos rfl).trans ?_
  rw [hc]
  rfl

theorem fill_again : (cons (some a) rest).fill depth f.name s = some (again f.name s) :=
  if_pos rfl

theorem fill_other (h : key ≠ f.name) : (cons slot rest).fill depth key s =
    (rest.fill depth key s).map fun x => x.map (cons slot) :=
  if_neg h

end

theorem toOption_again (key : String) (s : List Char) :
    (again key s : Reading (Slots fs)).toOption = none := by
  unfold again
  split <;> rfl

/-- What becomes of a value that stands behind a colon. -/
theorem toOption_fillOrSkip (slots : Slots fs) (depth : Nat) (key : String) {v : Value}
    {u : List Char} (hc : colon s = .ok ((), t)) (hv : Legible fs depth t v u) :
    (slots.fillOrSkip depth key s).toOption = (slots.offer key v).map (·, u) := by
  have hskip := skipValue_of_skips hv.skips
  suffices hfill : (∀ x, slots.fill depth key s = some x →
      x.toOption = (slots.offer key v).map (·, u)) ∧
      (slots.fill depth key s = none → slots.offer key v = some slots) by
    unfold fillOrSkip
    cases hx : slots.fill depth key s with
    | some x => exact hfill.1 x hx
    | none =>
      simp only [hc, hskip]
      rw [hfill.2 hx]
      rfl
  induction fs with
  | nil => exact ⟨nofun, fun _ => rfl⟩
  | cons f fs ih =>
    obtain ⟨slot, rest, rfl⟩ := slots.exists_cons
    by_cases hk : key = f.name
    · subst hk
      cases slot with
      | some a =>
        rw [fill_again, offer_again]
        refine ⟨?_, nofun⟩
        rintro x ⟨⟩
        exact toOption_again _ s
      | none =>
        rw [fill_known hc, offer_known]
        refine ⟨?_, nofun⟩
        rintro x ⟨⟩
        rw [toOption_map, hv.reads f List.mem_cons_self]
        cases f.schema.accept v <;> rfl
    · obtain ⟨hsome, hnone⟩ := ih rest hv.tail
      rw [fill_other hk, offer_other hk]
      cases hx : rest.fill depth key s with
      | some x =>
        refine ⟨?_, nofun⟩
        rintro _ ⟨⟩
        rw [toOption_map, hsome x hx]
        cases rest.offer key v <;> rfl
      | none =>
        refine ⟨nofun, fun _ => ?_⟩
        rw [hnone hx]
        rfl

end Slots

theorem slotMembers_close {depth : Nat} {slots : Slots fs} (h : nextKey first s = .ok (false, r)) :
    slotMembers depth slots first s = .ok (slots, r) := by
  rw [slotMembers]
  split <;> simp_all

theorem slotMembers_member {depth : Nat} {slots : Slots fs} {u : List Char} {key : String}
    (h : nextKey first s = .ok (true, t)) (hk : stringTail.run t = .ok (key, u)) :
    slotMembers depth slots first s =
      match slots.fillOrSkip depth key u with
      | .error f => .error f
      | .ok (slots, w) => slotMembers depth slots false w := by
  rw [slotMembers]
  split
  · simp_all
  · simp_all
  · next h' =>
    obtain rfl : t = _ := by simpa [h] using h'
    split
    · simp_all
    · next hk' =>
      obtain ⟨rfl, rfl⟩ : key = _ ∧ u = _ := by simpa [hk] using hk'
      split <;> simp_all

theorem MembersAt.toOption_slotMembers {depth : Nat} {ms : List (String × Value)}
    (h : MembersAt (Legible fs depth) first s ms r) (slots : Slots fs) :
    (slotMembers depth slots first s).toOption = (slots.offerAll ms).map (·, r) := by
  induction h generalizing slots with
  | close h =>
    rw [slotMembers_close h]
    rfl
  | @member first s t u v w r key a ms h hk hc ha _ ih =>
    have hfill := slots.toOption_fillOrSkip depth key hc ha
    rw [slotMembers_member h hk, Slots.offerAll]
    cases ho : slots.offer key a with
    | none =>
      rw [ho] at hfill
      cases hx : slots.fillOrSkip depth key u with
      | error e => rfl
      | ok p => simp [hx, Except.toOption] at hfill
    | some slots' =>
      rw [ho] at hfill
      rw [toOption_eq_some_iff.1 hfill]
      exact ih slots'

theorem toOption_defaults (wanted : String) (fs : List Field) (index : Nat) :
    (defaults wanted fs index).toOption = defaultRow fs := by
  induction fs generalizing index with
  | nil => rfl
  | cons f fs ih =>
    rw [defaults, defaultRow, ← ih (index + 1)]
    cases f.default with
    | none => rfl
    | some a => cases defaults wanted fs (index + 1) <;> rfl

theorem ItemsAt.toOption_listEnd {vs : List Value} (h : ItemsAt Spelled first s vs r) :
    (listEnd s).toOption = if vs = [] then some ((), r) else none := by
  cases h with
  | close h =>
    rw [listEnd, nextItem_false_iff.1 h]
    rfl
  | item h _ _ =>
    rw [if_neg (by simp)]
    cases first with
    | true =>
      obtain ⟨rfl, hne, hh⟩ := nextItem_first_iff.1 h
      unfold listEnd
      split
      · rfl
      · next he => simp [he] at hh
      · split <;> rfl
      · rfl
    | false =>
      obtain ⟨v, hs, -⟩ := nextItem_more_iff.1 h
      unfold listEnd
      split
      · rfl
      · next he => simp [hs] at he
      · split <;> rfl
      · rfl

theorem ItemsAt.toOption_rowItems {vs : List Value} (h : ItemsAt Spelled first s vs r)
    (hf : ∀ f ∈ fs, f.schema.isFlat = true) (depth : Nat) (wanted : String) {index : Nat}
    (hi : (index == 0) = first) :
    (rowItems depth wanted fs index s).toOption = (rowOf fs vs).map (·, r) := by
  induction fs generalizing first index s vs with
  | nil =>
    refine (toOption_map _ _).trans ?_
    rw [h.toOption_listEnd]
    cases vs <;> rfl
  | cons f fs ih =>
    rw [rowItems, hi]
    cases h with
    | close h =>
      rw [h, rowOf, ← toOption_defaults wanted (f :: fs) index]
      cases defaults wanted (f :: fs) index <;> rfl
    | @item _ _ t u _ v vs h hv hs =>
      have ha := hv.reads (hf f List.mem_cons_self) depth
      rw [h, rowOf]
      dsimp only
      cases hc : f.schema.accept v with
      | none =>
        rw [Reads, hc] at ha
        cases hx : (f.schema.reader depth).run t with
        | error e => rfl
        | ok p => simp [hx, Except.toOption] at ha
      | some a =>
        rw [Reads, hc] at ha
        rw [toOption_eq_some_iff.1 ha]
        refine (toOption_map _ _).trans ?_
        rw [ih hs (fun g hg => hf g (List.mem_cons_of_mem _ hg)) rfl]
        cases rowOf fs vs <;> rfl

end Reading

namespace Record

variable {α : Type} {record : Record α} {s t r : List Char} {v w : Value} {text : String}

theorem run_array {vs : List Value} (hf : record.IsFlat) (hs : skipGap s = '[' :: t)
    (h : ItemsAt Spelled true t vs r) :
    (record.run s).toOption = (record.accept (.array vs)).map (·, r) := by
  simp only [run, hs]
  rw [toOption_map, h.toOption_rowItems hf _ _ rfl, accept]
  cases rowOf record.fields vs <;> rfl

theorem run_object {ms : List (String × Value)} (hs : skipGap s = '\x7b' :: t)
    (h : MembersAt (Legible record.fields (depthLimit - 1)) true t ms r) :
    (record.run s).toOption = (record.acceptMembers ms).map (·, r) := by
  have hm := h.toOption_slotMembers (Slots.empty record.fields)
  simp only [run, hs]
  rw [acceptMembers]
  cases ho : (Slots.empty record.fields).offerAll ms with
  | none =>
    rw [ho] at hm
    cases hx : slotMembers (depthLimit - 1) (Slots.empty record.fields) true t with
    | error e => rfl
    | ok p => simp [hx, Except.toOption] at hm
  | some slots =>
    rw [ho] at hm
    rw [toOption_eq_some_iff.1 hm]
    dsimp only [Option.bind_some]
    cases slots.row <;> rfl

theorem run_scalar (hl : ∀ t, skipGap s ≠ '[' :: t) (ho : ∀ t, skipGap s ≠ '\x7b' :: t) :
    (record.run s).toOption = none := by
  unfold run
  split
  · next h => exact absurd h (hl _)
  · next h => exact absurd h (ho _)
  · rw [leafRun_eq (by simpa [skipGap_skipGap] using hl) (by simpa [skipGap_skipGap] using ho)]
    cases scalar (skipGap (skipGap s)) <;> rfl

/-! ## Texts and their values -/

/-- The text that is written for a value is read as the value is. -/
theorem parse_text (hf : record.IsFlat) (hv : v.All Number.Fits) :
    (record.parse v.text).toOption = record.accept v := by
  have run : (record.run (v.chars ++ [])).toOption = (record.accept v).map (·, []) := by
    have hspelled := spelled_printed hv endsNumeral_nil
    cases v with
    | array vs =>
      have hs := (congrArg skipGap (chars_array_append vs [])).trans (skipGap_cons rfl _)
      exact run_array hf hs (itemsAt_printed [] (fun v _ => startsItem_chars v)
        fun v hm u hu => spelled_printed (allItems_iff.1 hv v hm) hu)
    | object ms =>
      have hs := (congrArg skipGap (chars_object_append ms [])).trans (skipGap_cons rfl _)
      exact run_object hs (membersAt_printed [] fun m hm u hu =>
        (spelled_printed (allMembers_iff.1 hv m hm) hu).legible hf _)
    | number =>
      cases hspelled.stands with
      | scalar hl ho h => exact run_scalar hl ho
      | float hl ho h => exact run_scalar hl ho
    | null | bool | string =>
      cases hspelled.stands with
      | scalar hl ho h => exact run_scalar hl ho
  rw [List.append_nil] at run
  refine toOption_parse (r := []) ?_ rfl
  rwa [Value.text, String.toList_ofList]

end Record

/-- The members of the object that a text starts with, in the order of the text. -/
def membersOf? (text : String) : Option (List (String × Value)) :=
  match skipGap text.toList with
  | '\x7b' :: t => (members stringTail (value (depthLimit - 1)) true t).toOption.map (·.1)
  | _ => none

/-! ## Values that are written and read again -/

section Rereading

variable {fs : List Field} {v w : Value}

/-- No simple schema tells a value from what is read of its text. -/
theorem Schema.accept_reread (schema : Schema) (hf : schema.isFlat = true)
    (hv : v.All Number.Fits) (h : v.reread = some w) : schema.accept w = schema.accept v := by
  cases v with
  | null | bool | string =>
    cases h
    rfl
  | number n =>
    obtain ⟨m, hm, rfl⟩ := Option.map_eq_some_iff.1 h
    cases n with
    | int i =>
      rw [Number.reread, Number.numeral, evaluate_ofInt hv] at hm
      cases hm
      rfl
    | float x =>
      obtain ⟨p, hp, rfl⟩ := Option.map_eq_some_iff.1 hm
      rcases evaluate_cases (toOption_eq_some_iff.1 hp) with ⟨y, hy⟩ | ⟨_, _, _, hn⟩
      · rw [hy, schema.accept_foreign hf rfl, schema.accept_foreign hf rfl]
      · exact absurd (Numeral.isFloat_ofFloat x) hn
  | array vs =>
    obtain ⟨ws, -, rfl⟩ := Option.map_eq_some_iff.1 h
    rw [schema.accept_foreign hf rfl, schema.accept_foreign hf rfl]
  | object ms =>
    obtain ⟨ws, -, rfl⟩ := Option.map_eq_some_iff.1 h
    rw [schema.accept_foreign hf rfl, schema.accept_foreign hf rfl]

theorem rowOf_reread {vs ws : List Value} (hf : ∀ f ∈ fs, f.schema.isFlat = true)
    (hv : ∀ v ∈ vs, v.All Number.Fits) (h : rereadItems vs = some ws) :
    rowOf fs ws = rowOf fs vs := by
  induction vs generalizing fs ws with
  | nil =>
    cases h
    rfl
  | cons v vs ih =>
    obtain ⟨w, hw, hws⟩ := Option.bind_eq_some_iff.1 h
    obtain ⟨ws, hrest, rfl⟩ := Option.map_eq_some_iff.1 hws
    cases fs with
    | nil => rfl
    | cons f fs =>
      rw [rowOf, rowOf,
        f.schema.accept_reread (hf f List.mem_cons_self) (hv v List.mem_cons_self) hw,
        ih (fun g hg => hf g (List.mem_cons_of_mem _ hg))
          (fun u hu => hv u (List.mem_cons_of_mem _ hu)) hrest]

theorem Slots.offer_reread (slots : Slots fs) (hf : ∀ f ∈ fs, f.schema.isFlat = true)
    (key : String) (hv : v.All Number.Fits) (h : v.reread = some w) :
    slots.offer key w = slots.offer key v := by
  induction fs with
  | nil => rfl
  | cons f fs ih =>
    obtain ⟨slot, rest, rfl⟩ := slots.exists_cons
    by_cases hk : key = f.name
    · subst hk
      cases slot with
      | some a => rw [offer_again, offer_again]
      | none =>
        rw [offer_known, offer_known, f.schema.accept_reread (hf f List.mem_cons_self) hv h]
    · rw [offer_other hk, offer_other hk, ih rest fun g hg => hf g (List.mem_cons_of_mem _ hg)]

theorem Slots.offerAll_reread (slots : Slots fs) {ms ws : List (String × Value)}
    (hf : ∀ f ∈ fs, f.schema.isFlat = true) (hv : ∀ m ∈ ms, m.2.All Number.Fits)
    (h : rereadMembers ms = some ws) : slots.offerAll ws = slots.offerAll ms := by
  induction ms generalizing slots ws with
  | nil =>
    cases h
    rfl
  | cons m ms ih =>
    obtain ⟨w, hw, hws⟩ := Option.bind_eq_some_iff.1 h
    obtain ⟨ws, hrest, rfl⟩ := Option.map_eq_some_iff.1 hws
    rw [offerAll, offerAll, slots.offer_reread hf m.1 (hv m List.mem_cons_self) hw]
    cases slots.offer m.1 m.2 with
    | none => rfl
    | some slots' => exact ih slots' (fun n hn => hv n (List.mem_cons_of_mem _ hn)) hrest

theorem Record.accept_reread {α : Type} {record : Record α} (hf : record.IsFlat)
    (hv : v.All Number.Fits) (h : v.reread = some w) : record.accept w = record.accept v := by
  cases v with
  | null | bool | string =>
    cases h
    rfl
  | number n =>
    obtain ⟨m, -, rfl⟩ := Option.map_eq_some_iff.1 h
    rfl
  | array vs =>
    obtain ⟨ws, hws, rfl⟩ := Option.map_eq_some_iff.1 h
    rw [accept, accept, rowOf_reread hf (allItems_iff.1 hv) hws]
  | object ms =>
    obtain ⟨ws, hws, rfl⟩ := Option.map_eq_some_iff.1 h
    rw [accept, accept, acceptMembers, acceptMembers,
      Slots.offerAll_reread _ hf (allMembers_iff.1 hv) hws]

end Rereading

/-! ## Texts and their values -/

namespace Record

variable {α : Type} {record : Record α} {s t r : List Char} {v w : Value} {text : String}

/-- The text is an object that gives a field more than once. -/
def Repeats (record : Record α) (text : String) : Prop :=
  ∃ ms, membersOf? text = some ms ∧ ∃ f ∈ record.fields, 1 < (valuesOf f.name ms).length

theorem accept_of_depth (h : v.depth ≤ 0) : record.accept v = none := by
  cases v with
  | array vs => simp [Value.depth] at h
  | object ms => simp [Value.depth] at h
  | null | bool | number | string => rfl

/-- What a text is read as that has a value. -/
theorem parse_of_parseValue (hf : record.IsFlat) (h : parseValue text = .ok v) :
    (membersOf? text = none ∧ (record.parse text).toOption = record.accept v) ∨
      ∃ ms, membersOf? text = some ms ∧ v = .object (Entries.ofList ms) ∧
        (record.parse text).toOption = record.acceptMembers ms := by
  obtain ⟨r, hr, hend⟩ := parse_eq_ok_iff.1 h
  cases valueAt_of_value hr with
  | @array e t _ vs hd hs hitems =>
    have hmem : membersOf? text = none := by simp [membersOf?, hs]
    have hspelled := hitems.mono fun t a u ha => spelled_of_value (reads_some_iff.1 ha)
    exact .inl ⟨hmem, toOption_parse (run_array hf hs hspelled) hend⟩
  | @object e t _ ms hd hs hmembers =>
    obtain rfl : e = depthLimit - 1 := by omega
    have hmem : membersOf? text = some ms := by
      have hread : (Json.members stringTail (value (depthLimit - 1)) true t).toOption =
          some (ms, r) := by
        have hall : ms.mapM (fun m => (some m.2).map fun a => (m.1, a)) = some ms :=
          List.mapM_pure.trans (by simp)
        rw [hmembers.toOption_members, hall]
        rfl
      simp [membersOf?, hs, hread]
    have hlegible := hmembers.mono fun t a u ha =>
      (spelled_of_value (reads_some_iff.1 ha)).legible hf (depthLimit - 1)
    exact .inr ⟨ms, hmem, rfl, toOption_parse (run_object hs hlegible) hend⟩
  | scalar hl ho hscalar =>
    have hmem : membersOf? text = none := by
      unfold membersOf?
      split
      · next hs => exact absurd hs (ho _)
      · rfl
    have haccept : record.accept _ = none :=
      accept_of_depth (sound_scalar (d := 0) hscalar).depth_le
    exact .inl ⟨hmem, toOption_parse (by rw [haccept]; exact run_scalar hl ho) hend⟩

/-- Without repeated fields the text is read as its value is. -/
theorem toOption_parse_of_value (hf : record.IsFlat) (h : parseValue text = .ok v)
    (hr : ¬ record.Repeats text) : (record.parse text).toOption = record.accept v := by
  rcases parse_of_parseValue hf h with ⟨-, hp⟩ | ⟨ms, hms, rfl, hp⟩
  · exact hp
  · have hvalues : ∀ f ∈ record.fields,
        valuesOf f.name ms = valuesOf f.name (Entries.ofList ms) := fun f hmem =>
      (valuesOf_ofList (Nat.le_of_not_lt fun hlt => hr ⟨ms, hms, f, hmem, hlt⟩)).symm
    rw [hp, accept, acceptMembers, acceptMembers, Slots.offerAll_congr hvalues]

/-- A text that is accepted repeats no field. -/
theorem not_repeats_of_parse {a : α} (hf : record.IsFlat) (h : parseValue text = .ok v)
    (ha : record.parse text = .ok a) : ¬ record.Repeats text := by
  rintro ⟨ms, hms, f, hmem, hlt⟩
  rcases parse_of_parseValue hf h with ⟨hnone, -⟩ | ⟨ms', hms', -, hp⟩
  · rw [hnone] at hms
    cases hms
  · obtain rfl : ms' = ms := Option.some.inj (hms'.symm.trans hms)
    rw [ha, acceptMembers] at hp
    obtain ⟨slots, hslots, -⟩ := Option.bind_eq_some_iff.1 hp.symm
    exact absurd (Slots.length_valuesOf_le hslots f hmem) (by omega)

end Record

end DeadLetters.Json
