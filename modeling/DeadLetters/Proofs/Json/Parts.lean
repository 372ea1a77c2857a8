import DeadLetters.Proofs.Json.Numerals
import DeadLetters.Proofs.Json.Strings

/-!
# Lists and objects in a text

How the parts of a list or an object stand in a text, whoever reads it.  What is known of the single
part is left open: `P t v u` says of a value `v` that it stands in the text `t`, in front of `u`.
So one relation connects the readers, which all look for the same brackets and commas, with each
other and with the printer.

    items item first s = .ok (as, r) → ItemsAt (item.run · = .ok (·, ·)) first s as r
                                                                          (itemsAt_of_items)
    ItemsAt P first (the text that is written for vs, in front of r) vs r     (itemsAt_printed)
    ItemsAt Skips true s vs r → skipping the list leads behind it              (ItemsAt.skip)
-/

namespace DeadLetters.Json

/-- The items of a list, up to and with its closing bracket; `first` in front of the first one. -/
inductive ItemsAt {α : Type} (P : List Char → α → List Char → Prop) :
    Bool → List Char → List α → List Char → Prop
  | close {first : Bool} {s r : List Char} (h : nextItem first s = .ok (false, r)) :
      ItemsAt P first s [] r
  | item {first : Bool} {s t u r : List Char} {a : α} {as : List α}
      (h : nextItem first s = .ok (true, t)) (ha : P t a u) (hs : ItemsAt P false u as r) :
      ItemsAt P first s (a :: as) r

/-- The members of an object, up to and with its closing bracket; `first` in front of the first
one. -/
inductive MembersAt {α : Type} (P : List Char → α → List Char → Prop) :
    Bool → List Char → List (String × α) → List Char → Prop
  | close {first : Bool} {s r : List Char} (h : nextKey first s = .ok (false, r)) :
      MembersAt P first s [] r
  | member {first : Bool} {s t u v w r : List Char} {k : String} {a : α}
      {ms : List (String × α)} (h : nextKey first s = .ok (true, t))
      (hk : stringTail.run t = .ok (k, u)) (hc : colon u = .ok ((), v)) (ha : P v a w)
      (hs : MembersAt P false w ms r) : MembersAt P first s ((k, a) :: ms) r

section

variable {α : Type} {P Q : List Char → α → List Char → Prop} {first : Bool} {s r : List Char}

theorem ItemsAt.mono {as : List α} (h : ItemsAt P first s as r)
    (hPQ : ∀ t a u, P t a u → Q t a u) : ItemsAt Q first s as r := by
  induction h with
  | close h => exact .close h
  | item h ha _ ih => exact .item h (hPQ _ _ _ ha) ih

theorem MembersAt.mono {ms : List (String × α)} (h : MembersAt P first s ms r)
    (hPQ : ∀ t a u, P t a u → Q t a u) : MembersAt Q first s ms r := by
  induction h with
  | close h => exact .close h
  | member h hk hc ha _ ih => exact .member h hk hc (hPQ _ _ _ ha) ih

theorem ItemsAt.forall_mem {as : List α} {R : α → Prop} (h : ItemsAt P first s as r)
    (hR : ∀ t a u, P t a u → R a) : ∀ a ∈ as, R a := by
  induction h with
  | close => simp
  | item _ ha _ ih => exact List.forall_mem_cons.2 ⟨hR _ _ _ ha, ih⟩

theorem MembersAt.forall_mem {ms : List (String × α)} {R : α → Prop}
    (h : MembersAt P first s ms r) (hR : ∀ t a u, P t a u → R a) : ∀ m ∈ ms, R m.2 := by
  induction h with
  | close => simp
  | member _ _ _ ha _ ih => exact List.forall_mem_cons.2 ⟨hR _ _ _ ha, ih⟩

end

/-! ## Brackets, commas and colons -/

section Steps

variable {first : Bool} {s t r : List Char}

theorem skipGap_skipGap (s : List Char) : skipGap (skipGap s) = skipGap s := by
  induction s with
  | nil => rfl
  | cons c s ih =>
    by_cases h : isGap c = true
    · simpa [skipGap, h] using ih
    · simp [skipGap, h]

theorem skipGap_cons {c : Char} (h : isGap c = false) (s : List Char) :
    skipGap (c :: s) = c :: s := by
  simp [skipGap, h]

theorem nextItem_false_iff : nextItem first s = .ok (false, r) ↔ skipGap s = ']' :: r := by
  grind [nextItem, stopped, unfit]

theorem nextItem_first_iff :
    nextItem true s = .ok (true, t) ↔ skipGap s = t ∧ t ≠ [] ∧ t.head? ≠ some ']' := by
  cases t <;> grind [nextItem, stopped, unfit]

theorem nextItem_more_iff : nextItem false s = .ok (true, t) ↔
    ∃ v, skipGap s = ',' :: v ∧ skipGap v = t ∧ t ≠ [] ∧ t.head? ≠ some ']' := by
  cases t <;> grind [nextItem, stopped, unfit]

theorem nextKey_false_iff : nextKey first s = .ok (false, r) ↔ skipGap s = '\x7d' :: r := by
  grind [nextKey, stopped, unfit]

theorem nextKey_first_iff : nextKey true s = .ok (true, t) ↔ skipGap s = '"' :: t := by
  grind [nextKey, stopped, unfit]

theorem nextKey_more_iff : nextKey false s = .ok (true, t) ↔
    ∃ v, skipGap s = ',' :: v ∧ skipGap v = '"' :: t := by
  grind [nextKey, stopped, unfit]

theorem colon_iff : colon s = .ok ((), r) ↔ skipGap s = ':' :: r := by
  grind [colon, stopped, unfit]

end Steps

/-! ## Reading -/

section Reading

variable {α β : Type}

theorem toOption_map (f : α → β) (x : Reading α) :
    (x.map f).toOption = x.toOption.map fun p => (f p.1, p.2) := by
  cases x <;> rfl

/-- What the reader makes of a value that stands in the text `t`, in front of `u`. -/
def Reads (reader : Reader β) (f : α → Option β) (t : List Char) (a : α) (u : List Char) : Prop :=
  (reader.run t).toOption = (f a).map (·, u)

/-- A value that was read stands where it was read. -/
theorem reads_some_iff {reader : Reader α} {t u : List Char} {a : α} :
    Reads reader some t a u ↔ reader.run t = .ok (a, u) := by
  unfold Reads
  cases reader.run t <;> simp [Except.toOption]

variable {item : Reader α} {first : Bool} {s t r : List Char}

theorem items_close (h : nextItem first s = .ok (false, r)) :
    items item first s = .ok ([], r) := by
  rw [items]
  split <;> simp_all

theorem items_item (h : nextItem first s = .ok (true, t)) :
    items item first s =
      match item.run t with
      | .error f => .error f
      | .ok (a, u) => (items item false u).map (a :: ·) := by
  rw [items]
  split
  · simp_all
  · simp_all
  · next h' =>
    obtain rfl : t = _ := by simpa [h] using h'
    split <;> simp_all

theorem members_close (h : nextKey first s = .ok (false, r)) :
    members stringTail item first s = .ok ([], r) := by
  rw [members]
  split <;> simp_all

theorem members_member {u v : List Char} {k : String} (h : nextKey first s = .ok (true, t))
    (hk : stringTail.run t = .ok (k, u)) (hc : colon u = .ok ((), v)) :
    members stringTail item first s =
      match item.run v with
      | .error f => .error f
      | .ok (a, w) => (members stringTail item false w).map ((k, a) :: ·) := by
  have hm : member stringTail item t = (item.run v).map fun a => (k, a) := by
    rw [member, hk]
    dsimp only
    rw [hc]
  rw [members]
  split
  · simp_all
  · simp_all
  · next h' =>
    obtain rfl : t = _ := by simpa [h] using h'
    split
    · next hf =>
      rw [hm] at hf
      cases hi : item.run v with
      | error g => simpa [hi, Reading.map] using hf.symm
      | ok p => simp [hi, Reading.map] at hf
    · next hf =>
      rw [hm] at hf
      obtain ⟨a, ha, rfl⟩ := Reading.map_eq_ok hf
      rw [ha]

theorem itemsAt_of_items {as : List α} (h : items item first s = .ok (as, r)) :
    ItemsAt (Reads item some) first s as r := by
  fun_induction items item first s generalizing as with
  | case1 => simp at h
  | case2 first s t hn =>
    simp only [Except.ok.injEq, Prod.mk.injEq] at h
    rw [← h.1, ← h.2]
    exact .close hn
  | case3 => simp at h
  | case4 first s t hn a u hi ih =>
    obtain ⟨as', hs, rfl⟩ := Reading.map_eq_ok h
    exact .item hn (reads_some_iff.2 hi) (ih hs)

theorem membersAt_of_members {ms : List (String × α)}
    (h : members stringTail item first s = .ok (ms, r)) :
    MembersAt (Reads item some) first s ms r := by
  fun_induction members stringTail item first s generalizing ms with
  | case1 => simp at h
  | case2 first s t hn =>
    simp only [Except.ok.injEq, Prod.mk.injEq] at h
    rw [← h.1, ← h.2]
    exact .close hn
  | case3 => simp at h
  | case4 first s t hn m u hm ih =>
    obtain ⟨ms', hs, rfl⟩ := Reading.map_eq_ok h
    unfold member at hm
    split at hm
    · simp at hm
    · next k t' hk =>
      split at hm
      · simp at hm
      · next v hc =>
        obtain ⟨a, ha, rfl⟩ := Reading.map_eq_ok hm
        exact .member hn hk hc (reads_some_iff.2 ha) (ih hs)

variable {f : β → Option α}

/-- Reading a list makes of it what reading makes of its items. -/
theorem ItemsAt.toOption_items {bs : List β} (h : ItemsAt (Reads item f) first s bs r) :
    (items item first s).toOption = (bs.mapM f).map (·, r) := by
  induction h with
  | close h =>
    rw [items_close h]
    rfl
  | @item first s t u r b bs h hb _ ih =>
    unfold Reads at hb
    rw [items_item h, List.mapM_cons]
    cases hf : f b with
    | none =>
      rw [hf] at hb
      cases hi : item.run t with
      | error e => rfl
      | ok p => simp [hi, Except.toOption] at hb
    | some a =>
      obtain hi : item.run t = .ok (a, u) := by
        rw [hf] at hb
        cases hi : item.run t <;> simp_all [Except.toOption]
      simp only [hi, toOption_map, ih]
      cases bs.mapM f <;> rfl

/-- Reading an object makes of it what reading makes of the values of its members. -/
theorem MembersAt.toOption_members {ms : List (String × β)}
    (h : MembersAt (Reads item f) first s ms r) :
    (members stringTail item first s).toOption =
      (ms.mapM fun m => (f m.2).map fun a => (m.1, a)).map (·, r) := by
  induction h with
  | close h =>
    rw [members_close h]
    rfl
  | @member first s t u v w r k b ms h hk hc hb _ ih =>
    unfold Reads at hb
    rw [members_member h hk hc, List.mapM_cons]
    cases hf : f b with
    | none =>
      rw [hf] at hb
      cases hi : item.run v with
      | error e => rfl
      | ok p => simp [hi, Except.toOption] at hb
    | some a =>
      obtain hi : item.run v = .ok (a, w) := by
        rw [hf] at hb
        cases hi : item.run v <;> simp_all [Except.toOption]
      simp only [hi, toOption_map, ih]
      cases ms.mapM fun m => (f m.2).map fun a => (m.1, a) <;> rfl

end Reading

/-! ## Skipping -/

section Skipping

variable {α : Type}

/-- A value that can be skipped, inside any brackets. -/
def Skips (t : List Char) (_ : α) (u : List Char) : Prop :=
  ∀ stack, skipIn stack .value t = skipIn stack .more u

theorem skipIn_value (stack : List Bracket) (s : List Char) :
    skipIn stack .value s =
      match skipGap s with
      | '[' :: r =>
        match skipGap r with
        | [] => stopped .endInList []
        | ']' :: t => skipIn stack .more t
        | c :: t => skipIn (.list :: stack) .value (c :: t)
      | '\x7b' :: r =>
        match skipGap r with
        | [] => stopped .endInObject []
        | '\x7d' :: t => skipIn stack .more t
        | c :: t => skipIn (.object :: stack) .key (c :: t)
      | t =>
        match skipScalar t with
        | .error f => .error f
        | .ok (_, r) => skipIn stack .more r := by
  rw [skipIn.eq_def]
  split
  · next hs => rw [hs]; split <;> simp_all
  · next hs => rw [hs]; split <;> simp_all
  · split <;> simp_all
  all_goals contradiction

theorem skipIn_key (stack : List Bracket) (s : List Char) :
    skipIn stack .key s =
      match skipGap s with
      | [] => stopped .endInObject []
      | '"' :: t =>
        match skipKey t with
        | .error f => .error f
        | .ok (_, r) => skipIn stack .value r
      | c :: t => unfit .keyNotString (c :: t) := by
  rw [skipIn.eq_def]
  split
  any_goals contradiction
  · next hs => rw [hs]
  · next hs => rw [hs]; split <;> simp_all
  · next hs => rw [hs]; split <;> simp_all

theorem skipIn_more (bracket : Bracket) (stack : List Bracket) (s : List Char) :
    skipIn (bracket :: stack) .more s =
      match bracket, skipGap s with
      | .list, [] => stopped .endInList []
      | .object, [] => stopped .endInObject []
      | .list, ',' :: t => skipIn (.list :: stack) .value t
      | .object, ',' :: t => skipIn (.object :: stack) .key t
      | .list, ']' :: t => skipIn stack .more t
      | .object, '\x7d' :: t => skipIn stack .more t
      | .list, c :: t => unfit .expectedListEnd (c :: t)
      | .object, c :: t => unfit .expectedObjectEnd (c :: t) := by
  rw [skipIn.eq_def]
  split <;> first | contradiction | simp_all

variable {stack : List Bracket} {s t r : List Char}

theorem skipIn_value_skipGap (stack : List Bracket) (s : List Char) :
    skipIn stack .value (skipGap s) = skipIn stack .value s := by
  rw [skipIn_value, skipIn_value stack s, skipGap_skipGap]

theorem skip_list_close (hs : skipGap s = '[' :: t) (h : skipGap t = ']' :: r) :
    skipIn stack .value s = skipIn stack .more r := by
  simp only [skipIn_value, hs, h]

theorem skip_list_item (hs : skipGap s = '[' :: t) (hne : skipGap t ≠ [])
    (hh : (skipGap t).head? ≠ some ']') :
    skipIn stack .value s = skipIn (.list :: stack) .value t := by
  rw [skipIn_value]
  simp only [hs]
  split
  · next h => exact absurd h hne
  · next h => simp [h] at hh
  · next h => rw [← h, skipIn_value_skipGap]

theorem skip_object_close (hs : skipGap s = '\x7b' :: t) (h : skipGap t = '\x7d' :: r) :
    skipIn stack .value s = skipIn stack .more r := by
  simp only [skipIn_value, hs, h]

theorem skip_object_member (hs : skipGap s = '\x7b' :: t) (h : skipGap t = '"' :: r) :
    skipIn stack .value s = skipIn (.object :: stack) .key t := by
  rw [skipIn_value]
  simp only [hs]
  split
  · next hn => simp [h] at hn
  · next hn => simp [h] at hn
  · next hn => rw [← hn, skipIn_key, skipIn_key _ t, skipGap_skipGap]

theorem skip_comma_item (h : skipGap s = ',' :: t) :
    skipIn (.list :: stack) .more s = skipIn (.list :: stack) .value t := by
  simp only [skipIn_more, h]

theorem skip_comma_key (h : skipGap s = ',' :: t) :
    skipIn (.object :: stack) .more s = skipIn (.object :: stack) .key t := by
  simp only [skipIn_more, h]

theorem skip_end_list (h : skipGap s = ']' :: r) :
    skipIn (.list :: stack) .more s = skipIn stack .more r := by
  simp only [skipIn_more, h]

theorem skip_end_object (h : skipGap s = '\x7d' :: r) :
    skipIn (.object :: stack) .more s = skipIn stack .more r := by
  simp only [skipIn_more, h]

theorem skip_key {u v : List Char} {k : String} (h : skipGap s = '"' :: t)
    (hk : stringTail.run t = .ok (k, u)) (hc : colon u = .ok ((), v)) :
    skipIn stack .key s = skipIn stack .value v := by
  obtain ⟨cs, hb, -⟩ := Reading.map_eq_ok hk
  have hkey : skipKey t = .ok ((), v) := by
    simp only [skipKey, skipString_of_stringBody hb, colon_iff.1 hc]
  simp only [skipIn_key, h, hkey]

/-- Behind an item of a list the skipper looks for what reading looks for. -/
theorem ItemsAt.skip_more {vs : List α} (h : ItemsAt Skips false s vs r) :
    skipIn (.list :: stack) .more s = skipIn stack .more r := by
  generalize hf : false = first at h
  induction h with
  | close h => exact skip_end_list (nextItem_false_iff.1 h)
  | item h hv _ ih =>
    subst hf
    obtain ⟨v, hs, rfl, -⟩ := nextItem_more_iff.1 h
    rw [skip_comma_item hs, ← skipIn_value_skipGap, hv, ih rfl]

theorem ItemsAt.skip {vs : List α} (h : ItemsAt Skips true t vs r) (hs : skipGap s = '[' :: t) :
    skipIn stack .value s = skipIn stack .more r := by
  cases h with
  | close h => exact skip_list_close hs (nextItem_false_iff.1 h)
  | item h hv hrest =>
    obtain ⟨rfl, hne, hh⟩ := nextItem_first_iff.1 h
    rw [skip_list_item hs hne hh, ← skipIn_value_skipGap, hv, hrest.skip_more]

theorem MembersAt.skip_more {ms : List (String × α)} (h : MembersAt Skips false s ms r) :
    skipIn (.object :: stack) .more s = skipIn stack .more r := by
  generalize hf : false = first at h
  induction h with
  | close h => exact skip_end_object (nextKey_false_iff.1 h)
  | member h hk hc hv _ ih =>
    subst hf
    obtain ⟨v, hs, hq⟩ := nextKey_more_iff.1 h
    rw [skip_comma_key hs, skip_key hq hk hc, hv, ih rfl]

theorem MembersAt.skip {ms : List (String × α)} (h : MembersAt Skips true t ms r)
    (hs : skipGap s = '\x7b' :: t) : skipIn stack .value s = skipIn stack .more r := by
  cases h with
  | close h => exact skip_object_close hs (nextKey_false_iff.1 h)
  | member h hk hc hv hrest =>
    have hq := nextKey_first_iff.1 h
    rw [skip_object_member hs hq, skip_key hq hk hc, hv, hrest.skip_more]

end Skipping

/-! ## Writing -/

section Writing

variable {α : Type} {P : List Char → α → List Char → Prop} {text : α → List Char}

/-- Texts that each come behind a comma, and the closing bracket. -/
def behindComma (bracket : Char) (r : List Char) : List (List Char) → List Char
  | [] => bracket :: r
  | t :: ts => ',' :: (t ++ behindComma bracket r ts)

theorem commaSeparated_append (bracket : Char) (r t : List Char) (ts : List (List Char)) :
    commaSeparated (t :: ts) ++ bracket :: r = t ++ behindComma bracket r ts := by
  induction ts generalizing t with
  | nil => rfl
  | cons t' ts ih =>
    rw [commaSeparated, List.append_assoc, List.cons_append, ih, behindComma]
    nofun

theorem endsNumeral_behindComma {bracket : Char} (h : bracket = ']' ∨ bracket = '\x7d')
    (r : List Char) (ts : List (List Char)) : EndsNumeral (behindComma bracket r ts) := by
  cases ts with
  | nil => exact endsNumeral_cons r (.inr h)
  | cons t ts => exact endsNumeral_cons _ (.inl rfl)

/-- A text that starts with a token, other than the end of a list. -/
def StartsItem (t : List Char) : Prop := ∃ c s, t = c :: s ∧ isGap c = false ∧ c ≠ ']'

theorem StartsItem.append {t : List Char} (h : StartsItem t) (r : List Char) :
    skipGap (t ++ r) = t ++ r ∧ t ++ r ≠ [] ∧ (t ++ r).head? ≠ some ']' := by
  obtain ⟨c, s, rfl, hc, hne⟩ := h
  exact ⟨skipGap_cons hc _, by simp, by simpa using hne⟩

/-- The list that is written for items. -/
theorem itemsAt_printed {as : List α} (r : List Char) (hstart : ∀ a ∈ as, StartsItem (text a))
    (hP : ∀ a ∈ as, ∀ u, EndsNumeral u → P (text a ++ u) a u) :
    ItemsAt P true (commaSeparated (as.map text) ++ ']' :: r) as r := by
  have more : ∀ as : List α, (∀ a ∈ as, StartsItem (text a)) →
      (∀ a ∈ as, ∀ u, EndsNumeral u → P (text a ++ u) a u) →
      ItemsAt P false (behindComma ']' r (as.map text)) as r := by
    intro as
    induction as with
    | nil => exact fun _ _ => .close (nextItem_false_iff.2 (skipGap_cons rfl r))
    | cons a as ih =>
      intro hstart hP
      have hu := endsNumeral_behindComma (.inl rfl) r (as.map text)
      refine .item (nextItem_more_iff.2 ⟨_, skipGap_cons rfl _, (hstart a (by simp)).append _⟩)
        (hP a (by simp) _ hu) ?_
      exact ih (fun b hb => hstart b (by simp [hb])) fun b hb => hP b (by simp [hb])
  cases as with
  | nil => exact .close (nextItem_false_iff.2 (skipGap_cons rfl r))
  | cons a as =>
    have hu := endsNumeral_behindComma (.inl rfl) r (as.map text)
    rw [List.map_cons, commaSeparated_append]
    refine .item (nextItem_first_iff.2 ((hstart a (by simp)).append _)) (hP a (by simp) _ hu) ?_
    exact more as (fun b hb => hstart b (by simp [hb])) fun b hb => hP b (by simp [hb])

/-- The object that is written for members. -/
theorem membersAt_printed {ms : List (String × α)} (r : List Char)
    (hP : ∀ m ∈ ms, ∀ u, EndsNumeral u → P (text m.2 ++ u) m.2 u) :
    MembersAt P true (commaSeparated (ms.map fun m => memberChars (m.1, text m.2)) ++ '\x7d' :: r)
      ms r := by
  have key : ∀ (m : String × α) (u : List Char), memberChars (m.1, text m.2) ++ u =
      '"' :: (m.1.toList.flatMap escaped ++ '"' :: ':' :: (text m.2 ++ u)) := by
    intro m u
    simp [memberChars, stringChars]
  have more : ∀ ms : List (String × α),
      (∀ m ∈ ms, ∀ u, EndsNumeral u → P (text m.2 ++ u) m.2 u) →
      MembersAt P false
        (behindComma '\x7d' r (ms.map fun m => memberChars (m.1, text m.2))) ms r := by
    intro ms
    induction ms with
    | nil => exact fun _ => .close (nextKey_false_iff.2 (skipGap_cons rfl r))
    | cons m ms ih =>
      intro hP
      rw [List.map_cons, behindComma, key]
      have hu := endsNumeral_behindComma (.inr rfl) r
        (ms.map fun m => memberChars (m.1, text m.2))
      exact .member (nextKey_more_iff.2 ⟨_, skipGap_cons rfl _, skipGap_cons rfl _⟩)
        (stringTail_printed _ _) (colon_iff.2 (skipGap_cons rfl _)) (hP m (by simp) _ hu)
        (ih fun b hb => hP b (by simp [hb]))
  cases ms with
  | nil => exact .close (nextKey_false_iff.2 (skipGap_cons rfl r))
  | cons m ms =>
    have hu := endsNumeral_behindComma (.inr rfl) r
      (ms.map fun m => memberChars (m.1, text m.2))
    rw [List.map_cons, commaSeparated_append, key]
    exact .member (nextKey_first_iff.2 (skipGap_cons rfl _))
      (stringTail_printed _ _) (colon_iff.2 (skipGap_cons rfl _)) (hP m (by simp) _ hu)
      (more ms fun b hb => hP b (by simp [hb]))

end Writing

end DeadLetters.Json
