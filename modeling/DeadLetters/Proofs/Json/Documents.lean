import DeadLetters.Proofs.Json.Tokens

/-!
# Values that are read as documents

The text of a value is read as the document that has the same text: its keys stand between double
quotes, and its scalars are spelled as they are printed.

    v.document.chars = v.chars                                                   (chars_document)
    v.depth ≤ 1000 → Document.ofText v.text = .ok v.document                        (ofText_text)
-/

namespace DeadLetters.Json

def Key.printed (k : String) : Key := .quoted '"' (k.toList.flatMap escaped)

mutual

/-- The document that is printed like a value. -/
def Value.document : Value → Document
  | .null => .null
  | .bool b => .scalar (Value.bool b).chars
  | .number n => .scalar n.chars
  | .string s => .scalar (stringChars s)
  | .array items => .array (itemDocuments items)
  | .object members => .object (memberDocuments members)

def itemDocuments : List Value → List Document
  | [] => []
  | v :: vs => v.document :: itemDocuments vs

def memberDocuments : List (String × Value) → List (Key × Document)
  | [] => []
  | m :: ms => (.printed m.1, m.2.document) :: memberDocuments ms

end

theorem itemDocuments_eq (vs : List Value) : itemDocuments vs = vs.map Value.document := by
  induction vs with
  | nil => rfl
  | cons v vs ih => rw [itemDocuments, ih, List.map_cons]

theorem memberDocuments_eq (ms : List (String × Value)) :
    memberDocuments ms = ms.map fun m => (.printed m.1, m.2.document) := by
  induction ms with
  | nil => rfl
  | cons m ms ih => rw [memberDocuments, ih, List.map_cons]

theorem Key.chars_printed (k : String) : (Key.printed k).chars = stringChars k :=
  plainString_escaped k

theorem Key.spelling_printed (k : String) : (Key.printed k).spelling = stringChars k := rfl

theorem documentItems_eq (ds : List Document) : documentItems ds = ds.map Document.chars := by
  induction ds with
  | nil => rfl
  | cons d ds ih => rw [documentItems, ih, List.map_cons]

theorem documentMembers_eq (ms : List (Key × Document)) :
    documentMembers ms = ms.map fun m => m.1.chars ++ ':' :: m.2.chars := by
  induction ms with
  | nil => rfl
  | cons m ms ih => rw [documentMembers, ih, List.map_cons]

theorem chars_document (v : Value) : v.document.chars = v.chars := by
  induction v using Value.induction with
  | null | bool | number | string => rfl
  | array vs ih =>
    have hitems : vs.map (Document.chars ∘ Value.document) = vs.map Value.chars :=
      List.map_congr_left ih
    rw [Value.document, Document.chars, documentItems_eq, itemDocuments_eq, List.map_map, hitems,
      Value.chars, itemChars_eq]
  | object ms ih =>
    have hmembers : ms.map ((fun m : Key × Document => m.1.chars ++ ':' :: m.2.chars) ∘
        fun m : String × Value => (Key.printed m.1, m.2.document)) =
      ms.map (memberChars ∘ fun m => (m.1, m.2.chars)) := by
      refine List.map_congr_left fun m hm => ?_
      simp only [Function.comp_apply]
      rw [ih m hm, Key.chars_printed, memberChars]
    rw [Value.document, Document.chars, documentMembers_eq, memberDocuments_eq, List.map_map,
      hmembers, Value.chars, objectChars, memberValues_eq, List.map_map]

/-! ## Reading tokens -/

section Reading

open Document

variable {r : List Char} {frames : List Frame}

theorem endsToken_behindComma {bracket : Char} (h : bracket = ']' ∨ bracket = '\x7d')
    (r : List Char) (ts : List (List Char)) : EndsToken (behindComma bracket r ts) := by
  cases ts with
  | nil => exact endsToken_cons r (.inr h)
  | cons t ts => exact endsToken_cons _ (.inl rfl)

/-- The first token of a value is not the end of an array. -/
theorem tokens_value (v : Value) (hr : EndsToken r) :
    ∃ t ts, tokens (v.chars ++ r) = t :: ts ∧ t ≠ .closeArray := by
  cases v with
  | null => exact ⟨_, _, tokens_null hr, nofun⟩
  | bool b => exact ⟨_, _, tokens_bool b hr, nofun⟩
  | number n => exact ⟨_, _, tokens_number n hr, nofun⟩
  | string s =>
    rw [chars_string_append, tokens_string]
    exact ⟨_, _, rfl, nofun⟩
  | array vs =>
    rw [chars_array_append, tokens_openArray]
    exact ⟨_, _, rfl, nofun⟩
  | object ms =>
    rw [chars_object_append, tokens_openObject]
    exact ⟨_, _, rfl, nofun⟩

/-- A value whose first token may stand there is read on from the stage behind that token. -/
theorem read_enter {t : Token} {s : Stage} (h : Stage.enter frames t = some s) (ts : List Token) :
    (Stage.value frames).read (t :: ts) = s.read ts := by
  rw [Stage.read]
  · rw [Stage.next?, h]
  · nofun

/-- Where an item or the end may stand, an item is read as a value. -/
theorem read_item {t : Token} (ht : t ≠ .closeArray) (items : List Document) (ts : List Token) :
    (Stage.item items frames).read (t :: ts) = (Stage.value (.array items :: frames)).read (t :: ts) := by
  cases t <;> first | rfl | exact absurd rfl ht

/-- A value that is read as its document, wherever it stands. -/
def ReadsDocument (v : Value) : Prop :=
  ∀ (frames : List Frame) (r : List Char), frames.length + v.depth ≤ Document.depthLimit → EndsToken r →
    (Stage.value frames).read (tokens (v.chars ++ r)) = (Stage.behind v.document frames).read (tokens r)

theorem read_moreItems {vs : List Value} (h : ∀ v ∈ vs, ReadsDocument v)
    (hd : frames.length + 1 + itemsDepth vs ≤ Document.depthLimit) (items : List Document) :
    (Stage.moreItems items frames).read (tokens (behindComma ']' r (vs.map Value.chars))) =
      (Stage.behind (.array (items.reverse ++ vs.map Value.document)) frames).read (tokens r) := by
  induction vs generalizing items with
  | nil =>
    rw [List.map_nil, behindComma, tokens_closeArray, List.map_nil, List.append_nil]
    rfl
  | cons v vs ih =>
    rw [itemsDepth] at hd
    have hend := endsToken_behindComma (.inl rfl) r (vs.map Value.chars)
    obtain ⟨t, ts, htokens, ht⟩ := tokens_value v hend
    rw [List.map_cons, behindComma, tokens_comma]
    show (Stage.item items frames).read _ = _
    rw [htokens, read_item ht, ← htokens,
      h v (by simp) _ _ (by rw [List.length_cons]; omega) hend]
    show (Stage.moreItems (v.document :: items) frames).read _ = _
    rw [ih (fun u hu => h u (by simp [hu])) (by omega)]
    simp

theorem read_items {vs : List Value} (h : ∀ v ∈ vs, ReadsDocument v)
    (hd : frames.length + 1 + itemsDepth vs ≤ Document.depthLimit) :
    (Stage.item [] frames).read (tokens (commaSeparated (vs.map Value.chars) ++ ']' :: r)) =
      (Stage.behind (.array (vs.map Value.document)) frames).read (tokens r) := by
  cases vs with
  | nil =>
    rw [List.map_nil, commaSeparated, List.nil_append, tokens_closeArray]
    rfl
  | cons v vs =>
    rw [itemsDepth] at hd
    have hend := endsToken_behindComma (.inl rfl) r (vs.map Value.chars)
    obtain ⟨t, ts, htokens, ht⟩ := tokens_value v hend
    rw [List.map_cons, commaSeparated_append, htokens, read_item ht, ← htokens,
      h v (by simp) _ _ (by rw [List.length_cons]; omega) hend]
    show (Stage.moreItems [v.document] frames).read _ = _
    rw [read_moreItems (fun u hu => h u (by simp [hu])) (by omega)]
    rfl

/-- A member that is read where a key may stand. -/
theorem read_member {m : String × Value} (h : ReadsDocument m.2)
    (hd : frames.length + 1 + m.2.depth ≤ Document.depthLimit) (hr : EndsToken r)
    (members : List (Key × Document)) :
    (Stage.key members frames).read (tokens (memberChars (m.1, m.2.chars) ++ r)) =
      (Stage.moreMembers ((.printed m.1, m.2.document) :: members) frames).read (tokens r) := by
  have hchars : memberChars (m.1, m.2.chars) ++ r =
      '"' :: (m.1.toList.flatMap escaped ++ '"' :: ':' :: (m.2.chars ++ r)) := by
    simp [memberChars, stringChars]
  rw [hchars, tokens_string, tokens_colon]
  exact h (.member members (.printed m.1) :: frames) r (by rw [List.length_cons]; omega) hr

theorem read_moreMembers {ms : List (String × Value)} (h : ∀ m ∈ ms, ReadsDocument m.2)
    (hd : frames.length + 1 + membersDepth ms ≤ Document.depthLimit) (members : List (Key × Document)) :
    (Stage.moreMembers members frames).read
        (tokens (behindComma '\x7d' r (ms.map fun m => memberChars (m.1, m.2.chars)))) =
      (Stage.behind (.object (members.reverse ++ ms.map fun m => (.printed m.1, m.2.document))) frames).read
        (tokens r) := by
  induction ms generalizing members with
  | nil =>
    rw [List.map_nil, behindComma, tokens_closeObject, List.map_nil, List.append_nil]
    rfl
  | cons m ms ih =>
    rw [membersDepth] at hd
    have hend := endsToken_behindComma (.inr rfl) r (ms.map fun m => memberChars (m.1, m.2.chars))
    rw [List.map_cons, behindComma, tokens_comma]
    show (Stage.key members frames).read _ = _
    rw [read_member (h m (by simp)) (by omega) hend,
      ih (fun m' hm => h m' (by simp [hm])) (by omega)]
    simp

theorem read_members {ms : List (String × Value)} (h : ∀ m ∈ ms, ReadsDocument m.2)
    (hd : frames.length + 1 + membersDepth ms ≤ Document.depthLimit) :
    (Stage.key [] frames).read (tokens
        (commaSeparated (ms.map fun m => memberChars (m.1, m.2.chars)) ++ '\x7d' :: r)) =
      (Stage.behind (.object (ms.map fun m => (.printed m.1, m.2.document))) frames).read (tokens r) := by
  cases ms with
  | nil =>
    rw [List.map_nil, commaSeparated, List.nil_append, tokens_closeObject]
    rfl
  | cons m ms =>
    rw [membersDepth] at hd
    have hend := endsToken_behindComma (.inr rfl) r (ms.map fun m => memberChars (m.1, m.2.chars))
    rw [List.map_cons, commaSeparated_append, read_member (h m (by simp)) (by omega) hend,
      read_moreMembers (fun m' hm => h m' (by simp [hm])) (by omega)]
    rfl

theorem readsDocument (v : Value) : ReadsDocument v := by
  induction v using Value.induction with
  | null => exact fun frames r _ hr => congrArg (Stage.value frames).read (tokens_null hr)
  | bool b => exact fun frames r _ hr => congrArg (Stage.value frames).read (tokens_bool b hr)
  | number n => exact fun frames r _ hr => congrArg (Stage.value frames).read (tokens_number n hr)
  | string s =>
    intro frames r _ _
    rw [chars_string_append, tokens_string]
    show (Stage.behind (.scalar (plainString _)) frames).read _ = _
    rw [plainString_escaped]
    rfl
  | array vs ih =>
    intro frames r hd _
    rw [Value.depth] at hd
    rw [chars_array_append, tokens_openArray]
    have henter : Stage.enter frames .openArray = some (.item [] frames) := if_pos (by omega)
    rw [read_enter henter, read_items ih (by omega), Value.document, itemDocuments_eq]
  | object ms ih =>
    intro frames r hd _
    rw [Value.depth] at hd
    rw [chars_object_append, tokens_openObject]
    have henter : Stage.enter frames .openObject = some (.key [] frames) := if_pos (by omega)
    rw [read_enter henter, read_members ih (by omega), Value.document, memberDocuments_eq]

end Reading

/-! ## Whole texts -/

theorem mem_commaSeparated {c : Char} {ts : List (List Char)} (h : c ∈ commaSeparated ts) :
    c = ',' ∨ ∃ t ∈ ts, c ∈ t := by
  fun_induction commaSeparated ts with
  | case1 => cases h
  | case2 t => exact .inr ⟨t, by simp, h⟩
  | case3 t ts _ ih =>
    rcases List.mem_append.1 h with h | h
    · exact .inr ⟨t, by simp, h⟩
    · rcases List.mem_cons.1 h with rfl | h
      · exact .inl rfl
      · obtain rfl | ⟨u, hu, hc⟩ := ih h
        · exact .inl rfl
        · exact .inr ⟨u, by simp [hu], hc⟩

/-! The character NUL, which ends a text for those who read documents, is never written. -/

theorem ne_nul_of_all {s : List Char} (h : s.all (· ≠ '\x00') = true) {c : Char} (hc : c ∈ s) :
    c ≠ '\x00' :=
  of_decide_eq_true (List.all_eq_true.1 h c hc)

theorem IsPlain.ne_nul {c : Char} (h : IsPlain c) : c ≠ '\x00' := by
  rintro rfl
  exact h.control (by decide)

theorem ne_nul_of_isDigit {c : Char} (h : c.isDigit = true) : c ≠ '\x00' := by
  rintro rfl
  cases h

theorem ne_nul_escaped {c d : Char} (h : d ∈ escaped c) : d ≠ '\x00' := by
  cases escaped_cases c with
  | letter l hl he =>
    rw [he] at h
    have hletters : ('\\' :: escapeLetters).all (· ≠ '\x00') = true := by decide
    refine ne_nul_of_all hletters ?_
    rcases List.mem_cons.1 h with rfl | h
    · exact List.mem_cons_self
    · exact List.mem_cons_of_mem _ (List.mem_singleton.1 h ▸ hl)
  | unit a b ha hb he =>
    rw [he] at h
    simp only [List.mem_cons, List.not_mem_nil, or_false] at h
    rcases h with rfl | rfl | rfl | rfl | rfl | rfl
    · decide
    · decide
    · decide
    · decide
    · exact ha.2.ne_nul
    · exact hb.2.ne_nul
  | plain hc he =>
    rw [he] at h
    exact List.mem_singleton.1 h ▸ hc.ne_nul

theorem ne_nul_stringChars {t : String} {c : Char} (h : c ∈ stringChars t) : c ≠ '\x00' := by
  simp only [stringChars, List.cons_append, List.mem_cons, List.mem_append, List.mem_flatMap,
    List.not_mem_nil, or_false] at h
  rcases h with rfl | ⟨d, -, hd⟩ | rfl
  · decide
  · exact ne_nul_escaped hd
  · decide

theorem ne_nul_numeral {n : Numeral} (h : n.WellFormed) {c : Char} (hc : c ∈ n.chars) :
    c ≠ '\x00' := by
  rcases List.mem_append.1 hc with hc | hc
  · split at hc
    · exact List.mem_singleton.1 hc ▸ (by decide)
    · cases hc
  rcases List.mem_append.1 hc with hc | hc
  · exact ne_nul_of_isDigit (h.whole c hc)
  rcases List.mem_append.1 hc with hc | hc
  · rw [fractionChars] at hc
    split at hc
    · cases hc
    · rcases List.mem_cons.1 hc with rfl | hc
      · decide
      · exact ne_nul_of_isDigit (h.fraction c hc)
  · cases hx : n.exponent with
    | none =>
      rw [hx] at hc
      cases hc
    | some x =>
      rw [hx] at hc
      rcases List.mem_cons.1 hc with rfl | hc
      · decide
      rcases List.mem_cons.1 hc with rfl | hc
      · split
        · decide
        · decide
      · exact ne_nul_of_isDigit ((h.exponent x hx).2 c hc)

theorem ne_nul_chars {v : Value} {c : Char} (h : c ∈ v.chars) : c ≠ '\x00' := by
  induction v using Value.induction with
  | null => exact ne_nul_of_all (by decide) h
  | bool b =>
    cases b
    · exact ne_nul_of_all (by decide) h
    · exact ne_nul_of_all (by decide) h
  | number n =>
    rw [Value.chars, ← n.chars_numeral] at h
    exact ne_nul_numeral n.wellFormed_numeral h
  | string t => exact ne_nul_stringChars h
  | array vs ih =>
    simp only [Value.chars, arrayChars, itemChars_eq, List.cons_append, List.mem_cons,
      List.mem_append, List.not_mem_nil, or_false] at h
    rcases h with rfl | h | rfl
    · decide
    · rcases mem_commaSeparated h with rfl | ⟨t, ht, hc⟩
      · decide
      · obtain ⟨v, hv, rfl⟩ := List.mem_map.1 ht
        exact ih v hv hc
    · decide
  | object ms ih =>
    simp only [Value.chars, objectChars, memberValues_eq, List.map_map, List.cons_append,
      List.mem_cons, List.mem_append, List.not_mem_nil, or_false] at h
    rcases h with rfl | h | rfl
    · decide
    · rcases mem_commaSeparated h with rfl | ⟨t, ht, hc⟩
      · decide
      · obtain ⟨m, hm, rfl⟩ := List.mem_map.1 ht
        simp only [Function.comp_apply, memberChars, List.mem_append, List.mem_cons] at hc
        rcases hc with hc | rfl | hc
        · exact ne_nul_stringChars hc
        · decide
        · exact ih m hm hc
    · decide

/-- The text of a value is read as its document, if it is not nested too deeply. -/
theorem ofText_text {v : Value} (h : v.depth ≤ Document.depthLimit) :
    Document.ofText v.text = .ok v.document := by
  have hvisible : v.text.toList.takeWhile (fun c => c ≠ '\x00') = v.chars := by
    rw [Value.text, String.toList_ofList]
    exact List.takeWhile_eq_self_iff.2 fun c hc => decide_eq_true (ne_nul_chars hc)
  have hread := readsDocument v [] [] (by simpa using h) endsToken_nil
  rw [List.append_nil, tokens_nil] at hread
  rw [Document.ofText, hvisible, hread]
  rfl

end DeadLetters.Json
