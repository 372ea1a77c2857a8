import DeadLetters.Json.Schema
import DeadLetters.Proofs.Json.Doubles
import DeadLetters.Proofs.Json.Values

/-!
# Values in a text, for every reader

What is known of a text in which a value stands, be it that it was read there or that it was
written there: what the reader of a simple schema makes of it, and where skipping it leads to.  A
typed reader sees the same value in both texts, although one of them may have blanks, escapes and
members in any order.

    (value d).run s = .ok (v, r) → Spelled s v r                               (spelled_of_value)
    v.All Number.Fits → EndsNumeral r → Spelled (v.chars ++ r) v r              (spelled_printed)
    Spelled s v r → (schema.reader d).run s agrees with schema.accept v           (Spelled.reads)
-/

namespace DeadLetters.Json

/-! ## What a simple schema accepts -/

/-- Lists, objects and doubles. -/
def Value.isForeign : Value → Bool
  | .array _ | .object _ | .number (.float _) => true
  | _ => false

namespace Schema

def isFlat : Schema → Bool
  | any | dictionary _ => false
  | nullable s => s.isFlat
  | _ => true

/-- What a value is read as that may be `null`. -/
def acceptNullable {α : Type} (f : Value → Option α) : Value → Option (Option α)
  | .null => some none
  | v => (f v).map some

/-- What an object with arbitrary keys is read as. -/
def acceptDictionary {α : Type} (f : Value → Option α) : Value → Option (Dictionary α)
  | .object ms => (ms.mapM fun m => (f m.2).map fun a => (m.1, a)).map Dictionary.ofList
  | _ => none

/-- What a value is read as. -/
def accept : (s : Schema) → Value → Option s.Carrier
  | text wanted, v => (acceptString wanted v).toOption
  | bool, v => (acceptBool "a boolean" v).toOption
  | word32, v =>
    ((acceptInteger "u32" 0 (UInt32.size - 1) v).map fun i => i.toNat.toUInt32).toOption
  | word64, v =>
    ((acceptInteger "u64" 0 (UInt64.size - 1) v).map fun i => i.toNat.toUInt64).toOption
  | int64, v =>
    ((acceptInteger "i64" Int64.minValue.toInt Int64.maxValue.toInt v).map Int64.ofInt).toOption
  | count, v => ((acceptInteger "u64" 0 (UInt64.size - 1) v).map Int.toNat).toOption
  | any, v => some v
  | nullable s, v => acceptNullable s.accept v
  | dictionary s, v => acceptDictionary s.accept v

/-- No simple schema takes lists, objects and doubles. -/
theorem accept_foreign (schema : Schema) (hf : schema.isFlat = true) {v : Value}
    (hv : v.isForeign = true) : schema.accept v = none := by
  induction schema with
  | text | bool | word32 | word64 | int64 | count =>
    cases v with
    | array | object => rfl
    | number n => cases n with
      | int => simp [Value.isForeign] at hv
      | float => rfl
    | null | bool | string => simp [Value.isForeign] at hv
  | any | dictionary => simp [isFlat] at hf
  | nullable schema ih =>
    rw [accept, acceptNullable, ih hf]
    · rfl
    · rintro rfl
      simp [Value.isForeign] at hv

end Schema

/-- The value `v` stands in the text `s`, in front of `r`.  The digits of a double are left open. -/
inductive Stands (s r : List Char) : Value → Prop
  | array {vs : List Value} {t : List Char} (hs : skipGap s = '[' :: t) : Stands s r (.array vs)
  | object {ms : List (String × Value)} {t : List Char} (hs : skipGap s = '\x7b' :: t) :
      Stands s r (.object ms)
  | float {x : Float} (hl : ∀ t, skipGap s ≠ '[' :: t) (ho : ∀ t, skipGap s ≠ '\x7b' :: t)
      (h : ∀ w u, scalar (skipGap s) = .ok (w, u) → ∃ y, w = .number (.float y)) :
      Stands s r (.number (.float x))
  | scalar {v : Value} (hl : ∀ t, skipGap s ≠ '[' :: t) (ho : ∀ t, skipGap s ≠ '\x7b' :: t)
      (h : scalar (skipGap s) = .ok (v, r)) : Stands s r v

/-- The value `v` stands in the text `s`, in front of `r`, and can be skipped. -/
structure Spelled (s : List Char) (v : Value) (r : List Char) : Prop where
  skips : Skips s v r
  stands : Stands s r v

/-! ## Readers of simple schemas -/

variable {s r : List Char} {v : Value}

theorem Stands.of_skipGap (h : Stands s r v) : Stands (skipGap s) r v := by
  cases h with
  | array hs => exact .array (by rw [skipGap_skipGap, hs])
  | object hs => exact .object (by rw [skipGap_skipGap, hs])
  | float hl ho h =>
    rw [← skipGap_skipGap s] at hl ho h
    exact .float hl ho h
  | scalar hl ho h =>
    rw [← skipGap_skipGap s] at hl ho h
    exact .scalar hl ho h

theorem leafRun_eq {α : Type} {wanted : String} {accept : Value → Except Cause α}
    (hl : ∀ t, skipGap s ≠ '[' :: t) (ho : ∀ t, skipGap s ≠ '\x7b' :: t) :
    leafRun wanted accept s =
      match scalar (skipGap s) with
      | .error f => .error f
      | .ok (v, r) =>
        match accept v with
        | .ok a => .ok (a, r)
        | .error cause => stopped cause r := by
  unfold leafRun
  split
  · next h => exact absurd h (hl _)
  · next h => exact absurd h (ho _)
  · rfl

/-- A reader that takes neither lists and objects nor doubles. -/
structure Picky {α : Type} (accept : Value → Except Cause α) : Prop where
  array : ∀ vs, (accept (.array vs)).toOption = none
  object : ∀ ms, (accept (.object ms)).toOption = none
  float : ∀ x, (accept (.number (.float x))).toOption = none

theorem Stands.leaf {α : Type} {wanted : String} {accept : Value → Except Cause α}
    (h : Stands s r v) (hp : Picky accept) :
    (leafRun wanted accept s).toOption = (accept v).toOption.map (·, r) := by
  cases h with
  | array hs =>
    rw [hp.array, leafRun, hs]
    rfl
  | object hs =>
    rw [hp.object, leafRun, hs]
    rfl
  | @float x hl ho h =>
    rw [hp.float, leafRun_eq hl ho]
    cases hr : Json.scalar (skipGap s) with
    | error f => rfl
    | ok p =>
      obtain ⟨y, hy⟩ := h p.1 p.2 hr
      have hn := hp.float y
      dsimp only
      rw [hy]
      cases ha : accept (.number (.float y)) with
      | error c => rfl
      | ok a => simp [ha, Except.toOption] at hn
  | scalar hl ho h =>
    rw [leafRun_eq hl ho, h]
    dsimp only
    cases accept v <;> rfl

theorem picky_string (wanted : String) : Picky (acceptString wanted) :=
  ⟨fun _ => rfl, fun _ => rfl, fun _ => rfl⟩

theorem picky_bool (wanted : String) : Picky (acceptBool wanted) :=
  ⟨fun _ => rfl, fun _ => rfl, fun _ => rfl⟩

theorem picky_integer {α : Type} (wanted : String) (least greatest : Int) (f : Int → α) :
    Picky fun v => (acceptInteger wanted least greatest v).map f :=
  ⟨fun _ => rfl, fun _ => rfl, fun _ => rfl⟩

theorem exists_of_scalar_null (h : scalar s = .ok (.null, r)) : ∃ t, s = 'n' :: t := by
  unfold scalar at h
  split at h
  · simp [stopped] at h
  · exact ⟨_, rfl⟩
  · obtain ⟨_, -, hv⟩ := Reading.map_eq_ok h
    cases hv
  · obtain ⟨_, -, hv⟩ := Reading.map_eq_ok h
    cases hv
  · obtain ⟨_, -, hv⟩ := Reading.map_eq_ok h
    cases hv
  · split at h
    · obtain ⟨_, -, hv⟩ := Reading.map_eq_ok h
      cases hv
    · simp [unfit] at h

/-- Only `null` starts with its first letter. -/
theorem Stands.nullable {α : Type} {inner : Reader α} {f : Value → Option α} (h : Stands s r v)
    (hf : ∀ x, v = .number (.float x) → f v = none) (hi : Reads inner f (skipGap s) v r) :
    (nullableRun inner s).toOption = (Schema.acceptNullable f v).map (·, r) := by
  unfold nullableRun
  split
  · next t hs =>
    have hscalar : Json.scalar (skipGap s) = (letters ['u', 'l', 'l'] t).map fun _ => .null := by
      rw [hs]
      rfl
    cases h with
    | array h => simp [hs] at h
    | object h => simp [hs] at h
    | @float x hl ho h =>
      rw [Schema.acceptNullable, hf x rfl]
      · cases ht : letters ['u', 'l', 'l'] t with
        | error e => rfl
        | ok p =>
          obtain ⟨y, hy⟩ := h .null p.2 (by rw [hscalar, ht]; rfl)
          cases hy
      · nofun
    | scalar hl ho h =>
      obtain ⟨u, hu, rfl⟩ := Reading.map_eq_ok (hscalar.symm.trans h)
      rw [hu]
      rfl
  · next hn =>
    have hne : v ≠ .null := by
      rintro rfl
      cases h with
      | scalar hl ho h =>
        obtain ⟨t, ht⟩ := exists_of_scalar_null h
        exact hn t ht
    have hv : Schema.acceptNullable f v = (f v).map some := by
      rw [Schema.acceptNullable]
      exact hne
    unfold Reads at hi
    rw [toOption_map, hi, hv]
    cases f v <;> rfl

theorem Stands.reads (h : Stands s r v) {schema : Schema} (hf : schema.isFlat = true)
    (depth : Nat) : Reads (schema.reader depth) schema.accept s v r := by
  induction schema generalizing s with
  | text wanted => exact h.leaf (picky_string wanted)
  | bool => exact h.leaf (picky_bool _)
  | word32 | word64 | int64 | count => exact h.leaf (picky_integer _ _ _ _)
  | any => simp [Schema.isFlat] at hf
  | nullable schema ih =>
    exact h.nullable (by rintro x rfl; exact schema.accept_foreign hf rfl) (ih h.of_skipGap hf)
  | dictionary schema => simp [Schema.isFlat] at hf

theorem Spelled.reads (h : Spelled s v r) {schema : Schema} (hf : schema.isFlat = true)
    (depth : Nat) : Reads (schema.reader depth) schema.accept s v r :=
  h.stands.reads hf depth

/-! ## Values that were read -/

theorem skipScalar_of_scalar (h : scalar s = .ok (v, r)) : skipScalar s = .ok ((), r) := by
  unfold scalar at h
  split at h
  · simp [stopped] at h
  · obtain ⟨_, hl, -⟩ := Reading.map_eq_ok h
    exact hl
  · obtain ⟨_, hl, -⟩ := Reading.map_eq_ok h
    exact hl
  · obtain ⟨_, hl, -⟩ := Reading.map_eq_ok h
    exact hl
  · obtain ⟨_, ht, -⟩ := Reading.map_eq_ok h
    obtain ⟨_, hb, -⟩ := Reading.map_eq_ok ht
    exact skipString_of_stringBody hb
  · next c s hn ht hf hq =>
    split at h
    · next hc =>
      obtain ⟨_, hx, -⟩ := Reading.map_eq_ok h
      obtain ⟨n, hn⟩ := numeral_of_numberText (e := .invalidNumber) hx
      rw [skipScalar, if_pos hc, hn]
      · rfl
      all_goals assumption
    · simp [unfit] at h

theorem skips_scalar {α : Type} {a : α} (hl : ∀ t, skipGap s ≠ '[' :: t)
    (ho : ∀ t, skipGap s ≠ '\x7b' :: t) (h : skipScalar (skipGap s) = .ok ((), r)) :
    Skips s a r := by
  intro stack
  rw [skipIn_value]
  split
  · next hs => exact absurd hs (hl _)
  · next hs => exact absurd hs (ho _)
  · rw [h]

theorem spelled_of_value {d : Nat} (h : (value d).run s = .ok (v, r)) : Spelled s v r := by
  induction d using Nat.strongRecOn generalizing s r v with
  | _ d ih =>
    cases valueAt_of_value h with
    | array hd hs hitems =>
      have all := hitems.mono fun t a u ha => (ih _ (by omega) (reads_some_iff.1 ha)).skips
      exact ⟨fun _ => all.skip hs, .array hs⟩
    | object hd hs hmembers =>
      have all := hmembers.mono fun t a u ha => (ih _ (by omega) (reads_some_iff.1 ha)).skips
      exact ⟨fun _ => all.skip hs, .object hs⟩
    | scalar hl ho hscalar =>
      exact ⟨skips_scalar hl ho (skipScalar_of_scalar hscalar), .scalar hl ho hscalar⟩

/-! ## Values that are written -/

theorem itemChars_eq (vs : List Value) : itemChars vs = vs.map Value.chars := by
  induction vs with
  | nil => rfl
  | cons v vs ih => rw [itemChars, ih, List.map_cons]

theorem memberValues_eq (ms : List (String × Value)) :
    memberValues ms = ms.map fun m => (m.1, m.2.chars) := by
  induction ms with
  | nil => rfl
  | cons m ms ih => rw [memberValues, ih, List.map_cons]

theorem chars_string_append (t : String) (r : List Char) :
    (Value.string t).chars ++ r = '"' :: (t.toList.flatMap escaped ++ '"' :: r) := by
  simp [Value.chars, stringChars]

theorem chars_array_append (vs : List Value) (r : List Char) :
    (Value.array vs).chars ++ r = '[' :: (commaSeparated (vs.map Value.chars) ++ ']' :: r) := by
  simp [Value.chars, arrayChars, itemChars_eq]

theorem chars_object_append (ms : List (String × Value)) (r : List Char) :
    (Value.object ms).chars ++ r = '\x7b' ::
      (commaSeparated (ms.map fun m => memberChars (m.1, m.2.chars)) ++ '\x7d' :: r) := by
  simp [Value.chars, objectChars, memberValues_eq, Function.comp_def]

def StartsNumber (c : Char) : Prop := c = '-' ∨ c.isDigit = true

theorem StartsNumber.isGap {c : Char} (h : StartsNumber c) : isGap c = false := by
  rcases h with rfl | h
  · rfl
  · unfold Json.isGap
    simp only [Bool.or_eq_false_iff, decide_eq_false_iff_not]
    refine ⟨⟨⟨?_, ?_⟩, ?_⟩, ?_⟩ <;> rintro rfl <;> simp at h

theorem StartsNumber.ne {c d : Char} (h : StartsNumber c) (hd : d ≠ '-')
    (hn : d.isDigit = false) : c ≠ d := by
  rintro rfl
  rcases h with h | h
  · exact hd h
  · rw [hn] at h
    cases h

theorem scalar_number {c : Char} (h : StartsNumber c) (s : List Char) :
    scalar (c :: s) = (numberText (c :: s)).map .number := by
  rw [scalar, if_pos (show c = '-' ∨ c.isDigit = true from h)]
  · exact h.ne (by decide) rfl
  · exact h.ne (by decide) rfl
  · exact h.ne (by decide) rfl
  · exact h.ne (by decide) rfl

theorem skipScalar_number {c : Char} (h : StartsNumber c) (s : List Char) :
    skipScalar (c :: s) = (numeral .invalidNumber (c :: s)).map fun _ => () := by
  rw [skipScalar, if_pos (show c = '-' ∨ c.isDigit = true from h)]
  · exact h.ne (by decide) rfl
  · exact h.ne (by decide) rfl
  · exact h.ne (by decide) rfl
  · exact h.ne (by decide) rfl

theorem Numeral.WellFormed.exists_chars {n : Numeral} (h : n.WellFormed) :
    ∃ c s, n.chars = c :: s ∧ StartsNumber c := by
  obtain ⟨c, s, hw, hc⟩ := h.exists_whole
  cases hn : n.negative with
  | true => exact ⟨'-', _, by rw [Numeral.chars, hn]; rfl, .inl rfl⟩
  | false => exact ⟨c, _, by rw [Numeral.chars, hn, hw]; rfl, .inr hc⟩

def Number.numeral : Number → Numeral
  | .int i => .ofInt i
  | .float x => .ofFloat x

theorem Number.wellFormed_numeral (n : Number) : n.numeral.WellFormed := by
  cases n with
  | int i => exact Numeral.wellFormed_ofInt i
  | float x => exact Numeral.wellFormed_ofFloat x

theorem Number.chars_numeral (n : Number) : n.numeral.chars = n.chars := by
  cases n with
  | int i => exact Numeral.chars_ofInt i
  | float x => exact Numeral.chars_ofFloat x

theorem numberText_chars (n : Number) (hr : EndsNumeral r) :
    numberText (n.chars ++ r) = n.numeral.evaluate r := by
  rw [numberText, ← n.chars_numeral, numeral_printed n.wellFormed_numeral hr]

theorem startsItem_chars (v : Value) : StartsItem v.chars := by
  cases v with
  | null => exact ⟨_, _, rfl, rfl, by decide⟩
  | bool b => cases b <;> exact ⟨_, _, rfl, rfl, by decide⟩
  | number n =>
    obtain ⟨c, s, hs, hc⟩ := n.wellFormed_numeral.exists_chars
    refine ⟨c, s, ?_, hc.isGap, hc.ne (by decide) rfl⟩
    rw [Value.chars, ← n.chars_numeral, hs]
  | string t => exact ⟨_, _, rfl, rfl, by decide⟩
  | array vs => exact ⟨_, _, rfl, rfl, by decide⟩
  | object ms => exact ⟨_, _, rfl, rfl, by decide⟩

/-- A number is read up to its end, whoever reads it. -/
theorem number_append (n : Number) (hr : EndsNumeral r) :
    (∀ t, skipGap (n.chars ++ r) ≠ '[' :: t) ∧ (∀ t, skipGap (n.chars ++ r) ≠ '\x7b' :: t) ∧
      scalar (skipGap (n.chars ++ r)) = (n.numeral.evaluate r).map .number ∧
      skipScalar (skipGap (n.chars ++ r)) = .ok ((), r) := by
  obtain ⟨c, s, hs, hc⟩ := n.wellFormed_numeral.exists_chars
  rw [n.chars_numeral] at hs
  have hcons : n.chars ++ r = c :: (s ++ r) := by rw [hs, List.cons_append]
  have hgap : skipGap (n.chars ++ r) = c :: (s ++ r) := by rw [hcons, skipGap_cons hc.isGap]
  rw [hgap]
  refine ⟨fun t ht => ?_, fun t ht => ?_, ?_, ?_⟩
  · exact hc.ne (by decide) rfl (List.cons.inj ht).1
  · exact hc.ne (by decide) rfl (List.cons.inj ht).1
  · rw [scalar_number hc, ← hcons, numberText_chars n hr]
  · rw [skipScalar_number hc, ← hcons, ← n.chars_numeral, numeral_printed n.wellFormed_numeral hr]
    rfl

theorem spelled_number {n : Number} (hf : n.Fits) (hr : EndsNumeral r) :
    Spelled (n.chars ++ r) (.number n) r := by
  obtain ⟨hl, ho, hscalar, hskip⟩ := number_append n hr
  refine ⟨skips_scalar hl ho hskip, ?_⟩
  cases n with
  | int i => exact .scalar hl ho (by rw [hscalar, Number.numeral, evaluate_ofInt hf]; rfl)
  | float x =>
    refine .float hl ho fun w u hw => ?_
    rw [hscalar] at hw
    obtain ⟨y, hy, rfl⟩ := Reading.map_eq_ok hw
    rcases evaluate_cases hy with ⟨z, rfl⟩ | ⟨_, _, _, hn⟩
    · exact ⟨z, rfl⟩
    · exact absurd (Numeral.isFloat_ofFloat x) hn

theorem spelled_scalar {t : List Char} (hl : ∀ u, skipGap t ≠ '[' :: u)
    (ho : ∀ u, skipGap t ≠ '\x7b' :: u) (h : scalar (skipGap t) = .ok (v, r)) : Spelled t v r :=
  ⟨skips_scalar hl ho (skipScalar_of_scalar h), .scalar hl ho h⟩

theorem spelled_printed (hf : v.All Number.Fits) (hr : EndsNumeral r) :
    Spelled (v.chars ++ r) v r := by
  induction v using Value.induction generalizing r with
  | null => exact spelled_scalar nofun nofun rfl
  | bool b => cases b <;> exact spelled_scalar nofun nofun rfl
  | number n => exact spelled_number hf hr
  | string t =>
    have hs := (congrArg skipGap (chars_string_append t r)).trans (skipGap_cons rfl _)
    refine spelled_scalar (fun u hu => ?_) (fun u hu => ?_) ?_
    · simp [hs] at hu
    · simp [hs] at hu
    · rw [hs, scalar, stringTail_printed]
      rfl
  | array vs ih =>
    have hs := (congrArg skipGap (chars_array_append vs r)).trans (skipGap_cons rfl _)
    have all : ItemsAt Skips true _ vs r := itemsAt_printed r (fun v _ => startsItem_chars v)
      fun v hv u hu => (ih v hv (allItems_iff.1 hf v hv) hu).skips
    exact ⟨fun _ => all.skip hs, .array hs⟩
  | object ms ih =>
    have hs := (congrArg skipGap (chars_object_append ms r)).trans (skipGap_cons rfl _)
    have all : MembersAt Skips true _ ms r :=
      membersAt_printed r fun m hm u hu => (ih m hm (allMembers_iff.1 hf m hm) hu).skips
    exact ⟨fun _ => all.skip hs, .object hs⟩

end DeadLetters.Json
