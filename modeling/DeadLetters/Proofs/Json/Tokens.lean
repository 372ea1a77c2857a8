import DeadLetters.Json.MergePatch
import DeadLetters.Proofs.Json.Spelling

/-!
# Tokens of printed values

Whoever reads documents more freely than JSON allows still reads the text of a value as it is meant:
its strings, numbers and words each make the token that holds their own spelling.

    tokens (printed string ++ r) = .string … :: tokens r                           (tokens_string)
    tokens (printed number ++ r) = .scalar … :: tokens r                           (tokens_number)
    escapes that are written need no rewriting                              (plainString_escaped)
-/

namespace DeadLetters.Json

/-! ## Where tokens begin and end -/

theorem skipLoose_cons {c : Char} (hb : isLooseBlank c = false) (hs : c ≠ '/') (s : List Char) :
    skipLoose (c :: s) = c :: s := by
  rw [skipLoose.eq_def]
  split
  · next heq => exact absurd (List.cons.inj heq).1 hs
  · next heq => exact absurd (List.cons.inj heq).1 hs
  · next heq =>
    obtain ⟨rfl, rfl⟩ := List.cons.inj heq
    simp [hb]
  · next heq => cases heq

theorem tokens_cons {c : Char} (hb : isLooseBlank c = false) (hs : c ≠ '/') (s : List Char) :
    tokens (c :: s) = (firstToken c s).1 :: tokens (firstToken c s).2 := by
  rw [tokens]
  split
  · next h =>
    rw [skipLoose_cons hb hs] at h
    cases h
  · next h =>
    rw [skipLoose_cons hb hs] at h
    obtain ⟨rfl, rfl⟩ := List.cons.inj h
    rfl

@[simp] theorem tokens_nil : tokens [] = [] := by
  rw [tokens]
  split
  · rfl
  · next h => simp [skipLoose] at h

/-- A text that does not go on with a value. -/
def EndsToken (r : List Char) : Prop := ∀ c ∈ r.head?, c = ',' ∨ c = ']' ∨ c = '\x7d'

theorem endsToken_nil : EndsToken [] := nofun

theorem endsToken_cons {c : Char} (r : List Char) (h : c = ',' ∨ c = ']' ∨ c = '\x7d') :
    EndsToken (c :: r) := by
  rintro d hd
  cases hd
  exact h

theorem EndsToken.endsNumeral {r : List Char} (h : EndsToken r) : EndsNumeral r := by
  cases r with
  | nil => exact endsNumeral_nil
  | cons c r => exact endsNumeral_cons r (h c rfl)

/-! Single characters. -/

theorem tokens_comma (r : List Char) : tokens (',' :: r) = .comma :: tokens r :=
  tokens_cons (by decide) (by decide) r

theorem tokens_colon (r : List Char) : tokens (':' :: r) = .colon :: tokens r :=
  tokens_cons (by decide) (by decide) r

theorem tokens_openArray (r : List Char) : tokens ('[' :: r) = .openArray :: tokens r :=
  tokens_cons (by decide) (by decide) r

theorem tokens_closeArray (r : List Char) : tokens (']' :: r) = .closeArray :: tokens r :=
  tokens_cons (by decide) (by decide) r

theorem tokens_openObject (r : List Char) : tokens ('\x7b' :: r) = .openObject :: tokens r :=
  tokens_cons (by decide) (by decide) r

theorem tokens_closeObject (r : List Char) : tokens ('\x7d' :: r) = .closeObject :: tokens r :=
  tokens_cons (by decide) (by decide) r

/-! ## Strings -/

/-- A character that stands for itself inside a string. -/
structure IsPlain (c : Char) : Prop where
  quote : c ≠ '"'
  backslash : c ≠ '\\'
  control : ¬ c.toNat < 0x20

theorem looseString_plain {c : Char} (h : IsPlain c) (s : List Char) :
    looseString '"' (c :: s) = (looseString '"' s).map fun p => (c :: p.1, p.2) := by
  rw [looseString.eq_def]
  split
  · next heq => exact absurd (List.cons.inj heq).1 h.backslash
  · next heq => exact absurd (List.cons.inj heq).1 h.backslash
  · next heq =>
    obtain ⟨rfl, rfl⟩ := List.cons.inj heq
    rw [if_neg h.quote, if_neg (not_or.2 ⟨h.backslash, h.control⟩)]
  · next heq => cases heq

theorem looseString_escape {c : Char} {s : List Char} (hc : c ≠ '\r')
    (h : makesEscape c s = true) :
    looseString '"' ('\\' :: c :: s) = (looseString '"' s).map fun p => ('\\' :: c :: p.1, p.2) := by
  rw [looseString.eq_def]
  split
  · next heq => exact absurd (List.cons.inj (List.cons.inj heq).2).1 hc
  · next heq =>
    obtain ⟨rfl, rfl⟩ := List.cons.inj (List.cons.inj heq).2
    rw [if_pos h]
  · next hn heq =>
    obtain ⟨rfl, rfl⟩ := List.cons.inj heq
    exact absurd rfl (hn c s rfl)
  · next heq => cases heq

theorem plainBody_plain {c : Char} (h : c ≠ '\\') (s : List Char) :
    plainBody (c :: s) = c :: plainBody s := by
  rw [plainBody.eq_def]
  split
  · next heq => exact absurd (List.cons.inj heq).1 h
  · next heq => exact absurd (List.cons.inj heq).1 h
  · next heq => exact absurd (List.cons.inj heq).1 h
  · next heq =>
    obtain ⟨rfl, rfl⟩ := List.cons.inj heq
    rfl
  · next heq => cases heq

def escapeLetters : List Char := ['"', '\\', 'b', 'f', 'n', 'r', 't']

/-- How a character is written: by a letter, by hexadecimal digits, or as itself. -/
inductive Escaped (c : Char) : Prop
  | letter (l : Char) (hl : l ∈ escapeLetters) (h : escaped c = ['\\', l])
  | unit (a b : Char) (ha : isHexDigit a = true ∧ IsPlain a) (hb : isHexDigit b = true ∧ IsPlain b)
      (h : escaped c = ['\\', 'u', '0', '0', a, b])
  | plain (hc : IsPlain c) (h : escaped c = [c])

theorem escapeLetter?_mem {c l : Char} (h : escapeLetter? c = some l) : l ∈ escapeLetters := by
  unfold escapeLetter? at h
  repeat' split at h
  all_goals
    first
    | cases h
      decide
    | cases h

theorem hexDigit_digitChar : ∀ d, d < 16 →
    isHexDigit (Nat.digitChar d) = true ∧ Nat.digitChar d ≠ '"' ∧ Nat.digitChar d ≠ '\\' ∧
      ¬ (Nat.digitChar d).toNat < 0x20 := by
  decide

theorem escaped_cases (c : Char) : Escaped c := by
  cases hl : escapeLetter? c with
  | some l => exact .letter l (escapeLetter?_mem hl) (by rw [escaped, hl])
  | none =>
    by_cases hc : c.toNat < 0x20
    · have ha := hexDigit_digitChar (c.toNat / 16) (by omega)
      have hb := hexDigit_digitChar (c.toNat % 16) (by omega)
      refine .unit _ _ ⟨ha.1, ha.2.1, ha.2.2.1, ha.2.2.2⟩ ⟨hb.1, hb.2.1, hb.2.2.1, hb.2.2.2⟩ ?_
      simp only [escaped, hl, if_pos hc]
    · refine .plain ⟨?_, ?_, hc⟩ (by simp only [escaped, hl, if_neg hc])
      · rintro rfl
        simp [escapeLetter?] at hl
      · rintro rfl
        simp [escapeLetter?] at hl

theorem looseString_escaped (c : Char) (s : List Char) :
    looseString '"' (escaped c ++ s) =
      (looseString '"' s).map fun p => (escaped c ++ p.1, p.2) := by
  cases escaped_cases c with
  | letter l hl h =>
    have hletters : escapeLetters.all (fun l => l ≠ '\r' ∧ looseEscapes.contains l) = true := by
      decide
    have hletter : l ≠ '\r' ∧ looseEscapes.contains l = true :=
      of_decide_eq_true (List.all_eq_true.1 hletters l hl)
    rw [h]
    refine (looseString_escape hletter.1 ?_)
    rw [makesEscape, hletter.2]
    rfl
  | unit a b ha hb h =>
    have hzero : IsPlain '0' := ⟨by decide, by decide, by decide⟩
    have hu : makesEscape 'u' ('0' :: '0' :: a :: b :: s) = true := by
      simp [makesEscape, startsHex, ha.1, hb.1, show isHexDigit '0' = true by decide]
    rw [h]
    refine (looseString_escape (by decide) hu).trans ?_
    rw [looseString_plain hzero, looseString_plain hzero, looseString_plain ha.2,
      looseString_plain hb.2]
    cases looseString '"' s <;> rfl
  | plain hc h =>
    rw [h]
    exact looseString_plain hc s

theorem looseString_printed (cs r : List Char) :
    looseString '"' (cs.flatMap escaped ++ '"' :: r) = some (cs.flatMap escaped, r) := by
  induction cs with
  | nil => simp [looseString]
  | cons c cs ih =>
    rw [List.flatMap_cons, List.append_assoc, looseString_escaped, ih]
    rfl

theorem tokens_string (cs r : List Char) :
    tokens ('"' :: (cs.flatMap escaped ++ '"' :: r)) =
      .string '"' (cs.flatMap escaped) :: tokens r := by
  rw [tokens_cons (by decide) (by decide)]
  simp [firstToken, looseString_printed]

theorem plainBody_escaped (c : Char) (s : List Char) :
    plainBody (escaped c ++ s) = escaped c ++ plainBody s := by
  cases escaped_cases c with
  | letter l hl h =>
    rw [h]
    simp only [escapeLetters, List.mem_cons, List.not_mem_nil, or_false] at hl
    rcases hl with rfl | rfl | rfl | rfl | rfl | rfl | rfl <;> simp [plainBody, endsLine]
  | unit a b ha hb h =>
    rw [h]
    show plainBody ('\\' :: 'u' :: '0' :: '0' :: a :: b :: s) = _
    rw [show plainBody ('\\' :: 'u' :: '0' :: '0' :: a :: b :: s) =
      '\\' :: 'u' :: plainBody ('0' :: '0' :: a :: b :: s) by simp [plainBody, endsLine],
      plainBody_plain (by decide), plainBody_plain (by decide), plainBody_plain ha.2.backslash,
      plainBody_plain hb.2.backslash]
    rfl
  | plain hc h =>
    rw [h]
    exact plainBody_plain hc.backslash s

theorem plainBody_printed (cs : List Char) : plainBody (cs.flatMap escaped) = cs.flatMap escaped := by
  induction cs with
  | nil => rfl
  | cons c cs ih => rw [List.flatMap_cons, plainBody_escaped, ih]

/-- A string that was written is in the spelling of JSON already. -/
theorem plainString_escaped (t : String) :
    plainString (t.toList.flatMap escaped) = stringChars t := by
  rw [plainString, plainBody_printed, stringChars]

/-! ## Numbers -/

theorem endNumber_of_ends {r : List Char} (hr : EndsNumeral r) (spelling : List Char) :
    endNumber spelling r = some (spelling, r) := by
  cases r with
  | nil => rfl
  | cons c r =>
    have hp : c ≠ '.' := fun hc => hr.point (by rw [hc]; rfl)
    have he := not_or.1 (hr.exponent c rfl)
    simp [endNumber, isPointOrExponent, hp, he.1, he.2]

theorem looseExponent_append {x : Option (Bool × List Char)} {r : List Char}
    (hx : ∀ y ∈ x, y.2 ≠ [] ∧ ∀ c ∈ y.2, c.isDigit = true) (hr : EndsNumeral r)
    (spelling : List Char) :
    looseExponent spelling (exponentChars x ++ r) = some (spelling ++ exponentChars x, r) := by
  cases x with
  | none =>
    have hend := endNumber_of_ends hr spelling
    rw [exponentChars, List.nil_append, List.append_nil]
    cases r with
    | nil => exact hend
    | cons c r => rw [looseExponent, if_neg (hr.exponent c rfl), hend]
  | some y =>
    obtain ⟨negative, ds⟩ := y
    obtain ⟨hne, hds⟩ := hx _ rfl
    obtain ⟨sign, hsign, hpm⟩ : ∃ sign, (if negative then '-' else '+') = sign ∧
        (sign = '-' ∨ sign = '+') := by cases negative <;> simp
    have hexponent : exponentSign (sign :: (ds ++ r)) = [sign] := by
      rcases hpm with rfl | rfl <;> rfl
    have hrun := Prod.mk.inj (digitRun_append hds hr.digits)
    rw [exponentChars, hsign, List.cons_append, List.cons_append, looseExponent,
      if_pos (.inl rfl), hexponent]
    simp only [List.length_singleton, List.drop_succ_cons, List.drop_zero]
    rw [hrun.1, hrun.2, if_neg hne, endNumber_of_ends hr]
    simp

theorem orZero_of_ne_nil {ds : List Char} (h : ds ≠ []) : orZero ds = ds := if_neg h

variable {n : Numeral} {r : List Char}

/-- The characters behind the whole part of a numeral. -/
theorem endsDigits_tail (hr : EndsNumeral r) :
    EndsDigits (fractionChars n.fraction ++ (exponentChars n.exponent ++ r)) :=
  endsDigits_fractionChars (endsDigits_exponentChars hr.digits)

theorem looseDecimal_append (h : n.WellFormed) (hr : EndsNumeral r) :
    looseDecimal (n.whole ++ (fractionChars n.fraction ++ (exponentChars n.exponent ++ r))) =
      some (n.whole ++ (fractionChars n.fraction ++ exponentChars n.exponent), r) := by
  have hrun := Prod.mk.inj (digitRun_append h.whole (endsDigits_tail (n := n) hr))
  have hzero : ¬ (1 < n.whole.length ∧ n.whole.head? = some '0') := by
    rintro ⟨hlen, hz⟩
    rw [h.zero hz] at hlen
    exact absurd hlen (by decide)
  rw [looseDecimal, hrun.1, hrun.2, if_neg hzero]
  by_cases hf : n.fraction = []
  · -- no point: what comes next belongs to the exponent or ends the number
    have hpoint : (exponentChars n.exponent ++ r).head? ≠ some '.' := head?_exponentChars hr.point
    rw [hf, fractionChars, if_pos rfl, List.nil_append, List.nil_append]
    split
    · next t ht =>
      rw [ht] at hpoint
      exact absurd rfl hpoint
    · rw [if_neg h.whole_ne_nil, looseExponent_append h.exponent hr]
  · have hfraction := Prod.mk.inj (digitRun_append h.fraction
      (endsDigits_exponentChars (x := n.exponent) hr.digits))
    rw [fractionChars, if_neg hf, List.cons_append]
    simp only [hfraction.1, hfraction.2, if_neg fun hc : n.whole = [] ∧ n.fraction = [] => hf hc.2]
    rw [looseExponent_append h.exponent hr, orZero_of_ne_nil h.whole_ne_nil, orZero_of_ne_nil hf]
    simp

/-- Behind the whole part comes a point, an exponent or the end of the token, and no `x`. -/
theorem not_hex_tail (hr : EndsToken r) :
    ∀ c ∈ (fractionChars n.fraction ++ (exponentChars n.exponent ++ r)).head?,
      ¬ (c = 'x' ∨ c = 'X') := by
  intro c hc
  rw [fractionChars] at hc
  split at hc
  · cases hx : n.exponent with
    | none =>
      rw [hx, exponentChars, List.nil_append, List.nil_append] at hc
      rcases hr c hc with rfl | rfl | rfl <;> decide
    | some y =>
      rw [hx] at hc
      cases hc
      decide
  · cases hc
    decide

theorem looseMagnitude_append (h : n.WellFormed) (hr : EndsToken r) :
    looseMagnitude (n.whole ++ (fractionChars n.fraction ++ (exponentChars n.exponent ++ r))) =
      some (n.whole ++ (fractionChars n.fraction ++ exponentChars n.exponent), r) := by
  rw [← looseDecimal_append h hr.endsNumeral, looseMagnitude.eq_def]
  split
  · next x t heq =>
    -- a leading zero is the whole part, so that `x` comes from behind it
    have hzero : n.whole = ['0'] := by
      refine h.zero ?_
      obtain ⟨c, s, hw, -⟩ := h.exists_whole
      rw [hw] at heq ⊢
      rw [(List.cons.inj heq).1]
      rfl
    have hx : ¬ (x = 'x' ∨ x = 'X') := by
      rw [hzero] at heq
      refine not_hex_tail (n := n) hr x ?_
      rw [List.singleton_append] at heq
      rw [(List.cons.inj heq).2]
      rfl
    rw [if_neg fun hc => hx hc.1]
  · rfl

theorem toLower_of_isDigit {c : Char} (h : c.isDigit = true) : c.toLower = c := by
  simp only [Char.isDigit, Bool.and_eq_true, decide_eq_true_eq] at h
  refine dif_neg ?_
  rintro ⟨hle, -⟩
  exact absurd (UInt32.le_trans hle h.2) (by decide)

/-- No digit starts a word for infinity. -/
theorem not_isPrefixOf_lowerWord {c : Char} (hc : c.isDigit = true) (s : List Char)
    {word : List Char} (hw : word.head? = some 'i') :
    ¬ word.isPrefixOf (lowerWord (c :: s)) = true := by
  have hne : c ≠ 'i' := by
    rintro rfl
    cases hc
  obtain ⟨word', rfl⟩ := List.head?_eq_some_iff.1 hw
  rw [lowerWord, List.takeWhile_cons]
  split
  · simp [List.isPrefixOf, toLower_of_isDigit hc, Ne.symm hne]
  · exact Bool.false_ne_true

theorem signedNumber_of_digit {c : Char} (hc : c.isDigit = true) (sign s : List Char) :
    signedNumber sign (c :: s) = (looseMagnitude (c :: s)).map fun p => (sign ++ p.1, p.2) := by
  rw [signedNumber, if_neg (not_isPrefixOf_lowerWord hc s rfl),
    if_neg (not_isPrefixOf_lowerWord hc s rfl)]

theorem looseNumber_of_digit {c : Char} (hc : c.isDigit = true) (s : List Char) :
    looseNumber (c :: s) = looseMagnitude (c :: s) := by
  rw [looseNumber]
  · rintro _ heq
    obtain ⟨rfl, -⟩ := List.cons.inj heq
    cases hc
  · rintro _ heq
    obtain ⟨rfl, -⟩ := List.cons.inj heq
    cases hc

theorem looseNumber_append (h : n.WellFormed) (hr : EndsToken r) :
    looseNumber (n.chars ++ r) = some (n.chars, r) := by
  obtain ⟨c, s, hw, hc⟩ := h.exists_whole
  have hmagnitude := looseMagnitude_append h hr
  have hchars : n.chars ++ r = (if n.negative then ['-'] else []) ++
      (n.whole ++ (fractionChars n.fraction ++ (exponentChars n.exponent ++ r))) := by
    simp [Numeral.chars]
  rw [hchars, Numeral.chars]
  rw [hw, List.cons_append] at hmagnitude
  rw [hw, List.cons_append]
  cases n.negative with
  | true => exact (signedNumber_of_digit hc ['-'] _).trans (congrArg _ hmagnitude)
  | false => exact (looseNumber_of_digit hc _).trans hmagnitude

/-- What starts a number is no blank and no bracket. -/
theorem StartsNumber.firstToken {c : Char} (h : StartsNumber c) (s : List Char) :
    tokens (c :: s) = match looseNumber (c :: s) with
      | some (spelling, r) => .scalar spelling :: tokens r
      | none => .junk :: tokens [] := by
  have hdigits : ∀ k, k < 58 → 48 ≤ k → isLooseBlank (Char.ofNat k) = false ∧
      Char.ofNat k ∉ ['/', '[', ']', '\x7b', '\x7d', ',', ':', '"', '\''] := by decide
  have hc : isLooseBlank c = false ∧ c ∉ ['/', '[', ']', '\x7b', '\x7d', ',', ':', '"', '\''] := by
    rcases h with rfl | h
    · decide
    · rw [← Char.ofNat_toNat c]
      simp only [Char.isDigit, Bool.and_eq_true, decide_eq_true_eq] at h
      exact hdigits _ (Nat.lt_succ_of_le (UInt32.le_iff_toNat_le.1 h.2)) (UInt32.le_iff_toNat_le.1 h.1)
  simp only [List.mem_cons, List.not_mem_nil, or_false, not_or] at hc
  obtain ⟨hb, h₁, h₂, h₃, h₄, h₅, h₆, h₇, h₈, h₉⟩ := hc
  have hn : c.isDigit = true ∨ c = '+' ∨ c = '-' ∨ c = '.' := by
    rcases h with rfl | h
    · exact .inr (.inr (.inl rfl))
    · exact .inl h
  rw [tokens_cons hb h₁, Json.firstToken, if_neg h₂, if_neg h₃, if_neg h₄, if_neg h₅, if_neg h₆,
    if_neg h₇, if_neg (not_or.2 ⟨h₈, h₉⟩), if_pos hn]
  cases looseNumber (c :: s) <;> rfl

theorem tokens_number (x : Number) {r : List Char} (hr : EndsToken r) :
    tokens (x.chars ++ r) = .scalar x.chars :: tokens r := by
  obtain ⟨c, s, hs, hc⟩ := x.wellFormed_numeral.exists_chars
  have hread := looseNumber_append x.wellFormed_numeral hr
  rw [x.chars_numeral] at hs hread
  rw [hs, List.cons_append, hc.firstToken, ← List.cons_append, ← hs, hread]

/-! ## Words -/

/-- A word that ends where a token ends. -/
theorem wordOrName_append {word : List Char} {t : Token} (hw : word.all Char.isAlphanum = true)
    (ht : wordToken? word = some t) {r : List Char} (hr : EndsToken r) :
    wordOrName (word ++ r) = (t, r) := by
  have hall : ∀ c ∈ word, c.isAlphanum = true := List.all_eq_true.1 hw
  have hstop : ∀ c ∈ r.head?, c.isAlphanum = false := by
    intro c hc
    rcases hr c hc with rfl | rfl | rfl <;> decide
  have htake : r.takeWhile Char.isAlphanum = [] := by
    cases r with
    | nil => rfl
    | cons c r => simp [hstop c rfl]
  have hdrop : r.dropWhile Char.isAlphanum = r := by
    cases r with
    | nil => rfl
    | cons c r => simp [hstop c rfl]
  rw [wordOrName, List.takeWhile_append_of_pos hall, List.dropWhile_append_of_pos hall, htake, hdrop,
    List.append_nil, ht]

theorem tokens_null {r : List Char} (hr : EndsToken r) :
    tokens ('n' :: 'u' :: 'l' :: 'l' :: r) = .null :: tokens r := by
  have hword : wordOrName (['n', 'u', 'l', 'l'] ++ r) = (.null, r) :=
    wordOrName_append (by decide) (by rfl) hr
  rw [tokens_cons (by decide) (by decide)]
  show (wordOrName (['n', 'u', 'l', 'l'] ++ r)).1 :: tokens (wordOrName (['n', 'u', 'l', 'l'] ++ r)).2 = _
  rw [hword]

theorem tokens_bool (b : Bool) {r : List Char} (hr : EndsToken r) :
    tokens ((Value.bool b).chars ++ r) = .scalar (Value.bool b).chars :: tokens r := by
  have hword : wordOrName ((Value.bool b).chars ++ r) = (.scalar (Value.bool b).chars, r) := by
    cases b <;> exact wordOrName_append (by decide) (by rfl) hr
  cases b with
  | true =>
    refine (tokens_cons (c := 't') (by decide) (by decide) _).trans ?_
    exact congrArg (fun p => p.1 :: tokens p.2) hword
  | false =>
    refine (tokens_cons (c := 'f') (by decide) (by decide) _).trans ?_
    exact congrArg (fun p => p.1 :: tokens p.2) hword

end DeadLetters.Json
