import DeadLetters.Json.Numbers
import DeadLetters.Json.Printer

/-!
# Numerals that are read back

A numeral is read up to the first character that cannot belong to it.  So a well-formed numeral in
front of any other text is read as it was written, and an integer of 64 bits has its own value.

    numeral c (n.chars ++ r) = .ok (n, r)                                    (numeral_printed)
    (Numeral.ofInt i).evaluate r = .ok (.int i, r)                           (evaluate_ofInt)
-/

namespace DeadLetters.Json

/-! ## What ends a numeral -/

/-- A text that does not go on with a digit. -/
def EndsDigits (r : List Char) : Prop := ∀ c ∈ r.head?, c.isDigit = false

/-- A text that does not go on with a character of a numeral. -/
structure EndsNumeral (r : List Char) : Prop where
  digits : EndsDigits r
  point : r.head? ≠ some '.'
  exponent : ∀ c ∈ r.head?, ¬ (c = 'e' ∨ c = 'E')

theorem endsNumeral_nil : EndsNumeral [] := ⟨nofun, nofun, nofun⟩

theorem endsNumeral_cons {c : Char} (r : List Char) (h : c = ',' ∨ c = ']' ∨ c = '\x7d') :
    EndsNumeral (c :: r) := by
  rcases h with rfl | rfl | rfl <;>
    exact ⟨fun _ h => by cases h; rfl, by simp, fun _ h => by cases h; decide⟩

/-! ## Digits -/

theorem digitRun_append {ds r : List Char} (hd : ∀ c ∈ ds, c.isDigit = true)
    (hr : EndsDigits r) : digitRun (ds ++ r) = (ds, r) := by
  have ht : r.takeWhile Char.isDigit = [] := by
    cases r with
    | nil => rfl
    | cons c r => simp [hr c rfl]
  have hw : r.dropWhile Char.isDigit = r := by
    cases r with
    | nil => rfl
    | cons c r => simp [hr c rfl]
  rw [digitRun, List.takeWhile_append_of_pos hd, List.dropWhile_append_of_pos hd, ht, hw,
    List.append_nil]

theorem someDigits_append {e : Cause} {ds r : List Char} (hn : ds ≠ [])
    (hd : ∀ c ∈ ds, c.isDigit = true) (hr : EndsDigits r) :
    someDigits e (ds ++ r) = .ok (ds, r) := by
  cases ds with
  | nil => exact absurd rfl hn
  | cons c ds =>
    rw [List.cons_append, someDigits, if_pos (hd c (by simp)), ← List.cons_append,
      digitRun_append hd hr]

/-- Without a superfluous zero, the whole part ends where its digits end. -/
theorem wholePart_append {e : Cause} {ds r : List Char} (hn : ds ≠ [])
    (hd : ∀ c ∈ ds, c.isDigit = true) (hz : ds.head? = some '0' → ds = ['0'])
    (hr : EndsDigits r) : wholePart e (ds ++ r) = .ok (ds, r) := by
  cases ds with
  | nil => exact absurd rfl hn
  | cons c ds =>
    by_cases hc : c = '0'
    · subst hc
      obtain rfl : ds = [] := (List.cons.inj (hz rfl)).2
      cases r with
      | nil => rfl
      | cons d r =>
        show (if d.isDigit then _ else _ : Reading (List Char)) = _
        rw [hr d rfl]
        rfl
    · rw [List.cons_append, wholePart, if_pos (hd c (by simp)), ← List.cons_append,
        digitRun_append hd hr]
      rintro rfl
      exact hc rfl

/-! ## Numerals -/

/-- A fraction with its point; nothing if there are no digits. -/
def fractionChars (ds : List Char) : List Char := if ds = [] then [] else '.' :: ds

def exponentChars : Option (Bool × List Char) → List Char
  | none => []
  | some (negative, ds) => 'e' :: (if negative then '-' else '+') :: ds

namespace Numeral

def chars (n : Numeral) : List Char :=
  (if n.negative then ['-'] else []) ++
    (n.whole ++ (fractionChars n.fraction ++ exponentChars n.exponent))

/-- What can be read as a numeral. -/
structure WellFormed (n : Numeral) : Prop where
  whole_ne_nil : n.whole ≠ []
  whole : ∀ c ∈ n.whole, c.isDigit = true
  /-- There is no superfluous zero. -/
  zero : n.whole.head? = some '0' → n.whole = ['0']
  fraction : ∀ c ∈ n.fraction, c.isDigit = true
  exponent : ∀ x ∈ n.exponent, x.2 ≠ [] ∧ ∀ c ∈ x.2, c.isDigit = true

end Numeral

variable {e : Cause} {r : List Char}

theorem fractionPart_append {ds : List Char} (hd : ∀ c ∈ ds, c.isDigit = true)
    (hr : EndsDigits r) (hp : r.head? ≠ some '.') :
    fractionPart e (fractionChars ds ++ r) = .ok (ds, r) := by
  unfold fractionChars
  split
  · next h =>
    subst h
    rw [List.nil_append, fractionPart.eq_def]
    split
    · next s => exact absurd rfl hp
    · rfl
  · next h => exact someDigits_append h hd hr

theorem exponentPart_append {x : Option (Bool × List Char)}
    (hx : ∀ y ∈ x, y.2 ≠ [] ∧ ∀ c ∈ y.2, c.isDigit = true) (hr : EndsNumeral r) :
    exponentPart e (exponentChars x ++ r) = .ok (x, r) := by
  cases x with
  | none =>
    cases r with
    | nil => rfl
    | cons c r =>
      show (if c = 'e' ∨ c = 'E' then _ else _ : Reading (Option (Bool × List Char))) = _
      rw [if_neg (hr.exponent c rfl)]
  | some y =>
    obtain ⟨negative, ds⟩ := y
    obtain ⟨hn, hd⟩ := hx _ rfl
    have hread : ∀ f : List Char → Option (Bool × List Char),
        Reading.map f (someDigits e (ds ++ r)) = .ok (f ds, r) := by
      intro f
      rw [someDigits_append hn hd hr.digits]
      rfl
    cases negative
    · exact hread _
    · exact hread _

theorem endsDigits_fractionChars {ds : List Char} (h : EndsDigits r) :
    EndsDigits (fractionChars ds ++ r) := by
  unfold fractionChars
  split
  · exact h
  · exact fun c hc => by cases hc; rfl

theorem endsDigits_exponentChars {x : Option (Bool × List Char)} (h : EndsDigits r) :
    EndsDigits (exponentChars x ++ r) := by
  cases x with
  | none => exact h
  | some y => exact fun c hc => by cases hc; rfl

theorem head?_exponentChars {x : Option (Bool × List Char)} (h : r.head? ≠ some '.') :
    (exponentChars x ++ r).head? ≠ some '.' := by
  cases x with
  | none => exact h
  | some y => simp [exponentChars]

theorem magnitude_of_parts {negative : Bool} {s t u whole fraction : List Char}
    {exponent : Option (Bool × List Char)} (hw : wholePart e s = .ok (whole, t))
    (hf : fractionPart e t = .ok (fraction, u)) (hx : exponentPart e u = .ok (exponent, r)) :
    magnitude e negative s = .ok (⟨negative, whole, fraction, exponent⟩, r) := by
  rw [magnitude, hw]
  dsimp only
  rw [hf]
  dsimp only
  rw [hx]
  rfl

namespace Numeral.WellFormed

variable {n : Numeral} (h : n.WellFormed)

include h

theorem magnitude_append (hr : EndsNumeral r) :
    magnitude e n.negative
      (n.whole ++ (fractionChars n.fraction ++ (exponentChars n.exponent ++ r))) = .ok (n, r) := by
  have behind : EndsDigits (exponentChars n.exponent ++ r) := endsDigits_exponentChars hr.digits
  exact magnitude_of_parts
    (wholePart_append h.whole_ne_nil h.whole h.zero (endsDigits_fractionChars behind))
    (fractionPart_append h.fraction behind (head?_exponentChars hr.point))
    (exponentPart_append h.exponent hr)

/-- What is not signed starts with a digit. -/
theorem exists_whole : ∃ c s, n.whole = c :: s ∧ c.isDigit = true := by
  cases hw : n.whole with
  | nil => exact absurd hw h.whole_ne_nil
  | cons c s => exact ⟨c, s, rfl, h.whole c (by simp [hw])⟩

end Numeral.WellFormed

theorem numeral_printed {n : Numeral} (h : n.WellFormed) (hr : EndsNumeral r) :
    numeral e (n.chars ++ r) = .ok (n, r) := by
  have hread := h.magnitude_append (e := e) hr
  simp only [Numeral.chars, List.append_assoc]
  cases hn : n.negative with
  | true =>
    rw [hn] at hread
    exact hread
  | false =>
    obtain ⟨c, s, hw, hc⟩ := h.exists_whole
    rw [hn, hw] at hread
    rw [hw, if_neg (by simp), List.nil_append]
    rw [List.cons_append] at hread ⊢
    rw [numeral]
    · exact hread
    · rintro t ht
      rw [(List.cons.inj ht).1] at hc
      cases hc

/-! ## Integers -/

theorem head?_toDigits {n : Nat} (h : (Nat.toDigits 10 n).head? = some '0') :
    Nat.toDigits 10 n = ['0'] := by
  induction n using Nat.strongRecOn with
  | _ n ih =>
    rw [Nat.toDigits_eq_if (by decide)] at h ⊢
    split
    · next hn =>
      rw [if_pos hn] at h
      simpa using h
    · next hn =>
      rw [if_neg hn] at h
      cases hd : Nat.toDigits 10 (n / 10) with
      | nil => exact absurd hd Nat.toDigits_ne_nil
      | cons c s =>
        rw [hd, List.cons_append, List.head?_cons, Option.some.injEq] at h
        have hz := ih (n / 10) (by omega) (by rw [hd, h]; rfl)
        -- a quotient that is written `0` is zero
        have hq := Nat.ofDigitChars_ten_toDigits (n := n / 10)
        rw [hz] at hq
        have : Nat.ofDigitChars 10 ['0'] 0 = 0 := by decide
        omega

def Numeral.ofInt (i : Int) : Numeral := ⟨decide (i < 0), Nat.toDigits 10 i.natAbs, [], none⟩

theorem Numeral.chars_ofInt (i : Int) : (ofInt i).chars = intChars i := by
  by_cases h : i < 0 <;> simp [chars, ofInt, intChars, fractionChars, exponentChars, h]

theorem Numeral.wellFormed_ofInt (i : Int) : (ofInt i).WellFormed where
  whole_ne_nil := Nat.toDigits_ne_nil
  whole _ hc := Nat.isDigit_of_mem_toDigits (by decide) (by decide) hc
  zero := head?_toDigits
  fraction := nofun
  exponent := nofun

/-- All digits are appended to a significand that they do not fill. -/
theorem absorb_eq {ds : List Char} {n : Nat} (h : Nat.ofDigitChars 10 ds n < UInt64.size) :
    absorb n ds = (Nat.ofDigitChars 10 ds n, ds.length) := by
  induction ds generalizing n with
  | nil => rfl
  | cons d ds ih =>
    have hcons : Nat.ofDigitChars 10 (d :: ds) n =
        Nat.ofDigitChars 10 ds (n * 10 + (d.toNat - '0'.toNat)) := by
      rw [Nat.ofDigitChars_cons, Nat.mul_comm]
    have hle : n * 10 + (d.toNat - '0'.toNat) ≤
        Nat.ofDigitChars 10 ds (n * 10 + (d.toNat - '0'.toNat)) := by
      rw [Nat.ofDigitChars_eq_ofDigitChars_zero]
      have hpow : 0 < 10 ^ ds.length := Nat.pow_pos (by decide)
      exact Nat.le_trans (Nat.le_mul_of_pos_left _ hpow) (Nat.le_add_right _ _)
    rw [hcons] at h ⊢
    rw [absorb]
    dsimp only
    rw [if_pos (by omega), ih h]
    rfl

/-- The integers that are read as such: those of 64 bits, with or without sign. -/
def Fits (i : Int) : Prop := -(UInt64.size / 2 : Nat) ≤ i ∧ i < UInt64.size

instance (i : Int) : Decidable (Fits i) := inferInstanceAs (Decidable (_ ∧ _))

theorem evaluate_ofInt {i : Int} (h : Fits i) (r : List Char) :
    (Numeral.ofInt i).evaluate r = .ok (.int i, r) := by
  have habs : absorb 0 (Nat.toDigits 10 i.natAbs) =
      (i.natAbs, (Nat.toDigits 10 i.natAbs).length) := by
    have hlt : i.natAbs < UInt64.size := by
      have := h.1
      have := h.2
      simp only [UInt64.size] at *
      omega
    rw [absorb_eq (by rw [Nat.ofDigitChars_ten_toDigits]; exact hlt), Nat.ofDigitChars_ten_toDigits]
  by_cases hi : i < 0
  · have hlow : 1 ≤ i.natAbs ∧ i.natAbs ≤ UInt64.size / 2 := by
      have := h.1
      omega
    have hneg : -(i.natAbs : Int) = i := by omega
    simp only [Numeral.evaluate, Numeral.ofInt, hi, decide_true, ne_eq, not_true_eq_false, habs,
      Nat.sub_self, or_self, ↓reduceIte, Bool.not_true, Bool.false_eq_true, hlow, and_self, hneg]
  · have hpos : (i.natAbs : Int) = i := by omega
    simp only [Numeral.evaluate, Numeral.ofInt, hi, decide_false, ne_eq, not_true_eq_false, habs,
      Nat.sub_self, or_self, ↓reduceIte, Bool.not_false, hpos]

def Numeral.IsFloat (n : Numeral) : Prop := n.fraction ≠ [] ∨ n.exponent.isSome = true

theorem absorb_lt {n : Nat} (h : n < UInt64.size) (ds : List Char) :
    (absorb n ds).1 < UInt64.size := by
  induction ds generalizing n with
  | nil => exact h
  | cons d ds ih =>
    rw [absorb]
    dsimp only
    split
    · next hd => exact ih hd
    · exact h

theorem signedDouble_float {negative : Bool} {significand : Nat} {e : Int} {x : Number}
    (h : signedDouble negative significand e = some x) : ∃ y, x = .float y := by
  obtain ⟨y, -, rfl⟩ := Option.map_eq_some_iff.1 h
  exact ⟨_, rfl⟩

/-- The number of a numeral is a double, or an integer of 64 bits that is written as one. -/
theorem evaluate_cases {n : Numeral} {s : List Char} {x : Number}
    (h : n.evaluate s = .ok (x, r)) :
    (∃ y, x = .float y) ∨ ∃ i, x = .int i ∧ Fits i ∧ ¬ n.IsFloat := by
  have hw := absorb_lt (n := 0) (by decide) n.whole
  unfold Numeral.evaluate at h
  dsimp only at h
  split at h
  · split at h
    · split at h
      · simp [stopped] at h
      · simp only [Except.ok.injEq, Prod.mk.injEq] at h
        exact .inl ⟨_, h.1.symm⟩
    · split at h
      · next hd =>
        obtain ⟨rfl, -⟩ := Prod.mk.inj (Except.ok.inj h)
        exact .inl (signedDouble_float hd)
      · cases h
  · next hn =>
    split at h
    · split at h
      · next hd =>
        obtain ⟨rfl, -⟩ := Prod.mk.inj (Except.ok.inj h)
        exact .inl (signedDouble_float hd)
      · cases h
    · next hf =>
      have hint : ¬ n.IsFloat := fun hfl => hfl.elim (fun h => hf (.inl h)) (by simp [hn])
      repeat' split at h
      all_goals
        simp only [Except.ok.injEq, Prod.mk.injEq] at h
        obtain ⟨rfl, -⟩ := h
      · refine .inr ⟨_, rfl, ?_, hint⟩
        simp only [Fits, UInt64.size] at *
        omega
      · refine .inr ⟨_, rfl, ?_, hint⟩
        simp only [Fits, UInt64.size] at *
        omega
      · exact .inl ⟨_, rfl⟩

/-! ## Skipping -/

theorem someDigits_cause {e' : Cause} {s ds : List Char} (h : someDigits e s = .ok (ds, r)) :
    someDigits e' s = .ok (ds, r) := by
  cases s with
  | nil => simp [someDigits, stopped] at h
  | cons c s => exact h

theorem fractionPart_cause {e' : Cause} {s ds : List Char} (h : fractionPart e s = .ok (ds, r)) :
    fractionPart e' s = .ok (ds, r) := by
  unfold fractionPart at h ⊢
  split at h
  · exact someDigits_cause h
  · exact h

theorem wholePart_cause {e' : Cause} {s ds : List Char} (h : wholePart e s = .ok (ds, r)) :
    wholePart e' s = .ok (ds, r) := by
  unfold wholePart at h ⊢
  split at h
  · simp [stopped] at h
  · exact h
  · exact h

theorem exponentPart_cause {e' : Cause} {s : List Char} {x : Option (Bool × List Char)}
    (h : exponentPart e s = .ok (x, r)) : exponentPart e' s = .ok (x, r) := by
  have mapped : ∀ {t : List Char} {f : List Char → Option (Bool × List Char)},
      (someDigits e t).map f = .ok (x, r) → (someDigits e' t).map f = .ok (x, r) := by
    intro t f hm
    obtain ⟨ds, hd, rfl⟩ := Reading.map_eq_ok hm
    rw [someDigits_cause hd]
    rfl
  unfold exponentPart at h ⊢
  split at h
  · exact h
  · split at h
    · next hs =>
      rw [if_pos hs]
      split at h <;> exact mapped h
    · next hs =>
      rw [if_neg hs]
      exact h

/-- The causes of faults aside, it does not matter who reads a numeral. -/
theorem numeral_cause {e' : Cause} {s : List Char} {n : Numeral} (h : numeral e s = .ok (n, r)) :
    numeral e' s = .ok (n, r) := by
  have read : ∀ {negative : Bool} {t : List Char}, magnitude e negative t = .ok (n, r) →
      magnitude e' negative t = .ok (n, r) := by
    intro negative t hm
    unfold magnitude at hm
    split at hm
    · simp at hm
    · next hw =>
      split at hm
      · simp at hm
      · next hf =>
        obtain ⟨x, hx, rfl⟩ := Reading.map_eq_ok hm
        exact magnitude_of_parts (wholePart_cause hw) (fractionPart_cause hf)
          (exponentPart_cause hx)
  unfold numeral at h ⊢
  split at h <;> exact read h

/-- A number that can be read can be skipped. -/
theorem numeral_of_numberText {s : List Char} {x : Number} (h : numberText s = .ok (x, r)) :
    ∃ n, numeral e s = .ok (n, r) := by
  unfold numberText at h
  split at h
  · simp at h
  · next n t hn =>
    obtain rfl := rest_evaluate h
    exact ⟨n, numeral_cause hn⟩

end DeadLetters.Json
