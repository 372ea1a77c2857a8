import DeadLetters.Json.Printer
import DeadLetters.Json.Parser
import DeadLetters.Json.Skip

/-!
# Strings that are read back

Every character that is written is read back as itself, whatever comes behind it, and what can be
read as a string can be skipped as one.

    stringTail.run (t.toList.flatMap escaped ++ '"' :: r) = .ok (t, r)       (stringTail_printed)
    stringBody s = .ok (cs, r) → skipString s = .ok ((), r)           (skipString_of_stringBody)
-/

namespace DeadLetters.Json

theorem Reading.map_ok {α β : Type} (f : α → β) (a : α) (r : List Char) :
    Reading.map f (.ok (a, r)) = .ok (f a, r) := rfl

/-! ## One character -/

theorem stringBody_quote (r : List Char) : stringBody ('"' :: r) = .ok ([], r) := by
  rw [stringBody]

theorem stringBody_backslash {s t : List Char} {c : Char} (h : escape s = .ok (c, t)) :
    stringBody ('\\' :: s) = (stringBody t).map (c :: ·) := by
  rw [stringBody]
  split
  · next hf => simp [h] at hf
  · next hf =>
    rw [h, Except.ok.injEq, Prod.mk.injEq] at hf
    rw [hf.1, hf.2]

theorem stringBody_plain {c : Char} (hq : c ≠ '"') (hb : c ≠ '\\') (hc : ¬ c.toNat < 0x20)
    (s : List Char) : stringBody (c :: s) = (stringBody s).map (c :: ·) := by
  rw [stringBody.eq_def]
  split
  · contradiction
  · simp_all
  · simp_all
  · next heq =>
    obtain ⟨rfl, rfl⟩ := List.cons.inj heq
    rw [if_neg hc]

theorem hexDigit?_digitChar_all : ∀ d, d < 16 → Text.hexDigit? (Nat.digitChar d) = some d := by
  decide

/-- The unit that stands for a control character. -/
theorem hexUnit_control {n : Nat} (h : n < 0x20) (r : List Char) :
    hexUnit ('0' :: '0' :: Nat.digitChar (n / 16) :: Nat.digitChar (n % 16) :: r) = .ok (n, r) := by
  have h0 : Text.hexDigit? '0' = some 0 := by decide
  have h1 := hexDigit?_digitChar_all (n / 16) (by omega)
  have h2 := hexDigit?_digitChar_all (n % 16) (by omega)
  have hn : ((0 * 16 + 0) * 16 + n / 16) * 16 + n % 16 = n := by omega
  simp only [hexUnit, hexUnit?, h0, h1, h2, Option.bind_eq_bind, Option.bind_some, Option.pure_def,
    hn]

theorem escape_letter {c l : Char} (h : escapeLetter? c = some l) (r : List Char) :
    escape (l :: r) = .ok (c, r) := by
  unfold escapeLetter? at h
  repeat' split at h
  all_goals
    first
    | cases h
      subst_vars
      rfl
    | cases h

theorem escape_control {c : Char} (h : c.toNat < 0x20) (r : List Char) :
    escape ('u' :: '0' :: '0' :: Nat.digitChar (c.toNat / 16) :: Nat.digitChar (c.toNat % 16) :: r)
      = .ok (c, r) := by
  have ht : isTrailing c.toNat = false := by simp [isTrailing]; omega
  have hl : isLeading c.toNat = false := by simp [isLeading]; omega
  simp only [escape, hexUnit_control h, ht, hl, Char.ofNat_toNat, Bool.false_eq_true, if_false]

theorem stringBody_escaped (c : Char) (r : List Char) :
    stringBody (escaped c ++ r) = (stringBody r).map (c :: ·) := by
  unfold escaped
  split
  · next l hl => exact stringBody_backslash (escape_letter hl r)
  · next hl =>
    split
    · next hc => exact stringBody_backslash (escape_control hc r)
    · next hc =>
      refine stringBody_plain ?_ ?_ hc r
      · rintro rfl
        simp [escapeLetter?] at hl
      · rintro rfl
        simp [escapeLetter?] at hl

/-! ## Whole strings -/

theorem stringBody_printed (cs r : List Char) :
    stringBody (cs.flatMap escaped ++ '"' :: r) = .ok (cs, r) := by
  induction cs with
  | nil => exact stringBody_quote r
  | cons c cs ih =>
    rw [List.flatMap_cons, List.append_assoc, stringBody_escaped, ih, Reading.map_ok]

theorem stringTail_printed (t : String) (r : List Char) :
    stringTail.run (t.toList.flatMap escaped ++ '"' :: r) = .ok (t, r) := by
  show (stringBody _).map String.ofList = _
  rw [stringBody_printed, Reading.map_ok, String.ofList_toList]

/-! ## Skipping -/

theorem skipEscape_of_escape {s r : List Char} {c : Char} (h : escape s = .ok (c, r)) :
    ∃ t, skipEscape s = .ok ((), t) ∧ (t = r ∨ ∃ n, trailingUnit n t = .ok (c, r)) := by
  unfold escape at h
  split at h
  · simp [stopped] at h
  · next s =>
    split at h
    · simp at h
    · next n t hu =>
      have hs : skipEscape ('u' :: s) = .ok ((), t) := by rw [skipEscape, hu, Reading.map_ok]
      refine ⟨t, hs, ?_⟩
      repeat' split at h
      · simp [stopped] at h
      · exact .inr ⟨n, h⟩
      · simp only [Except.ok.injEq, Prod.mk.injEq] at h
        exact .inl h.2
  · next c' s hu =>
    split at h
    · next d hd =>
      simp only [Except.ok.injEq, Prod.mk.injEq] at h
      exact ⟨s, by simp [skipEscape, hd], .inl h.2⟩
    · simp [unfit] at h

theorem skipString_backslash {s t : List Char} (h : skipEscape s = .ok ((), t)) :
    skipString ('\\' :: s) = skipString t := by
  rw [skipString]
  split
  · next hf => simp [h] at hf
  · next hf =>
    rw [h, Except.ok.injEq, Prod.mk.injEq] at hf
    rw [hf.2]

/-- The trailing half of a pair is skipped as an escape of its own. -/
theorem skipString_trailing {n : Nat} {s r : List Char} {c : Char}
    (h : trailingUnit n s = .ok (c, r)) : skipString s = skipString r := by
  unfold trailingUnit at h
  split at h
  · simp [stopped] at h
  · simp [stopped] at h
  · next t =>
    split at h
    · simp at h
    · next m t' hu =>
      split at h
      · simp only [Except.ok.injEq, Prod.mk.injEq] at h
        refine skipString_backslash ?_
        rw [skipEscape, hu, Reading.map_ok, h.2]
      · simp [stopped] at h
  · simp [unfit] at h
  · simp [unfit] at h

theorem skipString_of_stringBody {s r cs : List Char} (h : stringBody s = .ok (cs, r)) :
    skipString s = .ok ((), r) := by
  fun_induction stringBody s generalizing cs with
  | case1 => simp [stopped] at h
  | case2 t =>
    simp only [Except.ok.injEq, Prod.mk.injEq] at h
    rw [skipString, h.2]
  | case3 => simp at h
  | case4 s c t he ih =>
    obtain ⟨cs', hs, -⟩ := Reading.map_eq_ok h
    obtain ⟨u, hu, htail⟩ := skipEscape_of_escape he
    rw [skipString_backslash hu]
    rcases htail with rfl | ⟨n, hn⟩
    · exact ih hs
    · rw [skipString_trailing hn]
      exact ih hs
  | case5 => simp [unfit] at h
  | case6 c s hq hb hc ih =>
    obtain ⟨cs', hs, -⟩ := Reading.map_eq_ok h
    rw [skipString.eq_def]
    split
    · contradiction
    · simp_all
    · simp_all
    · next heq =>
      obtain ⟨rfl, rfl⟩ := List.cons.inj heq
      rw [if_neg hc]
      exact ih hs

end DeadLetters.Json
