import DeadLetters.Proofs.Shortest

/-!
# Doubles in JSON text

Whatever its bits, a double is written as a well-formed numeral that has a fraction or an exponent.
So it is never taken for an integer where it is read again.

    Layout.json.chars x = (Numeral.ofFloat x).chars                          (chars_ofFloat)
-/

namespace DeadLetters.Json

open Decimal

namespace Numeral

/-- Digits with a point among, before or after them. -/
def positional (negative : Bool) (d : Digits) : Numeral :=
  if d.exponent ≤ 0 then
    ⟨negative, ['0'], List.replicate (-d.exponent).toNat '0' ++ d.digits, none⟩
  else
    let whole := d.digits.take d.exponent.toNat
    let part := d.digits.drop d.exponent.toNat
    ⟨negative, whole ++ List.replicate (d.exponent.toNat - whole.length) '0',
      if part = [] then ['0'] else part, none⟩

/-- One digit, the others as a fraction, and an exponent. -/
def scientific (negative : Bool) (d : Digits) : Numeral :=
  ⟨negative, d.digits.take 1, d.digits.drop 1,
    some (decide (d.exponent - 1 < 0), Nat.toDigits 10 (d.exponent - 1).natAbs)⟩

def ofFloat (x : Float) : Numeral :=
  let negative := decide (x.toBits.toNat / (UInt64.size / 2) = 1)
  if x.toBits.toNat % (UInt64.size / 2) = 0 then ⟨negative, ['0'], ['0'], none⟩
  else
    let d := shortest (.ofBits x.toBits)
    if Layout.json.least ≤ d.exponent ∧ d.exponent ≤ Layout.json.greatest then
      positional negative d
    else scientific negative d

variable {negative : Bool} {d : Digits}

theorem chars_scientific :
    (scientific negative d).chars =
      (if negative then ['-'] else []) ++ Layout.scientific true d := by
  have hl : d.digits.length ≤ 1 ↔ d.digits.drop 1 = [] := List.drop_eq_nil_iff.symm
  simp only [scientific, chars, fractionChars, exponentChars, Layout.scientific, hl,
    List.append_assoc]
  cases negative <;> by_cases he : d.exponent - 1 < 0 <;> simp [he]

section Proper

variable (h : d.Proper)

include h

theorem chars_positional :
    (positional negative d).chars = (if negative then ['-'] else []) ++ Layout.positional d := by
  unfold positional Layout.positional
  split
  · have hne : List.replicate (-d.exponent).toNat '0' ++ d.digits ≠ [] := by simp [h.ne_nil]
    simp [chars, fractionChars, exponentChars, hne]
  · simp only [chars, fractionChars, exponentChars, List.append_nil, List.append_assoc]
    by_cases hp : d.digits.drop d.exponent.toNat = []
    · simp [hp]
    · simp [hp]

theorem wellFormed_positional : (positional negative d).WellFormed := by
  obtain ⟨c, s, hd⟩ := List.exists_cons_of_ne_nil h.ne_nil
  have zeros : ∀ n, ∀ c ∈ List.replicate n '0', c.isDigit = true := by
    intro n c hc
    rw [List.eq_of_mem_replicate hc]
    rfl
  unfold positional
  split
  · refine ⟨by simp, by simp, fun _ => rfl, ?_, nofun⟩
    intro c hc
    rcases List.mem_append.1 hc with hc | hc
    · exact zeros _ c hc
    · exact h.digit c hc
  · next he =>
    obtain ⟨e, he⟩ : ∃ e, d.exponent.toNat = e + 1 := ⟨d.exponent.toNat - 1, by omega⟩
    refine ⟨by simp [he, hd], ?_, ?_, ?_, nofun⟩
    · intro c hc
      rcases List.mem_append.1 hc with hc | hc
      · exact h.digit c (List.mem_of_mem_take hc)
      · exact zeros _ c hc
    · intro hz
      refine absurd ?_ h.head
      simpa [he, hd] using hz
    · intro c hc
      dsimp only at hc
      split at hc
      · rw [List.mem_singleton.1 hc]
        rfl
      · exact h.digit c (List.mem_of_mem_drop hc)

theorem wellFormed_scientific : (scientific negative d).WellFormed := by
  obtain ⟨c, s, hd⟩ := List.exists_cons_of_ne_nil h.ne_nil
  refine ⟨by simp [scientific, hd], fun c hc => h.digit c (List.mem_of_mem_take hc), ?_,
    fun c hc => h.digit c (List.mem_of_mem_drop hc), ?_⟩
  · intro hz
    refine absurd ?_ h.head
    simpa [scientific, hd] using hz
  · intro x hx
    obtain rfl : _ = x := Option.some.inj hx
    exact ⟨Nat.toDigits_ne_nil, fun c hc => Nat.isDigit_of_mem_toDigits (by decide) (by decide) hc⟩

end Proper

theorem wellFormed_ofFloat (x : Float) : (ofFloat x).WellFormed := by
  unfold ofFloat
  dsimp only
  split
  · exact ⟨by simp, by simp, fun _ => rfl, by simp, nofun⟩
  · next hx =>
    have hd := proper_shortest_ofBits hx
    split
    · exact wellFormed_positional hd
    · exact wellFormed_scientific hd

theorem chars_ofFloat (x : Float) : (ofFloat x).chars = Layout.json.chars x := by
  unfold ofFloat Layout.chars
  dsimp only
  split
  · simp [chars, fractionChars, exponentChars]
  · next hx =>
    have hd := proper_shortest_ofBits hx
    split
    · exact (chars_positional hd).trans (by simp)
    · exact chars_scientific.trans (by simp [Layout.json])

theorem isFloat_ofFloat (x : Float) : (ofFloat x).IsFloat := by
  unfold ofFloat
  dsimp only
  split
  · exact .inl (by simp)
  · next hx =>
    have hd := proper_shortest_ofBits hx
    split
    · left
      unfold positional
      split
      · simp [hd.ne_nil]
      · dsimp only
        split <;> simp_all
    · exact .inr rfl

end Numeral

end DeadLetters.Json
