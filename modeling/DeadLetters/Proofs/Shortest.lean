import Mathlib.Data.List.DropRight
import Mathlib.Algebra.Order.Field.Basic
import Mathlib.Algebra.Order.Field.Power
import Mathlib.Tactic.FieldSimp
import Mathlib.Tactic.Linarith
import Mathlib.Tactic.Positivity
import Mathlib.Tactic.Ring
import DeadLetters.Proofs.Json.Numerals

/-!
# Seventeen digits suffice

The search for the shortest decimal of a double always succeeds.  A grid of seventeen digits is
finer than the interval that a double owns: its gap is at most `v / 10^16`, and `v` has a
significand below `2^53`.  So one of the two points around `v` is owned, and none that is owned is
zero.

    0 < b.significand < 2^53 → (b.onGrid (b.value.exponent - 17)).isSome         (isSome_onGrid)
    the digits of a double other than zero do not start with 0            (proper_shortest_ofBits)
-/

namespace DeadLetters.Decimal

/-! ## Ratios as numbers -/

namespace Ratio

def toRat (a : Ratio) : ℚ := (a.num : ℚ) / a.den

variable {a b : Ratio}

theorem le_iff (ha : 0 < a.den) (hb : 0 < b.den) : a.le b = true ↔ a.toRat ≤ b.toRat := by
  have ha' : (0 : ℚ) < a.den := by exact_mod_cast ha
  have hb' : (0 : ℚ) < b.den := by exact_mod_cast hb
  rw [le, decide_eq_true_iff, toRat, toRat, div_le_div_iff₀ ha' hb']
  exact_mod_cast Iff.rfl

theorem lt_iff (ha : 0 < a.den) (hb : 0 < b.den) : a.lt b = true ↔ a.toRat < b.toRat := by
  have ha' : (0 : ℚ) < a.den := by exact_mod_cast ha
  have hb' : (0 : ℚ) < b.den := by exact_mod_cast hb
  rw [lt, decide_eq_true_iff, toRat, toRat, div_lt_div_iff₀ ha' hb']
  exact_mod_cast Iff.rfl

theorem den_scaled_pos (c : Nat) (k : Int) : 0 < (scaled c k).den := Nat.pow_pos (by decide)

theorem den_binary_pos (m : Nat) (q : Int) : 0 < (binary m q).den := Nat.pow_pos (by decide)

theorem pow_toNat_div {b : ℚ} (hb : b ≠ 0) (k : Int) : b ^ k.toNat / b ^ (-k).toNat = b ^ k := by
  rw [← zpow_natCast, ← zpow_natCast, ← zpow_sub₀ hb, Int.toNat_sub_toNat_neg]

theorem toRat_scaled (c : Nat) (k : Int) : (scaled c k).toRat = c * 10 ^ k := by
  rw [← pow_toNat_div (by norm_num) k]
  simp only [toRat, scaled, Nat.pow_eq]
  push_cast
  ring

theorem toRat_binary (m : Nat) (q : Int) : (binary m q).toRat = m * 2 ^ q := by
  rw [← pow_toNat_div (by norm_num) q]
  simp only [toRat, binary, Nat.pow_eq]
  push_cast
  ring

/-- A number that has a digit before the point, once the point is moved, is at least as great as
the least number with so many digits. -/
theorem zpow_exponent_le (hd : 0 < a.den) (h : 1 ≤ a.toRat * 10 ^ places) :
    (10 : ℚ) ^ (a.exponent - 1) ≤ a.toRat := by
  have hd' : (0 : ℚ) < a.den := by exact_mod_cast hd
  rw [exponent]
  generalize places = p at h ⊢
  set n := a.num * Nat.pow 10 p / a.den with hn
  have hbelow : (n : ℚ) ≤ a.toRat * 10 ^ p := by
    rw [toRat, div_mul_eq_mul_div, le_div_iff₀ hd']
    have : n * a.den ≤ a.num * 10 ^ p := hn ▸ Nat.div_mul_le_self _ _
    exact_mod_cast this
  have hpos : 1 ≤ n := by
    rw [hn, Nat.le_div_iff_mul_le hd, Nat.one_mul]
    rw [toRat, div_mul_eq_mul_div, le_div_iff₀ hd', one_mul] at h
    exact_mod_cast h
  set l := (Nat.toDigits 10 n).length with hl
  have hlpos : 0 < l := Nat.length_toDigits_pos
  have hdigits : 10 ^ (l - 1) ≤ n := by
    by_cases h1 : l = 1
    · simpa [h1] using hpos
    · have hlt := (Nat.length_toDigits_le_iff (b := 10) (n := n) (k := l - 1) (by decide)
        (by omega)).not.1 (by omega)
      omega
  have hexp : (l : Int) - p - 1 = ((l - 1 : Nat) : Int) - p := by omega
  rw [hexp, zpow_sub₀ (by norm_num), zpow_natCast, zpow_natCast, div_le_iff₀ (by positivity)]
  calc (10 : ℚ) ^ (l - 1) ≤ n := by exact_mod_cast hdigits
    _ ≤ a.toRat * 10 ^ p := hbelow

end Ratio

/-! ## What a double owns -/

namespace Binary

variable {b : Binary} {k : Int}

/-- A double in the range of its format: the significand has at most 53 bits, and only the least of
them has a smaller gap below. -/
structure InRange (b : Binary) : Prop where
  pos : 0 < b.significand
  lt : b.significand < 2 * fractionSize
  least : b.least = true → b.significand = fractionSize
  power : -1074 ≤ b.power

/-- How much of a unit `b` owns below itself, in quarters. -/
def below (b : Binary) : Nat := if b.least then 1 else 2

theorem toRat_value (b : Binary) : b.value.toRat = b.significand * 2 ^ b.power :=
  Ratio.toRat_binary _ _

theorem toRat_quarters (m : Nat) (q : Int) : (Ratio.binary m (q - 2)).toRat = m / 4 * 2 ^ q := by
  rw [Ratio.toRat_binary, zpow_sub₀ (by norm_num)]
  ring

theorem owns_of_between {r : Ratio} (hd : 0 < r.den)
    (hlow : ((4 * b.significand - b.below : Nat) : ℚ) / 4 * 2 ^ b.power < r.toRat)
    (hhigh : r.toRat < ((4 * b.significand + 2 : Nat) : ℚ) / 4 * 2 ^ b.power) :
    b.owns r = true := by
  rw [← toRat_quarters] at hlow hhigh
  have hl := Ratio.den_binary_pos (4 * b.significand - b.below) (b.power - 2)
  have hh := Ratio.den_binary_pos (4 * b.significand + 2) (b.power - 2)
  have hlt := (Ratio.lt_iff hl hd).2 hlow
  have hle := (Ratio.le_iff hl hd).2 hlow.le
  have hlt' := (Ratio.lt_iff hd hh).2 hhigh
  have hle' := (Ratio.le_iff hd hh).2 hhigh.le
  rw [below] at hlt hle
  simp only [owns, hlt, hle, hlt', hle', Bool.and_self, ite_self]

theorem not_owns_zero (h : b.InRange) (k : Int) : b.owns (.scaled 0 k) = false := by
  have hpos : 0 < (Ratio.binary (4 * b.significand - if b.least then 1 else 2)
      (b.power - 2)).toRat := by
    rw [Ratio.toRat_binary]
    have hm := h.pos
    have : 0 < 4 * b.significand - (if b.least then 1 else 2) := by split <;> omega
    have hq : (0 : ℚ) < ((4 * b.significand - if b.least then 1 else 2 : Nat) : ℚ) := by
      exact_mod_cast this
    positivity
  have hzero : (Ratio.scaled 0 k).toRat = 0 := by rw [Ratio.toRat_scaled]; simp
  have hl := Ratio.den_binary_pos (4 * b.significand - if b.least then 1 else 2) (b.power - 2)
  have hle := (Ratio.le_iff hl (Ratio.den_scaled_pos 0 k)).not.2 (by rw [hzero]; exact hpos.not_ge)
  have hlt := (Ratio.lt_iff hl (Ratio.den_scaled_pos 0 k)).not.2
    (by rw [hzero]; exact hpos.le.not_gt)
  rw [Bool.not_eq_true] at hle hlt
  simp only [owns, hle, hlt, Bool.false_and, ite_self]

/-! ## The search -/

def floor (b : Binary) (k : Int) : Nat :=
  b.value.num * Nat.pow 10 (-k).toNat / (b.value.den * Nat.pow 10 k.toNat)

theorem floor_le (b : Binary) (k : Int) : (b.floor k : ℚ) * 10 ^ k ≤ b.value.toRat := by
  have hd : (0 : ℚ) < b.value.den := by exact_mod_cast Ratio.den_binary_pos _ _
  rw [← Ratio.pow_toNat_div (by norm_num), Ratio.toRat, mul_div_assoc', div_le_div_iff₀
    (by positivity) hd]
  have := Nat.div_mul_le_self (b.value.num * Nat.pow 10 (-k).toNat)
    (b.value.den * Nat.pow 10 k.toNat)
  calc (b.floor k : ℚ) * 10 ^ k.toNat * b.value.den
      = ((b.floor k * (b.value.den * Nat.pow 10 k.toNat) : Nat) : ℚ) := by
        simp only [Nat.pow_eq]; push_cast; ring
    _ ≤ ((b.value.num * Nat.pow 10 (-k).toNat : Nat) : ℚ) := by exact_mod_cast this
    _ = (b.value.num : ℚ) * 10 ^ (-k).toNat := by simp only [Nat.pow_eq]; push_cast; ring

theorem lt_floor (b : Binary) (k : Int) : b.value.toRat < ((b.floor k + 1 : Nat) : ℚ) * 10 ^ k := by
  have hdn : 0 < b.value.den := Ratio.den_binary_pos _ _
  have hd : (0 : ℚ) < b.value.den := by exact_mod_cast hdn
  rw [← Ratio.pow_toNat_div (by norm_num), Ratio.toRat, mul_div_assoc', div_lt_div_iff₀ hd
    (by positivity)]
  have hpos : 0 < b.value.den * Nat.pow 10 k.toNat := Nat.mul_pos hdn (Nat.pow_pos (by decide))
  have hlt := Nat.lt_mul_div_succ (b.value.num * Nat.pow 10 (-k).toNat) hpos
  calc (b.value.num : ℚ) * 10 ^ (-k).toNat
      = ((b.value.num * Nat.pow 10 (-k).toNat : Nat) : ℚ) := by
        simp only [Nat.pow_eq]; push_cast; ring
    _ < ((b.value.den * Nat.pow 10 k.toNat * (b.floor k + 1) : Nat) : ℚ) := by
        exact_mod_cast hlt
    _ = ((b.floor k + 1 : Nat) : ℚ) * 10 ^ k.toNat * b.value.den := by
        simp only [Nat.pow_eq]; push_cast; ring

theorem owns_of_onGrid {k : Int} {c : Nat} (h : b.onGrid k = some c) :
    b.owns (.scaled c k) = true := by
  have hmod : ∀ n, n + n % 2 = n ∨ n + n % 2 = n + 1 := by omega
  simp only [onGrid] at h
  split at h
  · next h₁ h₂ =>
    repeat' split at h
    · cases h; exact h₁
    · cases h; exact h₂
    · cases h
      rcases hmod (b.floor k) with hm | hm
      · exact hm.symm ▸ h₁
      · exact hm.symm ▸ h₂
  · next h₁ _ => cases h; exact h₁
  · next _ h₂ => cases h; exact h₂
  · cases h

theorem not_owns_of_onGrid {k : Int} (h : b.onGrid k = none) :
    b.owns (.scaled (b.floor k) k) = false ∧ b.owns (.scaled (b.floor k + 1) k) = false := by
  simp only [onGrid] at h
  split at h
  · repeat' split at h
    all_goals cases h
  · cases h
  · cases h
  · next h₁ h₂ => exact ⟨h₁, h₂⟩

/-- No double needs more than 400 places to its first digit. -/
theorem one_le_value (h : b.InRange) {p : Nat} (hp : 400 ≤ p) : 1 ≤ b.value.toRat * 10 ^ p := by
  have hm : (1 : ℚ) ≤ b.significand := by exact_mod_cast h.pos
  have hq : ((8 : ℚ) ^ p)⁻¹ ≤ 2 ^ b.power := by
    have h8 : ((8 : ℚ) ^ p)⁻¹ = 2 ^ (-(3 * p : Nat) : Int) := by
      rw [zpow_neg, zpow_natCast, pow_mul]
      norm_num
    rw [h8]
    exact zpow_le_zpow_right₀ (by norm_num) (by have := h.power; omega)
  have hten : (8 : ℚ) ^ p ≤ 10 ^ p := pow_le_pow_left₀ (by norm_num) (by norm_num) p
  have hpos : (0 : ℚ) < 8 ^ p := pow_pos (by norm_num) p
  rw [toRat_value]
  calc (1 : ℚ) = 1 * ((8 : ℚ) ^ p)⁻¹ * 8 ^ p := by rw [one_mul, inv_mul_cancel₀ hpos.ne']
    _ ≤ b.significand * 2 ^ b.power * 10 ^ p := by gcongr

/-- A unit of the grid is at most the `10^16`-th part of the value. -/
theorem zpow_grid_le (h : b.InRange) :
    (10 : ℚ) ^ (b.value.exponent - 17) * 10 ^ 16 ≤ b.significand * 2 ^ b.power := by
  have hv := Ratio.zpow_exponent_le (a := b.value) (Ratio.den_binary_pos _ _)
    (one_le_value h (Nat.le_refl _))
  rw [← toRat_value]
  refine le_trans (le_of_eq ?_) hv
  rw [← zpow_natCast, ← zpow_add₀ (by norm_num)]
  congr 1
  push_cast
  ring

theorem toRat_floor_le (h : b.owns (.scaled (b.floor k) k) = false) :
    (b.floor k : ℚ) * 10 ^ k ≤ ((4 * b.significand - b.below : Nat) : ℚ) / 4 * 2 ^ b.power := by
  by_contra hlt
  rw [not_le] at hlt
  have hhigh : (b.floor k : ℚ) * 10 ^ k <
      ((4 * b.significand + 2 : Nat) : ℚ) / 4 * 2 ^ b.power := by
    refine lt_of_le_of_lt (floor_le b k) ?_
    rw [toRat_value]
    push_cast
    have : (0 : ℚ) < 2 ^ b.power := by positivity
    linarith
  rw [← Ratio.toRat_scaled] at hlt hhigh
  rw [owns_of_between (Ratio.den_scaled_pos _ _) hlt hhigh] at h
  cases h

theorem le_toRat_floor (h : b.owns (.scaled (b.floor k + 1) k) = false) :
    ((4 * b.significand + 2 : Nat) : ℚ) / 4 * 2 ^ b.power ≤
      ((b.floor k + 1 : Nat) : ℚ) * 10 ^ k := by
  by_contra hlt
  rw [not_le] at hlt
  have hlow : ((4 * b.significand - b.below : Nat) : ℚ) / 4 * 2 ^ b.power <
      ((b.floor k + 1 : Nat) : ℚ) * 10 ^ k := by
    refine lt_of_le_of_lt ?_ (lt_floor b k)
    rw [toRat_value]
    have hsub : ((4 * b.significand - b.below : Nat) : ℚ) ≤ 4 * b.significand := by
      exact_mod_cast Nat.sub_le _ _
    have : (0 : ℚ) < 2 ^ b.power := by positivity
    nlinarith
  rw [← Ratio.toRat_scaled] at hlt hlow
  rw [owns_of_between (Ratio.den_scaled_pos _ _) hlow hlt] at h
  cases h

/-- On the grid of seventeen digits one of the two points around the value is owned. -/
theorem isSome_onGrid (h : b.InRange) : (b.onGrid (b.value.exponent - 17)).isSome = true := by
  rw [Option.isSome_iff_ne_none]
  intro hnone
  obtain ⟨h₁, h₂⟩ := not_owns_of_onGrid hnone
  have hlow := toRat_floor_le h₁
  have hhigh := le_toRat_floor h₂
  have hgrid := zpow_grid_le h
  generalize (10 : ℚ) ^ (b.value.exponent - 17) = g at hlow hhigh hgrid
  generalize hu : (2 : ℚ) ^ b.power = u at hlow hhigh hgrid
  have hpos : 0 < u := by rw [← hu]; positivity
  have hsub : ((4 * b.significand - b.below : Nat) : ℚ) = 4 * b.significand - b.below := by
    have hm := h.pos
    rw [Nat.cast_sub (by rw [below]; split <;> omega)]
    push_cast
    ring
  rw [hsub] at hlow
  push_cast at hhigh
  -- the owned interval is longer than a unit of the grid
  have hlen : (2 + b.below : ℚ) * 10 ^ 16 * u ≤ 4 * b.significand * u := by nlinarith
  have hm : (2 + b.below) * 10 ^ 16 ≤ 4 * b.significand := by
    exact_mod_cast le_of_mul_le_mul_right hlen hpos
  have hlt := h.lt
  have hleast := h.least
  simp only [below, fractionSize] at hm hlt hleast
  split at hm
  · have := hleast ‹_›
    omega
  · omega

theorem search_spec {e : Int} {n tries : Nat}
    (h : ∃ j < tries, (b.onGrid (e - (n + j : Nat))).isSome = true) :
    b.onGrid (b.search e n tries).2 = some (b.search e n tries).1 := by
  induction tries generalizing n with
  | zero =>
    obtain ⟨j, hj, -⟩ := h
    omega
  | succ tries ih =>
    rw [search]
    split
    · next c hc => exact hc
    · next hc =>
      refine ih ?_
      obtain ⟨j, hj, hsome⟩ := h
      cases j with
      | zero => rw [Nat.add_zero, hc] at hsome; cases hsome
      | succ j => exact ⟨j, by omega, by rw [Nat.succ_add_eq_add_succ]; exact hsome⟩

/-- The search ends at a multiple that is owned, and it is not zero. -/
theorem search_pos (h : b.InRange) : 0 < (b.search b.value.exponent 1 17).1 := by
  have hfound : b.onGrid (b.search b.value.exponent 1 17).2 =
      some (b.search b.value.exponent 1 17).1 :=
    search_spec ⟨16, by decide, isSome_onGrid h⟩
  have howned := owns_of_onGrid hfound
  rw [Nat.pos_iff_ne_zero]
  intro hzero
  rw [hzero, not_owns_zero h] at howned
  cases howned

theorem inRange_ofBits {bits : UInt64} (h : bits.toNat % (UInt64.size / 2) ≠ 0) :
    (ofBits bits).InRange := by
  have hb := bits.toNat_lt
  simp only [UInt64.size] at h
  by_cases hz : bits.toNat / fractionSize % 2048 = 0
  · rw [ofBits, if_pos hz]
    simp only [fractionSize] at hz
    constructor <;> simp only [fractionSize, Bool.false_eq_true, false_implies] <;> omega
  · rw [ofBits, if_neg hz]
    simp only [fractionSize] at hz
    refine ⟨?_, ?_, fun hl => ?_, ?_⟩
    · simp only [fractionSize]
      omega
    · simp only [fractionSize]
      omega
    · have hzero : bits.toNat % fractionSize = 0 := of_decide_eq_true (Bool.and_eq_true_iff.1 hl).1
      rw [hzero, Nat.zero_add]
    · simp only [Int.ofNat_eq_natCast, fractionSize]
      omega

end Binary

/-! ## Digits -/

/-- Digits that stand for a number other than zero, without a superfluous zero in front. -/
structure Digits.Proper (d : Digits) : Prop where
  ne_nil : d.digits ≠ []
  head : d.digits.head? ≠ some '0'
  digit : ∀ c ∈ d.digits, c.isDigit = true

theorem proper_shortest_ofBits {bits : UInt64} (h : bits.toNat % (UInt64.size / 2) ≠ 0) :
    (shortest (.ofBits bits)).Proper := by
  have hpos := Binary.search_pos (Binary.inRange_ofBits h)
  generalize hc : (Binary.ofBits bits).search (Binary.ofBits bits).value.exponent 1 17 = found
    at hpos
  have hdigits : (shortest (.ofBits bits)).digits =
      (Nat.toDigits 10 found.1).rdropWhile (· = '0') := by
    rw [shortest, hc]
    rfl
  obtain ⟨c, s, hcs⟩ := List.exists_cons_of_ne_nil (Nat.toDigits_ne_nil (b := 10) (n := found.1))
  have hne : c ≠ '0' := by
    rintro rfl
    have hz := Json.head?_toDigits (n := found.1) (by rw [hcs]; rfl)
    have hval := Nat.ofDigitChars_ten_toDigits (n := found.1)
    rw [hz] at hval
    have : Nat.ofDigitChars 10 ['0'] 0 = 0 := by decide
    omega
  have hkept := List.rdropWhile_prefix (p := (· = '0')) (l := Nat.toDigits 10 found.1)
  have hnil : (Nat.toDigits 10 found.1).rdropWhile (· = '0') ≠ [] := by
    intro hnil
    rw [List.rdropWhile_eq_nil_iff, hcs] at hnil
    exact hne (by simpa using hnil c (by simp))
  rw [← hdigits] at hkept hnil
  refine ⟨hnil, ?_, fun d hd => ?_⟩
  · obtain ⟨d, ds, hd⟩ := List.exists_cons_of_ne_nil hnil
    rw [hd, hcs] at hkept
    rw [hd, List.head?_cons, (List.cons_prefix_cons.1 hkept).1]
    simpa using hne
  · exact Nat.isDigit_of_mem_toDigits (by decide) (by decide) (hkept.subset hd)

end DeadLetters.Decimal
