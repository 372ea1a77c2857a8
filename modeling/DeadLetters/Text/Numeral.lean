/-!
# Numerals

A whole numeral is a nonempty run of the ASCII digits `0` to `9`, after an optional sign.  A reader
of a bounded type refuses a numeral whose value does not fit.  A hexadecimal digit may be a letter
of either case.

    ofDigits? (Nat.toDigits 10 n) = some n                       (ofDigits?_toDigits)
    n < UInt32.size → uint32? (toString n) = some n.toUInt32       (uint32?_toString)
-/

namespace DeadLetters.Text

/-- The number written by a nonempty run of ASCII digits. -/
def ofDigits? (cs : List Char) : Option Nat :=
  if cs ≠ [] ∧ cs.all Char.isDigit then some (Nat.ofDigitChars 10 cs 0) else none

/-- The number of a numeral that may start with `+`. -/
def unsigned? : List Char → Option Nat
  | '+' :: cs => ofDigits? cs
  | cs => ofDigits? cs

/-- The number of a numeral that may start with `+` or `-`. -/
def signed? : List Char → Option Int
  | '-' :: cs => (ofDigits? cs).map fun n => -(n : Int)
  | cs => (unsigned? cs).map fun n => (n : Int)

/-- The value of a hexadecimal digit. -/
def hexDigit? (c : Char) : Option Nat :=
  if c.isDigit then some (c.toNat - '0'.toNat)
  else if 'a' ≤ c ∧ c ≤ 'f' then some (c.toNat - 'a'.toNat + 10)
  else if 'A' ≤ c ∧ c ≤ 'F' then some (c.toNat - 'A'.toNat + 10)
  else none

def uint32? (s : String) : Option UInt32 :=
  (unsigned? s.toList).bind fun n => if n < UInt32.size then some n.toUInt32 else none

def int64? (s : String) : Option Int64 :=
  (signed? s.toList).bind fun i =>
    if Int64.minValue.toInt ≤ i ∧ i ≤ Int64.maxValue.toInt then some (Int64.ofInt i) else none

/-! ## Lemmas -/

theorem ofDigits?_toDigits (n : Nat) : ofDigits? (Nat.toDigits 10 n) = some n := by
  have h1 : Nat.toDigits 10 n ≠ [] := Nat.toDigits_ne_nil
  have h2 : (Nat.toDigits 10 n).all Char.isDigit = true :=
    List.all_eq_true.2 fun c hc => Nat.isDigit_of_mem_toDigits (by decide) (by decide) hc
  simp only [ofDigits?, ne_eq, h1, not_false_eq_true, h2, and_self, ↓reduceIte,
    Nat.ofDigitChars_toDigits (b := 10) (n := n) (by decide) (by decide)]

/-- Digits of a number are read as the number. -/
theorem unsigned?_toDigits (n : Nat) : unsigned? (Nat.toDigits 10 n) = some n := by
  have hd := ofDigits?_toDigits n
  unfold unsigned?
  split
  · next cs h =>
    have hplus : '+' ∈ Nat.toDigits 10 n := by simp [h]
    have := Nat.isDigit_of_mem_toDigits (by decide) (by decide) hplus
    simp at this
  · exact hd

/-- A number of 32 bits is read as itself. -/
theorem uint32?_toString {n : Nat} (h : n < UInt32.size) :
    uint32? (toString n) = some n.toUInt32 := by
  have ht : (toString n).toList = Nat.toDigits 10 n := by simp [toString, Nat.repr]
  rw [uint32?, ht, unsigned?_toDigits]
  simp [h]

end DeadLetters.Text
