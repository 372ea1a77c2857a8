/-!
# The shortest decimal that reads back

A positive double `v = m · 2^q` owns the interval of reals that round to it: half a unit on both
sides (a quarter below when `m` is the least significand of a binade), its ends included iff `m` is
even.  `shortest v` is the decimal with the fewest digits inside that interval and, of several, the
one nearest to `v`.

For a digit count `n` the candidates are the two multiples of `10^(e-n)` around `v`, where
`10^(e-1) ≤ v < 10^e`: if any multiple lies in the interval, one of these two does.  Seventeen
digits always suffice.  All arithmetic is on natural numbers.
-/

namespace DeadLetters.Decimal

/-- The number `num / den`. -/
structure Ratio where
  num : Nat
  den : Nat

namespace Ratio

/-- `c · 10^k`. -/
def scaled (c : Nat) (k : Int) : Ratio := ⟨c * Nat.pow 10 k.toNat, Nat.pow 10 (-k).toNat⟩

/-- `m · 2^q`. -/
def binary (m : Nat) (q : Int) : Ratio := ⟨m * Nat.pow 2 q.toNat, Nat.pow 2 (-q).toNat⟩

def lt (a b : Ratio) : Bool := a.num * b.den < b.num * a.den

def le (a b : Ratio) : Bool := a.num * b.den ≤ b.num * a.den

/-- How far apart two numbers are. -/
def distance (a b : Ratio) : Ratio :=
  ⟨(a.num * b.den - b.num * a.den) + (b.num * a.den - a.num * b.den), a.den * b.den⟩

/-- So many places the point is moved before digits are counted: no double has its first digit
further behind the point. -/
def places : Nat := 400

/-- The number of digits before the decimal point; 0 or less counts the zeros after it. -/
def exponent (a : Ratio) : Int :=
  ((Nat.toDigits 10 (a.num * Nat.pow 10 places / a.den)).length : Int) - places

end Ratio

/-- A finite double other than zero, without its sign: `significand · 2^power`. -/
structure Binary where
  significand : Nat
  power : Int
  /-- The gap to the next smaller double is half the gap to the next greater one. -/
  least : Bool

/-- How many significands a binade has. -/
def fractionSize : Nat := 4503599627370496

/-- The magnitude of the double with these bits. -/
def Binary.ofBits (bits : UInt64) : Binary :=
  let fraction := bits.toNat % fractionSize
  let biased : Nat := bits.toNat / fractionSize % 2048
  if biased = 0 then ⟨fraction, -1074, false⟩
  else ⟨fraction + fractionSize, Int.ofNat biased - 1075, fraction = 0 && 1 < biased⟩

namespace Binary

def value (b : Binary) : Ratio := .binary b.significand b.power

/-- Whether `r` rounds to `b`. -/
def owns (b : Binary) (r : Ratio) : Bool :=
  let low := Ratio.binary (4 * b.significand - if b.least then 1 else 2) (b.power - 2)
  let high := Ratio.binary (4 * b.significand + 2) (b.power - 2)
  if b.significand % 2 = 0 then low.le r && r.le high else low.lt r && r.lt high

/-- The multiple of `10^k` that `b` owns, if one of the two around it is owned: the nearer one. -/
def onGrid (b : Binary) (k : Int) : Option Nat :=
  let below := b.value.num * Nat.pow 10 (-k).toNat / (b.value.den * Nat.pow 10 k.toNat)
  let near (c : Nat) := (Ratio.scaled c k).distance b.value
  match b.owns (.scaled below k), b.owns (.scaled (below + 1) k) with
  | true, true =>
    if (near below).lt (near (below + 1)) then some below
    else if (near (below + 1)).lt (near below) then some (below + 1)
    else some (below + below % 2)
  | true, false => some below
  | false, true => some (below + 1)
  | false, false => none

/-- The first grid with an owned multiple among those of `n`, `n + 1`, … digits. -/
def search (b : Binary) (e : Int) : Nat → Nat → Nat × Int
  | _, 0 => (0, e)
  | n, tries + 1 =>
    match b.onGrid (e - n) with
    | some c => (c, e - n)
    | none => b.search e (n + 1) tries

end Binary

/-- `0.d₁d₂… · 10^exponent`, with `d₁` other than zero. -/
structure Digits where
  digits : List Char
  exponent : Int

/-- The shortest decimal that rounds to `b`. -/
def shortest (b : Binary) : Digits :=
  let (c, k) := b.search b.value.exponent 1 17
  let written := Nat.toDigits 10 c
  ⟨(written.reverse.dropWhile (· = '0')).reverse, k + written.length⟩

end DeadLetters.Decimal
