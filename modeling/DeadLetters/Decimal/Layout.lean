import DeadLetters.Decimal.Shortest

/-!
# Layout of a double

How the shortest digits of a double are laid out: positionally, always with a point, while the
exponent lies within the layout's bounds, and otherwise with one digit before the point and an
exponent of ten.  JSON text and log lines differ only in the bounds and in the sign of the exponent.
-/

namespace DeadLetters.Decimal

/-- The conventions for writing a double `0.d₁d₂… · 10^e`. -/
structure Layout where
  /-- The least `e` written positionally. -/
  least : Int
  /-- The greatest `e` written positionally. -/
  greatest : Int
  /-- Whether a positive exponent has a sign. -/
  plus : Bool

/-- Numbers in JSON text: positional from `0.00001` up to below `10^16`, `1e+16` beyond. -/
def Layout.json : Layout := ⟨-4, 16, true⟩

/-- Numbers in log lines: positional from `0.0001` up to below `10^16`, `1e16` beyond. -/
def Layout.log : Layout := ⟨-3, 16, false⟩

namespace Layout

/-- Digits with a point among, before or after them. -/
def positional (d : Digits) : List Char :=
  if d.exponent ≤ 0 then
    '0' :: '.' :: List.replicate (-d.exponent).toNat '0' ++ d.digits
  else
    let whole := d.digits.take d.exponent.toNat
    let zeros := List.replicate (d.exponent.toNat - whole.length) '0'
    let part := d.digits.drop d.exponent.toNat
    whole ++ zeros ++ '.' :: (if part.isEmpty then ['0'] else part)

/-- One digit, the others after a point, and the exponent of the first. -/
def scientific (plus : Bool) (d : Digits) : List Char :=
  let e := d.exponent - 1
  let power := Nat.toDigits 10 e.natAbs
  let sign := if e < 0 then ['-'] else if plus then ['+'] else []
  d.digits.take 1 ++ (if d.digits.length ≤ 1 then [] else '.' :: d.digits.drop 1)
    ++ 'e' :: sign ++ power

/-- The text of a finite double. -/
def chars (l : Layout) (x : Float) : List Char :=
  let bits := x.toBits
  let sign := if bits.toNat / (UInt64.size / 2) = 1 then ['-'] else []
  if bits.toNat % (UInt64.size / 2) = 0 then sign ++ ['0', '.', '0']
  else
    let d := shortest (.ofBits bits)
    sign ++ if l.least ≤ d.exponent ∧ d.exponent ≤ l.greatest then positional d
      else scientific l.plus d

def text (l : Layout) (x : Float) : String := String.ofList (l.chars x)

end Layout

end DeadLetters.Decimal
