import DeadLetters.Json.Reader
import DeadLetters.Json.Value

/-!
# Numbers in a JSON text

A numeral is an optional minus sign, a whole part without superfluous zeros, an optional fraction
and an optional exponent.

Its number is an integer if it has neither fraction nor exponent and fits 64 bits, signed when it is
negative and unsigned otherwise; `-0` is a double.  Every other numeral is a double: the leading
digits that fit an unsigned 64-bit significand, rounded to a double, and then scaled once by a power
of ten.  A numeral beyond the greatest double is refused, one below the least is zero.
-/

namespace DeadLetters.Json

/-- The parts of a numeral, as they are written. -/
structure Numeral where
  negative : Bool
  whole : List Char
  /-- The digits behind the point; none without a point. -/
  fraction : List Char
  /-- The sign and the digits of the exponent. -/
  exponent : Option (Bool × List Char)

/-! ## Syntax -/

/-- The leading digits of a text, and the rest of it. -/
def digitRun (s : List Char) : List Char × List Char :=
  (s.takeWhile Char.isDigit, s.dropWhile Char.isDigit)

/-- Reads the whole part. -/
def wholePart (atEnd : Cause) : List Char → Reading (List Char)
  | [] => stopped atEnd []
  | '0' :: s =>
    match s with
    | c :: r => if c.isDigit then unfit .invalidNumber (c :: r) else .ok (['0'], c :: r)
    | [] => .ok (['0'], [])
  | c :: s => if c.isDigit then .ok (digitRun (c :: s)) else unfit .invalidNumber (c :: s)

/-- Reads at least one digit. -/
def someDigits (atEnd : Cause) : List Char → Reading (List Char)
  | [] => stopped atEnd []
  | c :: s => if c.isDigit then .ok (digitRun (c :: s)) else unfit .invalidNumber (c :: s)

/-- Reads the fraction, if there is a point. -/
def fractionPart (atEnd : Cause) : List Char → Reading (List Char)
  | '.' :: s => someDigits atEnd s
  | s => .ok ([], s)

/-- Reads the exponent, if there is an `e`. -/
def exponentPart (atEnd : Cause) : List Char → Reading (Option (Bool × List Char))
  | [] => .ok (none, [])
  | e :: s =>
    if e = 'e' ∨ e = 'E' then
      match s with
      | '-' :: t => (someDigits atEnd t).map fun ds => some (true, ds)
      | '+' :: t => (someDigits atEnd t).map fun ds => some (false, ds)
      | t => (someDigits atEnd t).map fun ds => some (false, ds)
    else .ok (none, e :: s)

/-- Reads a numeral without its sign.  `atEnd` is the cause reported where a digit is missing at the
end of the text. -/
def magnitude (atEnd : Cause) (negative : Bool) (s : List Char) : Reading Numeral :=
  match wholePart atEnd s with
  | .error f => .error f
  | .ok (whole, s) =>
    match fractionPart atEnd s with
    | .error f => .error f
    | .ok (fraction, s) =>
      (exponentPart atEnd s).map fun exponent => ⟨negative, whole, fraction, exponent⟩

/-- Reads a numeral. -/
def numeral (atEnd : Cause) : List Char → Reading Numeral
  | '-' :: s => magnitude atEnd true s
  | s => magnitude atEnd false s

/-! ## Value -/

/-- Appends digits to a significand while it stays below `2^64`, and counts those appended. -/
def absorb (significand : Nat) : List Char → Nat × Nat
  | [] => (significand, 0)
  | d :: ds =>
    let next := significand * 10 + (d.toNat - '0'.toNat)
    if next < UInt64.size then
      let (full, count) := absorb next ds
      (full, count + 1)
    else (significand, 0)

/-- The double nearest to `10^k`. -/
def powerOfTen (k : Nat) : Float := Float.ofScientific 1 false k

/-- `x · 10^e` for a double `x` below `2^64`, if it does not overflow. -/
def scale (x : Float) (e : Int) : Option Float :=
  if 0 ≤ e then
    if e ≤ 308 then
      let y := x * powerOfTen e.toNat
      if y.isInf then none else some y
    else if x == 0 then some x else none
  else if -308 ≤ e then some (x / powerOfTen (-e).toNat)
  else if -616 ≤ e then some (x / powerOfTen 308 / powerOfTen (-e - 308).toNat)
  else some 0

/-- The double of a significand and a power of ten, with its sign. -/
def signedDouble (negative : Bool) (significand : Nat) (e : Int) : Option Number :=
  (scale significand.toUInt64.toFloat e).map fun x => .float (if negative then -x else x)

/-- The number of digits that reach a value above the greatest 32-bit exponent, if any do. -/
def overlong (value count : Nat) : List Char → Option Nat
  | [] => none
  | d :: ds =>
    let next := value * 10 + (d.toNat - '0'.toNat)
    if UInt32.size / 2 ≤ next then some (count + 1) else overlong next (count + 1) ds

/-- The number of a numeral in front of `rest`. -/
def Numeral.evaluate (n : Numeral) (rest : List Char) : Reading Number :=
  let (whole, taken) := absorb 0 n.whole
  let untaken := n.whole.length - taken
  let double (significand : Nat) (e : Int) : Reading Number :=
    match signedDouble n.negative significand e with
    | some x => .ok (x, rest)
    | none => stopped .numberOutOfRange rest
  let (significand, places) := absorb whole n.fraction
  let e := (untaken : Int) - places
  match n.exponent with
  | some (negative, digits) =>
    match overlong 0 0 digits with
    | some count =>
      if significand ≠ 0 ∧ !negative then stopped .numberOutOfRange (digits.drop count ++ rest)
      else .ok (.float (if n.negative then -0.0 else 0.0), rest)
    | none =>
      let power : Int := Nat.ofDigitChars 10 digits 0
      double significand (if negative then e - power else e + power)
  | none =>
    if n.fraction ≠ [] ∨ untaken ≠ 0 then double significand e
    else if !n.negative then .ok (.int whole, rest)
    else if 1 ≤ whole ∧ whole ≤ UInt64.size / 2 then .ok (.int (-(whole : Int)), rest)
    else .ok (.float (-whole.toUInt64.toFloat), rest)

/-- Reads a number. -/
def numberText (s : List Char) : Reading Number :=
  match numeral .endInValue s with
  | .error f => .error f
  | .ok (n, r) => n.evaluate r

/-! ## Numbers consume text -/

theorem length_digitRun_lt {c : Char} {s ds r : List Char} (hc : c.isDigit = true)
    (h : digitRun (c :: s) = (ds, r)) : r.length < (c :: s).length := by
  simp only [digitRun, Prod.mk.injEq] at h
  rw [← h.2, List.dropWhile_cons_of_pos hc]
  have := (List.dropWhile_suffix (l := s) Char.isDigit).length_le
  simp only [List.length_cons]; omega

/-- A number has a digit before its point. -/
theorem length_wholePart_lt {e : Cause} {s ds r : List Char} (h : wholePart e s = .ok (ds, r)) :
    r.length < s.length := by
  unfold wholePart at h
  split at h
  · simp [stopped] at h
  · split at h
    · split at h
      · simp [unfit] at h
      · simp only [Except.ok.injEq, Prod.mk.injEq] at h; simp [← h.2]
    · simp only [Except.ok.injEq, Prod.mk.injEq] at h; simp [← h.2]
  · split at h
    · next hc =>
      simp only [Except.ok.injEq] at h
      exact length_digitRun_lt hc h
    · simp [unfit] at h

theorem length_someDigits_lt {e : Cause} {s ds r : List Char} (h : someDigits e s = .ok (ds, r)) :
    r.length < s.length := by
  unfold someDigits at h
  split at h
  · simp [stopped] at h
  · split at h
    · next hc =>
      simp only [Except.ok.injEq] at h
      exact length_digitRun_lt hc h
    · simp [unfit] at h

/-- There need not be a fraction. -/
theorem length_fractionPart_le {e : Cause} {s ds r : List Char}
    (h : fractionPart e s = .ok (ds, r)) : r.length ≤ s.length := by
  unfold fractionPart at h
  split at h
  · have := length_someDigits_lt h
    simp only [List.length_cons]; omega
  · simp only [Except.ok.injEq, Prod.mk.injEq] at h
    exact Nat.le_of_eq (congrArg List.length h.2.symm)

theorem length_exponentPart_le {e : Cause} {s r : List Char} {x : Option (Bool × List Char)}
    (h : exponentPart e s = .ok (x, r)) : r.length ≤ s.length := by
  unfold exponentPart at h
  split at h
  · simp only [Except.ok.injEq, Prod.mk.injEq] at h
    exact Nat.le_of_eq (congrArg List.length h.2.symm)
  · split at h
    · split at h <;>
      · obtain ⟨ds, hd, _⟩ := Reading.map_eq_ok h
        have := length_someDigits_lt hd
        simp only [List.length_cons] at this ⊢; omega
    · simp only [Except.ok.injEq, Prod.mk.injEq] at h
      exact Nat.le_of_eq (congrArg List.length h.2.symm)

theorem length_magnitude_lt {e : Cause} {b : Bool} {s r : List Char} {n : Numeral}
    (h : magnitude e b s = .ok (n, r)) : r.length < s.length := by
  unfold magnitude at h
  split at h
  · simp at h
  · next hw =>
    split at h
    · simp at h
    · next hf =>
      obtain ⟨x, hx, _⟩ := Reading.map_eq_ok h
      have h1 := length_wholePart_lt hw
      have h2 := length_fractionPart_le hf
      have h3 := length_exponentPart_le hx
      omega

/-- A numeral takes some of the text. -/
theorem length_numeral_lt {e : Cause} {s r : List Char} {n : Numeral}
    (h : numeral e s = .ok (n, r)) : r.length < s.length := by
  unfold numeral at h
  split at h
  · have := length_magnitude_lt h
    simp only [List.length_cons]; omega
  · exact length_magnitude_lt h

/-- Evaluating a numeral reads nothing more. -/
theorem rest_evaluate {n : Numeral} {s r : List Char} {x : Number}
    (h : n.evaluate s = .ok (x, r)) : r = s := by
  simp only [Numeral.evaluate, stopped] at h
  repeat' split at h
  all_goals simp_all

theorem length_numberText_lt {s r : List Char} {x : Number} (h : numberText s = .ok (x, r)) :
    r.length < s.length := by
  unfold numberText at h
  split at h
  · simp at h
  · next hn =>
    have h1 := length_numeral_lt hn
    rw [rest_evaluate h]
    exact h1

end DeadLetters.Json
