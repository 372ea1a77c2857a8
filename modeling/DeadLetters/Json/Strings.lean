import DeadLetters.Json.Reader
import DeadLetters.Text.Numeral

/-!
# Strings in a JSON text

The characters between two double quotes.  A backslash starts an escape: a letter for a character,
or `u` and four hexadecimal digits for a UTF-16 unit; a leading surrogate must be followed by the
escape of a trailing one.  Control characters below U+0020 may stand in a string only as escapes.

Skipping a string checks the same syntax but not which units its hexadecimal escapes name.
-/

namespace DeadLetters.Json

/-- The number of bytes of a text. -/
def byteCount : List Char → Nat
  | [] => 0
  | c :: s => c.utf8Size + byteCount s

/-- The number written by four hexadecimal digits. -/
def hexUnit? (a b c d : Char) : Option Nat := do
  let a ← Text.hexDigit? a
  let b ← Text.hexDigit? b
  let c ← Text.hexDigit? c
  let d ← Text.hexDigit? d
  return ((a * 16 + b) * 16 + c) * 16 + d

/-- The fault of a text that should start with four hexadecimal digits. -/
def badUnit {α : Type} (s : List Char) : Reading α :=
  if 4 ≤ byteCount s then .error ⟨.invalidEscape, s, 4⟩ else stopped .endInString []

/-- Reads a UTF-16 unit: exactly four bytes, all of them hexadecimal digits. -/
def hexUnit : List Char → Reading Nat
  | a :: b :: c :: d :: r =>
    match hexUnit? a b c d with
    | some n => .ok (n, r)
    | none => badUnit (a :: b :: c :: d :: r)
  | s => badUnit s

def isLeading (n : Nat) : Bool := 0xD800 ≤ n && n ≤ 0xDBFF

def isTrailing (n : Nat) : Bool := 0xDC00 ≤ n && n ≤ 0xDFFF

/-- The character of two surrogates. -/
def pairOf (leading trailing : Nat) : Char :=
  Char.ofNat ((leading - 0xD800) * 0x400 + (trailing - 0xDC00) + 0x10000)

/-- Reads the trailing half of a surrogate pair. -/
def trailingUnit (leading : Nat) : List Char → Reading Char
  | [] => stopped .endInString []
  | ['\\'] => stopped .endInString []
  | '\\' :: 'u' :: s =>
    match hexUnit s with
    | .error f => .error f
    | .ok (n, r) => if isTrailing n then .ok (pairOf leading n, r) else stopped .loneSurrogate r
  | '\\' :: c :: s => unfit .unfinishedSurrogatePair (c :: s)
  | c :: s => unfit .unfinishedSurrogatePair (c :: s)

/-- The character of a one-letter escape. -/
def letterEscape? : Char → Option Char
  | '"' => some '"'
  | '\\' => some '\\'
  | '/' => some '/'
  | 'b' => some '\x08'
  | 'f' => some '\x0c'
  | 'n' => some '\n'
  | 'r' => some '\r'
  | 't' => some '\t'
  | _ => none

/-- Reads the rest of an escape, behind its backslash. -/
def escape : List Char → Reading Char
  | [] => stopped .endInString []
  | 'u' :: s =>
    match hexUnit s with
    | .error f => .error f
    | .ok (n, r) =>
      if isTrailing n then stopped .loneSurrogate r
      else if isLeading n then trailingUnit n r
      else .ok (Char.ofNat n, r)
  | c :: s =>
    match letterEscape? c with
    | some d => .ok (d, s)
    | none => unfit .invalidEscape (c :: s)

/-- Skips the rest of an escape, behind its backslash. -/
def skipEscape : List Char → Reading Unit
  | [] => stopped .endInString []
  | 'u' :: s => (hexUnit s).map fun _ => ()
  | c :: s => if (letterEscape? c).isSome then .ok ((), s) else unfit .invalidEscape (c :: s)

/-! ## Escapes consume text -/

theorem length_hexUnit_lt {s r : List Char} {n : Nat} (h : hexUnit s = .ok (n, r)) :
    r.length < s.length := by
  unfold hexUnit at h
  split at h
  · split at h
    · simp only [Except.ok.injEq, Prod.mk.injEq] at h
      simp only [← h.2, List.length_cons]; omega
    · simp only [badUnit, stopped] at h; split at h <;> simp at h
  · simp only [badUnit, stopped] at h; split at h <;> simp at h

theorem length_trailingUnit_lt {l : Nat} {s r : List Char} {c : Char}
    (h : trailingUnit l s = .ok (c, r)) : r.length < s.length := by
  unfold trailingUnit at h
  split at h
  · simp [stopped] at h
  · simp [stopped] at h
  · split at h
    · simp at h
    · next n r' hu =>
      split at h
      · simp only [Except.ok.injEq, Prod.mk.injEq] at h
        have := length_hexUnit_lt hu
        simp only [List.length_cons, ← h.2]; omega
      · simp [stopped] at h
  · simp [unfit] at h
  · simp [unfit] at h

/-- An escape takes at least its letter. -/
theorem length_escape_lt {s r : List Char} {c : Char} (h : escape s = .ok (c, r)) :
    r.length < s.length := by
  unfold escape at h
  split at h
  · simp [stopped] at h
  · split at h
    · simp at h
    · next n r' hu =>
      have h1 := length_hexUnit_lt hu
      split at h
      · simp [stopped] at h
      · split at h
        · have := length_trailingUnit_lt h
          simp only [List.length_cons]; omega
        · simp only [Except.ok.injEq, Prod.mk.injEq] at h
          simp only [List.length_cons, ← h.2]; omega
  · split at h
    · simp only [Except.ok.injEq, Prod.mk.injEq] at h
      simp [← h.2]
    · simp [unfit] at h

theorem length_skipEscape_lt {s r : List Char} {u : Unit} (h : skipEscape s = .ok (u, r)) :
    r.length < s.length := by
  unfold skipEscape at h
  split at h
  · simp [stopped] at h
  · obtain ⟨n, hn, _⟩ := Reading.map_eq_ok h
    have := length_hexUnit_lt hn
    simp only [List.length_cons]; omega
  · split at h
    · simp only [Except.ok.injEq, Prod.mk.injEq] at h
      simp [← h.2]
    · simp [unfit] at h

/-! ## Whole strings -/

/-- Reads a string behind its opening quote. -/
def stringBody (s : List Char) : Reading (List Char) :=
  match s with
  | [] => stopped .endInString []
  | '"' :: r => .ok ([], r)
  | '\\' :: r =>
    match _h : escape r with
    | .error f => .error f
    | .ok (c, r') => (stringBody r').map (c :: ·)
  | c :: r =>
    if c.toNat < 0x20 then unfit .controlCharacter (c :: r) else (stringBody r).map (c :: ·)
termination_by s.length
decreasing_by
  · have := length_escape_lt _h
    simp only [List.length_cons]; omega
  · simp

/-- Skips a string behind its opening quote. -/
def skipString (s : List Char) : Reading Unit :=
  match s with
  | [] => stopped .endInString []
  | '"' :: r => .ok ((), r)
  | '\\' :: r =>
    match _h : skipEscape r with
    | .error f => .error f
    | .ok (_, r') => skipString r'
  | c :: r => if c.toNat < 0x20 then stopped .controlCharacter (c :: r) else skipString r
termination_by s.length
decreasing_by
  · have := length_skipEscape_lt _h
    simp only [List.length_cons]; omega
  · simp

/-- A string is read with the quote behind it. -/
theorem length_stringBody_lt {s r cs : List Char} (h : stringBody s = .ok (cs, r)) :
    r.length < s.length := by
  fun_induction stringBody s generalizing cs with
  | case1 => simp [stopped] at h
  | case2 r' => simp only [Except.ok.injEq, Prod.mk.injEq] at h; simp [← h.2]
  | case3 => simp at h
  | case4 r' c r'' he ih =>
    obtain ⟨cs', hs, _⟩ := Reading.map_eq_ok h
    have h1 := ih hs
    have h2 := length_escape_lt he
    simp only [List.length_cons]; omega
  | case5 => simp [unfit] at h
  | case6 c r' _ _ _ ih =>
    obtain ⟨cs', hs, _⟩ := Reading.map_eq_ok h
    have h1 := ih hs
    simp only [List.length_cons]; omega

theorem length_skipString_lt {s r : List Char} {u : Unit} (h : skipString s = .ok (u, r)) :
    r.length < s.length := by
  fun_induction skipString s with
  | case1 => simp [stopped] at h
  | case2 r' => simp only [Except.ok.injEq, Prod.mk.injEq] at h; simp [← h.2]
  | case3 => simp at h
  | case4 r' c r'' he ih =>
    have h1 := ih h
    have h2 := length_skipEscape_lt he
    simp only [List.length_cons]; omega
  | case5 => simp [stopped] at h
  | case6 c r' _ _ _ ih =>
    have h1 := ih h
    simp only [List.length_cons]; omega

end DeadLetters.Json
