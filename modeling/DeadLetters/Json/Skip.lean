import DeadLetters.Json.Strings
import DeadLetters.Json.Numbers

/-!
# Skipping a value

A value that nobody asked for is only skipped: its syntax is checked, but neither its depth nor the
range of its numbers nor its surrogates.  The open brackets around the current point are kept on a
stack, so nesting costs no recursion.
-/

namespace DeadLetters.Json

inductive Bracket where
  | list
  | object

/-- What the skipper looks for next. -/
inductive Expecting where
  /-- A value. -/
  | value
  /-- The key of a member. -/
  | key
  /-- What may follow a value: a comma, or the end of the innermost bracket. -/
  | more

/-- Skips a string, behind its quote, and the colon that follows it. -/
def skipKey (s : List Char) : Reading Unit :=
  match skipString s with
  | .error f => .error f
  | .ok (_, r) =>
    match skipGap r with
    | [] => stopped .endInObject []
    | ':' :: t => .ok ((), t)
    | c :: t => unfit .expectedColon (c :: t)

/-- Skips a value without parts: a word, a number or a string. -/
def skipScalar : List Char → Reading Unit
  | [] => stopped .endInValue []
  | 'n' :: s => letters ['u', 'l', 'l'] s
  | 't' :: s => letters ['r', 'u', 'e'] s
  | 'f' :: s => letters ['a', 'l', 's', 'e'] s
  | '"' :: s => skipString s
  | c :: s =>
    if c = '-' ∨ c.isDigit then (numeral .invalidNumber (c :: s)).map fun _ => ()
    else unfit .expectedValue (c :: s)

theorem length_skipKey_lt {s r : List Char} {u : Unit} (h : skipKey s = .ok (u, r)) :
    r.length < s.length := by
  unfold skipKey at h
  split at h
  · simp at h
  · next t hs =>
    have h1 := length_skipString_lt hs
    have h2 := length_skipGap_le t
    split at h
    · simp [stopped] at h
    · next ht =>
      simp only [Except.ok.injEq, Prod.mk.injEq] at h
      rw [ht, List.length_cons] at h2
      rw [← h.2]; omega
    · simp [unfit] at h

theorem length_skipScalar_lt {s r : List Char} {u : Unit} (h : skipScalar s = .ok (u, r)) :
    r.length < s.length := by
  unfold skipScalar at h
  split at h
  · simp [stopped] at h
  · have := length_letters_le h
    simp only [List.length_cons]; omega
  · have := length_letters_le h
    simp only [List.length_cons]; omega
  · have := length_letters_le h
    simp only [List.length_cons]; omega
  · have := length_skipString_lt h
    simp only [List.length_cons]; omega
  · split at h
    · obtain ⟨n, hn, _⟩ := Reading.map_eq_ok h
      exact length_numeral_lt hn
    · simp [unfit] at h

/-- Skips to the end of the outermost value, from a point inside the brackets of `stack`. -/
def skipIn (stack : List Bracket) (next : Expecting) (s : List Char) : Reading Unit :=
  match next, stack, _hs : skipGap s with
  | .value, stack, '[' :: r =>
    match _hr : skipGap r with
    | [] => stopped .endInList []
    | ']' :: t => skipIn stack .more t
    | c :: t => skipIn (.list :: stack) .value (c :: t)
  | .value, stack, '\x7b' :: r =>
    match _hr : skipGap r with
    | [] => stopped .endInObject []
    | '\x7d' :: t => skipIn stack .more t
    | c :: t => skipIn (.object :: stack) .key (c :: t)
  | .value, stack, t =>
    match _ht : skipScalar t with
    | .error f => .error f
    | .ok (_, r) => skipIn stack .more r
  | .key, _, [] => stopped .endInObject []
  | .key, stack, '"' :: t =>
    match _ht : skipKey t with
    | .error f => .error f
    | .ok (_, r) => skipIn stack .value r
  | .key, _, c :: t => unfit .keyNotString (c :: t)
  | .more, [], _ => .ok ((), s)
  | .more, .list :: _, [] => stopped .endInList []
  | .more, .object :: _, [] => stopped .endInObject []
  | .more, .list :: stack, ',' :: t => skipIn (.list :: stack) .value t
  | .more, .object :: stack, ',' :: t => skipIn (.object :: stack) .key t
  | .more, .list :: stack, ']' :: t => skipIn stack .more t
  | .more, .object :: stack, '\x7d' :: t => skipIn stack .more t
  | .more, .list :: _, c :: t => unfit .expectedListEnd (c :: t)
  | .more, .object :: _, c :: t => unfit .expectedObjectEnd (c :: t)
termination_by s.length
decreasing_by
  all_goals
    have hs := length_skipGap_le s
    try have hr := length_skipGap_le r
    try have ht := length_skipScalar_lt _ht
    try have ht := length_skipKey_lt _ht
    simp_all only [List.length_cons]
    omega

/-- Skips a value. -/
def skipValue (s : List Char) : Reading Unit := skipIn [] .value s

/-- What can be skipped consumes text, but for the point behind a whole value. -/
theorem length_skipIn {stack : List Bracket} {next : Expecting} {s r : List Char} {u : Unit}
    (h : skipIn stack next s = .ok (u, r)) :
    r.length ≤ s.length ∧ (next ≠ .more → r.length < s.length) := by
  fun_induction skipIn stack next s <;>
    grind [stopped, unfit, length_skipGap_le, → length_skipScalar_lt, → length_skipKey_lt]

/-- A value that is skipped takes some of the text. -/
theorem length_skipValue_lt {s r : List Char} {u : Unit} (h : skipValue s = .ok (u, r)) :
    r.length < s.length :=
  (length_skipIn h).2 nofun

end DeadLetters.Json
