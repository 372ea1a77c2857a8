import DeadLetters.Json.Error

/-!
# Readers

A reader takes a text, given as the list of its characters, and either stops with a fault or returns
what it read and the text that is left.  Every reader consumes at least one character; the fact is
part of its type, so that a loop over a reader ends because the text gets shorter.
-/

namespace DeadLetters.Json

/-- What was read and the text that is left, or the fault that ended reading. -/
abbrev Reading (α : Type) := Except Fault (α × List Char)

structure Reader (α : Type) where
  run : List Char → Reading α
  shrinks : ∀ {s a r}, run s = .ok (a, r) → r.length < s.length

/-- The fault of a text whose next character does not fit. -/
def unfit {α : Type} (cause : Cause) (s : List Char) : Reading α := .error ⟨cause, s, 1⟩

/-- The fault that lies behind the last character consumed. -/
def stopped {α : Type} (cause : Cause) (s : List Char) : Reading α := .error ⟨cause, s, 0⟩

namespace Reading

variable {α β : Type}

def map (f : α → β) : Reading α → Reading β
  | .ok (a, r) => .ok (f a, r)
  | .error e => .error e

/-- What is mapped behind reading takes no text. -/
theorem map_eq_ok {f : α → β} {x : Reading α} {b : β} {r : List Char}
    (h : x.map f = .ok (b, r)) : ∃ a, x = .ok (a, r) ∧ f a = b := by
  match x, h with
  | .ok (a, r'), h =>
    simp only [map, Except.ok.injEq, Prod.mk.injEq] at h
    exact ⟨a, by simp [h.2], h.1⟩

end Reading

/-! ## Blanks -/

/-- The four characters that may stand between the tokens of a JSON text. -/
def isGap (c : Char) : Bool := c = ' ' || c = '\n' || c = '\t' || c = '\r'

/-- The text from its next token on. -/
def skipGap (s : List Char) : List Char := s.dropWhile isGap

theorem length_skipGap_le (s : List Char) : (skipGap s).length ≤ s.length :=
  (List.dropWhile_suffix isGap).length_le

/-! ## Words -/

/-- Reads the remaining letters of a word of the grammar. -/
def letters : List Char → List Char → Reading Unit
  | [], s => .ok ((), s)
  | _ :: _, [] => stopped .endInValue []
  | w :: ws, c :: s => if c = w then letters ws s else unfit .expectedIdent (c :: s)

/-- A word of no letters takes nothing. -/
theorem length_letters_le {ws s r : List Char} {u : Unit} (h : letters ws s = .ok (u, r)) :
    r.length ≤ s.length := by
  fun_induction letters ws s with
  | case1 s => simp_all
  | case2 => simp [stopped] at h
  | case3 _ _ _ ih => simp only [List.length_cons]; have := ih h; omega
  | case4 => simp [unfit] at h

end DeadLetters.Json
