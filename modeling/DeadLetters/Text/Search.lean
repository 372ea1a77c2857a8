/-!
# Searching a text
-/

namespace DeadLetters.Text

/-- Whether `needle` stands somewhere in `cs`. -/
def occursIn (needle : List Char) : List Char → Bool
  | [] => needle.isEmpty
  | c :: cs => needle.isPrefixOf (c :: cs) || occursIn needle cs

/-- Whether `s` contains `needle`. -/
def contains (s needle : String) : Bool := occursIn needle.toList s.toList

/-- The parts of a text before and behind its first `c`; there is no second part without a `c`. -/
def cut (c : Char) (cs : List Char) : List Char × Option (List Char) :=
  match cs.dropWhile (· ≠ c) with
  | [] => (cs, none)
  | _ :: r => (cs.takeWhile (· ≠ c), some r)

/-! ## Lemmas -/

/-- A text occurs in another if that goes on with it from some place. -/
theorem occursIn_iff (needle cs : List Char) :
    occursIn needle cs = true ↔ ∃ before after, cs = before ++ needle ++ after := by
  induction cs with
  | nil =>
    simp only [occursIn, List.isEmpty_iff]
    constructor
    · rintro rfl
      exact ⟨[], [], rfl⟩
    · rintro ⟨b, a, h⟩
      simp_all
  | cons c cs ih =>
    simp only [occursIn, Bool.or_eq_true, List.isPrefixOf_iff_prefix, ih]
    constructor
    · rintro (⟨a, h⟩ | ⟨b, a, h⟩)
      · exact ⟨[], a, by simpa using h.symm⟩
      · exact ⟨c :: b, a, by simp [h]⟩
    · rintro ⟨b, a, h⟩
      cases b with
      | nil => exact .inl ⟨a, by simpa using h.symm⟩
      | cons d b => exact .inr ⟨b, a, by simp_all⟩

end DeadLetters.Text
