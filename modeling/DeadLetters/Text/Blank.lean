/-!
# Blank characters

A character is *blank* when it has the Unicode property `White_Space`.  A text is blank when all of
its characters are, and `trim` drops the blank characters at both ends:

    isBlankText s ↔ every character of s is blank ↔ trim s = ""          (trim_eq_empty_iff)
    isBlankText (trim s) = isBlankText s                                  (isBlankText_trim)
-/

namespace DeadLetters.Text

/-- The code points of the Unicode property `White_Space`. -/
def blankPoints : List Nat :=
  [0x09, 0x0A, 0x0B, 0x0C, 0x0D, 0x20, 0x85, 0xA0, 0x1680,
   0x2000, 0x2001, 0x2002, 0x2003, 0x2004, 0x2005, 0x2006, 0x2007, 0x2008, 0x2009, 0x200A,
   0x2028, 0x2029, 0x202F, 0x205F, 0x3000]

def isBlank (c : Char) : Bool := blankPoints.contains c.toNat

/-- `cs` without the blank characters at its two ends. -/
def trimChars (cs : List Char) : List Char :=
  ((cs.dropWhile isBlank).reverse.dropWhile isBlank).reverse

/-- `s` without the blank characters at its two ends. -/
def trim (s : String) : String := String.ofList (trimChars s.toList)

/-- No character of `s` can be seen. -/
def isBlankText (s : String) : Bool := s.toList.all isBlank

/-! ## Lemmas -/

theorem dropWhile_isBlank_eq_nil_iff (cs : List Char) :
    cs.dropWhile isBlank = [] ↔ cs.all isBlank = true := by
  induction cs with
  | nil => simp
  | cons c cs ih => by_cases h : isBlank c = true <;> simp [h, ih]

theorem trimChars_eq_nil_iff (cs : List Char) : trimChars cs = [] ↔ cs.all isBlank = true := by
  constructor
  · intro h
    have h1 : (cs.dropWhile isBlank).reverse.all isBlank = true := by
      rw [← dropWhile_isBlank_eq_nil_iff]
      simpa [trimChars] using h
    have h2 : (cs.dropWhile isBlank).all isBlank = true := by simpa using h1
    cases hd : cs.dropWhile isBlank with
    | nil => exact (dropWhile_isBlank_eq_nil_iff cs).1 hd
    | cons c r =>
      have hc : isBlank c = true := by
        rw [hd] at h2
        simp at h2
        exact h2.1
      have hn := List.head_dropWhile_not (p := isBlank) (l := cs) (by simp [hd])
      simp [hd, hc] at hn
  · intro h
    simp [trimChars, (dropWhile_isBlank_eq_nil_iff cs).2 h]

/-- Nothing is left of a blank text, and something of any other. -/
theorem trim_eq_empty_iff (s : String) : trim s = "" ↔ isBlankText s = true := by
  rw [isBlankText, ← trimChars_eq_nil_iff, trim]
  constructor
  · intro h
    have := congrArg String.toList h
    simpa using this
  · intro h
    simp [h]

/-- Trimming takes blanks only. -/
theorem mem_dropWhile_isBlank {c : Char} {cs : List Char} (hc : c ∈ cs) (h : isBlank c = false) :
    c ∈ cs.dropWhile isBlank := by
  induction cs with
  | nil => exact hc
  | cons d cs ih =>
    rw [List.dropWhile_cons]
    split
    · next hd =>
      rcases List.mem_cons.1 hc with rfl | hc
      · simp [h] at hd
      · exact ih hc
    · exact hc

/-- What can be seen of a text is not trimmed. -/
theorem isBlankText_trim (s : String) : isBlankText (trim s) = isBlankText s := by
  have hs : (trim s).toList = trimChars s.toList := by simp [trim]
  rw [isBlankText, isBlankText, hs]
  cases hb : s.toList.all isBlank with
  | true =>
    rw [(trimChars_eq_nil_iff _).2 hb]
    rfl
  | false =>
    obtain ⟨c, hc, hn⟩ := List.all_eq_false.1 hb
    have hn : isBlank c = false := by simpa using hn
    refine List.all_eq_false.2 ⟨c, ?_, by simp [hn]⟩
    have hfirst := List.mem_reverse.2 (mem_dropWhile_isBlank hc hn)
    exact List.mem_reverse.2 (mem_dropWhile_isBlank hfirst hn)

end DeadLetters.Text
