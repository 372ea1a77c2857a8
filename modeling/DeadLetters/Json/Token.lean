import DeadLetters.Json.Strings
import DeadLetters.Json.Printer
import DeadLetters.Text.Blank

/-!
# Tokens of documents

Documents that are kept for others may be written more freely than JSON allows: with comments, with
any Unicode blank between tokens, with single quotes, with names in place of quoted keys, and with
more ways to write a number.  A token keeps what JSON cannot improve and holds the rest in the
spelling of JSON: `.5` becomes `0.5`, `0x1F` becomes `31`, `\x41` becomes `\u0041`.

Reading never fails; where no token can be read the text ends with the token `junk`.
-/

namespace DeadLetters.Json

inductive Token where
  | openArray
  | closeArray
  | openObject
  | closeObject
  | comma
  | colon
  | null
  /-- A number or a truth value in the spelling of JSON. -/
  | scalar (spelling : List Char)
  /-- A string as it is spelled between two quotes of one kind. -/
  | string (quote : Char) (body : List Char)
  /-- A key without quotes. -/
  | name (letters : List Char)
  /-- The beginning of a text that cannot be read. -/
  | junk

/-! ## Blanks and comments -/

/-- A blank between tokens: a Unicode blank other than the next-line control, or a byte order
mark. -/
def isLooseBlank (c : Char) : Bool := (Text.isBlank c && c ≠ '\u0085') || c = '\uFEFF'

def endsLine (c : Char) : Bool := c = '\n' || c = '\r' || c = '\u2028' || c = '\u2029'

/-- The text behind a line. -/
def behindLine : List Char → List Char
  | [] => []
  | c :: s => if endsLine c then s else behindLine s

/-- The text behind the end of a comment. -/
def behindComment : List Char → Option (List Char)
  | '*' :: '/' :: s => some s
  | _ :: s => behindComment s
  | [] => none

theorem length_behindLine_le (s : List Char) : (behindLine s).length ≤ s.length := by
  induction s with
  | nil => simp [behindLine]
  | cons c s ih =>
    unfold behindLine
    split
    · simp
    · exact Nat.le_succ_of_le ih

theorem length_behindComment_le {s r : List Char} (h : behindComment s = some r) :
    r.length ≤ s.length := by
  fun_induction behindComment s with
  | case1 s => cases h; simp only [List.length_cons]; omega
  | case2 _ _ _ ih => simp only [List.length_cons]; have := ih h; omega
  | case3 => simp at h

/-- The text from its next token on. -/
def skipLoose (s : List Char) : List Char :=
  match s with
  | '/' :: '*' :: r =>
    match _h : behindComment r with
    | some t => skipLoose t
    | none => '/' :: '*' :: r
  | '/' :: '/' :: r => skipLoose (behindLine r)
  | c :: r => if isLooseBlank c then skipLoose r else c :: r
  | [] => []
termination_by s.length
decreasing_by
  · have := length_behindComment_le _h
    simp only [List.length_cons]; omega
  · have := length_behindLine_le r
    simp only [List.length_cons]; omega
  · simp

/-- What lies between two tokens may be nothing. -/
theorem length_skipLoose_le (s : List Char) : (skipLoose s).length ≤ s.length := by
  fun_induction skipLoose s with
  | case1 r t h ih =>
    have := length_behindComment_le h
    simp only [List.length_cons]; omega
  | case2 => simp
  | case3 r ih =>
    have := length_behindLine_le r
    simp only [List.length_cons]; omega
  | case4 _ _ _ _ _ ih => simp only [List.length_cons]; omega
  | case5 => simp
  | case6 => simp

/-! ## Strings -/

def isHexDigit (c : Char) : Bool := (Text.hexDigit? c).isSome

/-- Whether a text starts with this many hexadecimal digits. -/
def startsHex (count : Nat) (s : List Char) : Bool :=
  count ≤ s.length && (s.take count).all isHexDigit

/-- The characters that make an escape with a backslash in front. -/
def looseEscapes : List Char :=
  ['"', '\\', '/', 'b', 'f', 'n', 'r', 't', '\'', '0', 'v', '\n', '\r', '\u2028', '\u2029']

/-- Whether `c`, in front of `s`, makes an escape. -/
def makesEscape (c : Char) (s : List Char) : Bool :=
  looseEscapes.contains c || (c = 'u' && startsHex 4 s) || (c = 'x' && startsHex 2 s)

/-- Reads a string behind its opening quote. -/
def looseString (quote : Char) : List Char → Option (List Char × List Char)
  | '\\' :: '\r' :: '\n' :: s =>
    (looseString quote s).map fun (body, r) => ('\\' :: '\r' :: '\n' :: body, r)
  | '\\' :: c :: s =>
    if makesEscape c s then (looseString quote s).map fun (body, r) => ('\\' :: c :: body, r)
    else none
  | c :: s =>
    if c = quote then some ([], s)
    else if c = '\\' ∨ c.toNat < 0x20 then none
    else (looseString quote s).map fun (body, r) => (c :: body, r)
  | [] => none

/-- The body of a string with the escapes that JSON lacks written in those it has. -/
def plainBody : List Char → List Char
  | '\\' :: '\r' :: '\n' :: s => plainBody s
  | '\\' :: 'x' :: a :: b :: s => '\\' :: 'u' :: '0' :: '0' :: a :: b :: plainBody s
  | '\\' :: c :: s =>
    match c with
    | '\'' => '\'' :: plainBody s
    | 'v' => '\\' :: 'u' :: '0' :: '0' :: '0' :: '9' :: plainBody s
    | '0' => '\\' :: 'u' :: '0' :: '0' :: '0' :: '0' :: plainBody s
    | c => if endsLine c then plainBody s else '\\' :: c :: plainBody s
  | c :: s => c :: plainBody s
  | [] => []

/-- The string that a body spells, as JSON. -/
def plainString (body : List Char) : List Char := '"' :: plainBody body ++ ['"']

/-- A string is read with the quote behind it. -/
theorem length_looseString_lt {q : Char} {s b r : List Char} (h : looseString q s = some (b, r)) :
    r.length < s.length := by
  fun_induction looseString q s generalizing b with
  | case1 s ih =>
    obtain ⟨⟨b', r'⟩, hb, he⟩ := Option.map_eq_some_iff.1 h
    cases he
    have := ih hb
    simp only [List.length_cons]; omega
  | case2 c s _ _ ih =>
    obtain ⟨⟨b', r'⟩, hb, he⟩ := Option.map_eq_some_iff.1 h
    cases he
    have := ih hb
    simp only [List.length_cons]; omega
  | case3 => simp at h
  | case4 => cases h; simp
  | case5 => simp at h
  | case6 c s _ _ _ _ ih =>
    obtain ⟨⟨b', r'⟩, hb, he⟩ := Option.map_eq_some_iff.1 h
    cases he
    have := ih hb
    simp only [List.length_cons]; omega
  | case7 => simp at h

/-! ## Numbers -/

/-- The spelling of a number that JSON has no other way to call infinite. -/
def infinityChars : List Char := "9.0e999".toList

/-- The number of 64 bits, the first of which is its sign, that hexadecimal digits make. -/
def wordChars (digits : List Char) : List Char :=
  let digits := digits.dropWhile (· = '0')
  if 16 < digits.length then infinityChars
  else
    let word := digits.foldl (fun n d => n * 16 + (Text.hexDigit? d).getD 0) 0
    intChars word.toUInt64.toInt64.toInt

def isPointOrExponent (c : Char) : Bool := c = '.' || c = 'e' || c = 'E'

/-- Ends a number, which neither a point nor an exponent may follow. -/
def endNumber (spelling s : List Char) : Option (List Char × List Char) :=
  match s with
  | c :: _ => if isPointOrExponent c then none else some (spelling, s)
  | [] => some (spelling, [])

/-- The sign at the beginning of an exponent. -/
def exponentSign : List Char → List Char
  | '+' :: _ => ['+']
  | '-' :: _ => ['-']
  | _ => []

/-- Reads the exponent of a number, if there is one. -/
def looseExponent (spelling s : List Char) : Option (List Char × List Char) :=
  match s with
  | e :: t =>
    if e = 'e' ∨ e = 'E' then
      let sign := exponentSign t
      let t := t.drop sign.length
      let digits := t.takeWhile Char.isDigit
      if digits = [] then none
      else endNumber (spelling ++ e :: sign ++ digits) (t.dropWhile Char.isDigit)
    else endNumber spelling s
  | [] => endNumber spelling s

/-- Digits; a zero if there are none. -/
def orZero (digits : List Char) : List Char := if digits = [] then ['0'] else digits

/-- Reads a decimal number without its sign. -/
def looseDecimal (s : List Char) : Option (List Char × List Char) :=
  let whole := s.takeWhile Char.isDigit
  if 1 < whole.length ∧ whole.head? = some '0' then none
  else
    match s.dropWhile Char.isDigit with
    | '.' :: t =>
      let fraction := t.takeWhile Char.isDigit
      if whole = [] ∧ fraction = [] then none
      else looseExponent (orZero whole ++ '.' :: orZero fraction) (t.dropWhile Char.isDigit)
    | t => if whole = [] then none else looseExponent whole t

/-- Reads a number without its sign. -/
def looseMagnitude (s : List Char) : Option (List Char × List Char) :=
  match s with
  | '0' :: x :: t =>
    if (x = 'x' ∨ x = 'X') ∧ startsHex 1 t then
      some (wordChars (t.takeWhile isHexDigit), t.dropWhile isHexDigit)
    else looseDecimal s
  | _ => looseDecimal s

/-- The letters and digits that a text starts with, in lower case. -/
def lowerWord (s : List Char) : List Char := (s.takeWhile Char.isAlphanum).map Char.toLower

/-- Reads a number behind a sign. -/
def signedNumber (sign s : List Char) : Option (List Char × List Char) :=
  if "infinity".toList.isPrefixOf (lowerWord s) then some (sign ++ infinityChars, s.drop 8)
  else if "inf".toList.isPrefixOf (lowerWord s) then some (sign ++ infinityChars, s.drop 3)
  else (looseMagnitude s).map fun (spelling, r) => (sign ++ spelling, r)

/-- Reads a number. -/
def looseNumber : List Char → Option (List Char × List Char)
  | '+' :: s => signedNumber [] s
  | '-' :: s => signedNumber ['-'] s
  | s => looseMagnitude s

/-- What ends a number is left in the text. -/
theorem rest_endNumber {a s b r : List Char} (h : endNumber a s = some (b, r)) : r = s := by
  unfold endNumber at h
  split at h
  · split at h
    · simp at h
    · cases h; rfl
  · cases h; rfl

theorem length_dropWhile_le {p : Char → Bool} (s : List Char) :
    (s.dropWhile p).length ≤ s.length :=
  (List.dropWhile_suffix p).length_le

theorem length_looseExponent_le {a s b r : List Char} (h : looseExponent a s = some (b, r)) :
    r.length ≤ s.length := by
  unfold looseExponent at h
  split at h
  · next e t =>
    split at h
    · dsimp only at h
      split at h
      · simp at h
      · rw [rest_endNumber h]
        have h1 := length_dropWhile_le (p := Char.isDigit) (t.drop (exponentSign t).length)
        simp only [List.length_drop] at h1
        simp only [List.length_cons]; omega
    · exact Nat.le_of_eq (congrArg List.length (rest_endNumber h))
  · exact Nat.le_of_eq (congrArg List.length (rest_endNumber h))

theorem length_looseDecimal_lt {s b r : List Char} (h : looseDecimal s = some (b, r)) :
    r.length < s.length := by
  have hd := length_dropWhile_le (p := Char.isDigit) s
  unfold looseDecimal at h
  dsimp only at h
  split at h
  · simp at h
  · split at h
    · next t ht =>
      split at h
      · simp at h
      · have h1 := length_looseExponent_le h
        have h2 := length_dropWhile_le (p := Char.isDigit) t
        rw [ht, List.length_cons] at hd
        omega
    · split at h
      · simp at h
      · next hw =>
        have h1 := length_looseExponent_le h
        have h2 :=
          congrArg List.length (List.takeWhile_append_dropWhile (p := Char.isDigit) (l := s))
        have h3 := List.length_pos_iff.2 hw
        simp only [List.length_append] at h2
        omega

theorem length_looseMagnitude_lt {s b r : List Char} (h : looseMagnitude s = some (b, r)) :
    r.length < s.length := by
  unfold looseMagnitude at h
  split at h
  · split at h
    · next t _ =>
      cases h
      have := length_dropWhile_le (p := isHexDigit) t
      simp only [List.length_cons]; omega
    · exact length_looseDecimal_lt h
  · exact length_looseDecimal_lt h

theorem length_signedNumber_le {a s b r : List Char} (h : signedNumber a s = some (b, r)) :
    r.length ≤ s.length := by
  unfold signedNumber at h
  split at h
  · cases h; simp
  · split at h
    · cases h; simp
    · obtain ⟨⟨c, t⟩, hm, he⟩ := Option.map_eq_some_iff.1 h
      cases he
      exact Nat.le_of_lt (length_looseMagnitude_lt hm)

theorem length_looseNumber_lt {s b r : List Char} (h : looseNumber s = some (b, r)) :
    r.length < s.length := by
  unfold looseNumber at h
  split at h
  · have := length_signedNumber_le h
    simp only [List.length_cons]; omega
  · have := length_signedNumber_le h
    simp only [List.length_cons]; omega
  · exact length_looseMagnitude_lt h

/-! ## Words -/

/-- What a word of letters and digits stands for, if it is no name. -/
def wordToken? (word : List Char) : Option Token :=
  match String.ofList word with
  | "null" => some .null
  | "true" | "false" => some (.scalar word)
  | _ =>
    match String.ofList (word.map Char.toLower) with
    | "inf" | "infinity" => some (.scalar infinityChars)
    | "nan" | "qnan" | "snan" => some .null
    | _ => none

/-- A character of a name. -/
def isNameChar (c : Char) : Bool :=
  c.isAlphanum || c = '_' || c = '$' || (127 < c.toNat && !isLooseBlank c)

/-- Splits a text behind the name that it starts with.  A name may hold escapes of UTF-16 units. -/
def splitName : List Char → List Char × List Char
  | '\\' :: 'u' :: s =>
    if startsHex 4 s then
      let (letters, r) := splitName s
      ('\\' :: 'u' :: letters, r)
    else ([], '\\' :: 'u' :: s)
  | c :: s =>
    if isNameChar c then
      let (letters, r) := splitName s
      (c :: letters, r)
    else ([], c :: s)
  | [] => ([], [])

/-- A name and what follows it are as long as the text. -/
theorem length_splitName (s : List Char) :
    (splitName s).1.length + (splitName s).2.length = s.length := by
  fun_induction splitName s <;> simp_all <;> omega

/-- Reads a word or a name. -/
def wordOrName (s : List Char) : Token × List Char :=
  match wordToken? (s.takeWhile Char.isAlphanum) with
  | some t => (t, s.dropWhile Char.isAlphanum)
  | none =>
    match splitName s with
    | ([], _) => (.junk, [])
    | (letters, r) => (.name letters, r)

theorem length_wordOrName_lt {c : Char} {s : List Char} :
    (wordOrName (c :: s)).2.length < (c :: s).length := by
  unfold wordOrName
  split
  · next t h =>
    by_cases hc : c.isAlphanum = true
    · have := length_dropWhile_le (p := Char.isAlphanum) s
      simp only [List.dropWhile_cons, hc, if_true, List.length_cons]; omega
    · simp [hc, wordToken?] at h
  · have h := length_splitName (c :: s)
    split
    · simp
    · next letters r hne hs =>
      have h2 := List.length_pos_iff.2 hne
      rw [hs] at h
      simp only [List.length_cons] at h ⊢
      omega

/-! ## Texts -/

/-- Reads the first token of a text that starts with `c`. -/
def firstToken (c : Char) (s : List Char) : Token × List Char :=
  if c = '[' then (.openArray, s)
  else if c = ']' then (.closeArray, s)
  else if c = '\x7b' then (.openObject, s)
  else if c = '\x7d' then (.closeObject, s)
  else if c = ',' then (.comma, s)
  else if c = ':' then (.colon, s)
  else if c = '"' ∨ c = '\'' then
    match looseString c s with
    | some (body, r) => (.string c body, r)
    | none => (.junk, [])
  else if c.isDigit ∨ c = '+' ∨ c = '-' ∨ c = '.' then
    match looseNumber (c :: s) with
    | some (spelling, r) => (.scalar spelling, r)
    | none => (.junk, [])
  else wordOrName (c :: s)

/-- Any character begins a token, if only a faulty one: tokens come to an end. -/
theorem length_firstToken_lt (c : Char) (s : List Char) :
    (firstToken c s).2.length < (c :: s).length := by
  unfold firstToken
  repeat' split
  all_goals try simp
  · next h => have := length_looseString_lt h; omega
  · next h =>
    have := length_looseNumber_lt h
    simpa using this
  · simpa using length_wordOrName_lt (c := c) (s := s)

/-- The tokens of a text. -/
def tokens (s : List Char) : List Token :=
  match _h : skipLoose s with
  | [] => []
  | c :: r => (firstToken c r).1 :: tokens (firstToken c r).2
termination_by s.length
decreasing_by
  have h1 := length_firstToken_lt c r
  have h2 := length_skipLoose_le s
  rw [_h] at h2
  omega

end DeadLetters.Json
