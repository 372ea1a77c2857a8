import DeadLetters.Json.Strings
import DeadLetters.Json.Numbers

/-!
# Parsing a JSON text

Lists and objects are read by two small steps, `nextItem` and `nextKey`, which look for the next
element or for the closing bracket, and by loops over a reader for the elements.  A generic value
may be nested at most 127 levels deep; of the members of an object with one key the last counts.

    parse r text = .ok a  exactly when `r` reads `a` from `text` and leaves a gap  (parse_eq_ok_iff)
-/

namespace DeadLetters.Json

/-! ## Steps -/

/-- Looks for the next item of a list: `true` in front of an item, `false` behind the bracket. -/
def nextItem (first : Bool) (s : List Char) : Reading Bool :=
  match skipGap s with
  | [] => stopped .endInList []
  | ']' :: r => .ok (false, r)
  | c :: r =>
    if first then .ok (true, c :: r)
    else if c = ',' then
      match skipGap r with
      | [] => stopped .endInValue []
      | ']' :: t => unfit .trailingComma (']' :: t)
      | t => .ok (true, t)
    else unfit .expectedListEnd (c :: r)

/-- Looks for the next key of an object: `true` behind its opening quote, `false` behind the
bracket. -/
def nextKey (first : Bool) (s : List Char) : Reading Bool :=
  match skipGap s with
  | [] => stopped .endInObject []
  | '\x7d' :: r => .ok (false, r)
  | c :: r =>
    if first then
      if c = '"' then .ok (true, r) else unfit .keyNotString (c :: r)
    else if c = ',' then
      match skipGap r with
      | [] => stopped .endInValue []
      | '"' :: t => .ok (true, t)
      | '\x7d' :: t => unfit .trailingComma ('\x7d' :: t)
      | t => unfit .keyNotString t
    else unfit .expectedObjectEnd (c :: r)

/-- Reads the colon between a key and its value. -/
def colon (s : List Char) : Reading Unit :=
  match skipGap s with
  | [] => stopped .endInObject []
  | ':' :: r => .ok ((), r)
  | c :: r => unfit .expectedColon (c :: r)

/-- In front of the first item nothing is taken. -/
theorem length_nextItem_le {b c : Bool} {s r : List Char} (h : nextItem b s = .ok (c, r)) :
    r.length ≤ s.length := by
  grind [nextItem, stopped, unfit, length_skipGap_le]

/-- The bracket that ends a list is taken. -/
theorem length_nextItem_lt {b : Bool} {s r : List Char} (h : nextItem b s = .ok (false, r)) :
    r.length < s.length := by
  grind [nextItem, stopped, unfit, length_skipGap_le]

theorem length_nextKey_lt {b c : Bool} {s r : List Char} (h : nextKey b s = .ok (c, r)) :
    r.length < s.length := by
  grind [nextKey, stopped, unfit, length_skipGap_le]

theorem length_colon_lt {s r : List Char} {u : Unit} (h : colon s = .ok (u, r)) :
    r.length < s.length := by
  grind [colon, stopped, unfit, length_skipGap_le]

/-! ## Loops -/

variable {α κ : Type}

/-- Reads items up to the closing bracket. -/
def items (item : Reader α) (first : Bool) (s : List Char) : Reading (List α) :=
  match _h : nextItem first s with
  | .error f => .error f
  | .ok (false, r) => .ok ([], r)
  | .ok (true, r) =>
    match _h' : item.run r with
    | .error f => .error f
    | .ok (a, t) => (items item false t).map (a :: ·)
termination_by s.length
decreasing_by
  have h1 := length_nextItem_le _h
  have h2 := item.shrinks _h'
  omega

/-- Reads a member behind the opening quote of its key. -/
def member (key : Reader κ) (value : Reader α) (s : List Char) : Reading (κ × α) :=
  match key.run s with
  | .error f => .error f
  | .ok (k, r) =>
    match colon r with
    | .error f => .error f
    | .ok (_, t) => (value.run t).map fun v => (k, v)

theorem length_member_lt {key : Reader κ} {value : Reader α} {s r : List Char} {m : κ × α}
    (h : member key value s = .ok (m, r)) : r.length < s.length := by
  unfold member at h
  split at h
  · simp at h
  · next hk =>
    split at h
    · simp at h
    · next hc =>
      obtain ⟨v, hv, _⟩ := Reading.map_eq_ok h
      have h1 := key.shrinks hk
      have h2 := length_colon_lt hc
      have h3 := value.shrinks hv
      omega

/-- Reads members up to the closing bracket, in the order of the text. -/
def members (key : Reader κ) (value : Reader α) (first : Bool) (s : List Char) :
    Reading (List (κ × α)) :=
  match _h : nextKey first s with
  | .error f => .error f
  | .ok (false, r) => .ok ([], r)
  | .ok (true, r) =>
    match _h' : member key value r with
    | .error f => .error f
    | .ok (m, t) => (members key value false t).map (m :: ·)
termination_by s.length
decreasing_by
  have h1 := length_nextKey_lt _h
  have h2 := length_member_lt _h'
  omega

/-- Items are read with the bracket behind them, so that no list takes nothing. -/
theorem length_items_lt {item : Reader α} {b : Bool} {s r : List Char} {as : List α}
    (h : items item b s = .ok (as, r)) : r.length < s.length := by
  fun_induction items item b s generalizing as with
  | case1 => simp at h
  | case2 b s r' hn =>
    simp only [Except.ok.injEq, Prod.mk.injEq] at h
    exact h.2 ▸ length_nextItem_lt hn
  | case3 => simp at h
  | case4 b s r' hn a t hi ih =>
    obtain ⟨as', has, _⟩ := Reading.map_eq_ok h
    have h1 := length_nextItem_le hn
    have h2 := item.shrinks hi
    have h3 := ih has
    omega

theorem length_members_lt {key : Reader κ} {value : Reader α} {b : Bool} {s r : List Char}
    {ms : List (κ × α)} (h : members key value b s = .ok (ms, r)) : r.length < s.length := by
  fun_induction members key value b s generalizing ms with
  | case1 => simp at h
  | case2 b s r' hn =>
    simp only [Except.ok.injEq, Prod.mk.injEq] at h
    exact h.2 ▸ length_nextKey_lt hn
  | case3 => simp at h
  | case4 b s r' hn m t hm ih =>
    obtain ⟨ms', hms, _⟩ := Reading.map_eq_ok h
    have h1 := length_nextKey_lt hn
    have h2 := length_member_lt hm
    have h3 := ih hms
    omega

/-! ## Generic values -/

/-- A string behind its opening quote. -/
def stringTail : Reader String where
  run s := (stringBody s).map String.ofList
  shrinks h := by
    obtain ⟨cs, hc, _⟩ := Reading.map_eq_ok h
    exact length_stringBody_lt hc

/-- Reads a value without parts from a text that starts with its first character. -/
def scalar : List Char → Reading Value
  | [] => stopped .endInValue []
  | 'n' :: s => (letters ['u', 'l', 'l'] s).map fun _ => .null
  | 't' :: s => (letters ['r', 'u', 'e'] s).map fun _ => .bool true
  | 'f' :: s => (letters ['a', 'l', 's', 'e'] s).map fun _ => .bool false
  | '"' :: s => (stringTail.run s).map .string
  | c :: s =>
    if c = '-' ∨ c.isDigit then (numberText (c :: s)).map .number
    else unfit .expectedValue (c :: s)

theorem length_scalar_lt {s r : List Char} {v : Value} (h : scalar s = .ok (v, r)) :
    r.length < s.length := by
  unfold scalar at h
  split at h
  · simp [stopped] at h
  all_goals try
    obtain ⟨u, hu, _⟩ := Reading.map_eq_ok h
    have := length_letters_le hu
    simp only [List.length_cons]; omega
  · obtain ⟨u, hu, _⟩ := Reading.map_eq_ok h
    have := stringTail.shrinks hu
    simp only [List.length_cons]; omega
  · split at h
    · obtain ⟨n, hn, _⟩ := Reading.map_eq_ok h
      exact length_numberText_lt hn
    · simp [unfit] at h

/-- Reads a value whose parts are read by `inner`; without one, brackets are refused. -/
def valueWith (inner : Option (Reader Value)) (s : List Char) : Reading Value :=
  match skipGap s, inner with
  | '[' :: r, some inner => (items inner true r).map .array
  | '\x7b' :: r, some inner =>
    (members stringTail inner true r).map fun ms => .object (Entries.ofList ms)
  | '[' :: r, none => unfit .tooDeep ('[' :: r)
  | '\x7b' :: r, none => unfit .tooDeep ('\x7b' :: r)
  | t, _ => scalar t

/-- A value takes some of the text, whatever reads the values inside it. -/
theorem length_valueWith_lt {inner : Option (Reader Value)} {s r : List Char} {v : Value}
    (h : valueWith inner s = .ok (v, r)) : r.length < s.length := by
  have hs := length_skipGap_le s
  unfold valueWith at h
  split at h
  · next ht =>
    obtain ⟨as, ha, _⟩ := Reading.map_eq_ok h
    have := length_items_lt ha
    rw [ht, List.length_cons] at hs
    omega
  · next ht =>
    obtain ⟨ms, hm, _⟩ := Reading.map_eq_ok h
    have := length_members_lt hm
    rw [ht, List.length_cons] at hs
    omega
  · simp [unfit] at h
  · simp [unfit] at h
  · have := length_scalar_lt h
    omega

/-- A value of at most the given depth. -/
def value : Nat → Reader Value
  | 0 => ⟨valueWith none, length_valueWith_lt⟩
  | depth + 1 => ⟨valueWith (some (value depth)), length_valueWith_lt⟩

/-! ## Whole texts -/

/-- How deep a value may be nested. -/
def depthLimit : Nat := 127

/-- Reads the whole text. -/
def parse (reader : Reader α) (text : String) : Except Error α :=
  match reader.run text.toList with
  | .error f => .error (.ofFault text.toList f)
  | .ok (a, r) =>
    match skipGap r with
    | [] => .ok a
    | t => .error (.ofFault text.toList ⟨.trailingCharacters, t, 1⟩)

/-- A text is parsed if a reader takes all of it but a gap at its end. -/
theorem parse_eq_ok_iff {reader : Reader α} {text : String} {a : α} :
    parse reader text = .ok a ↔
      ∃ rest, reader.run text.toList = .ok (a, rest) ∧ skipGap rest = [] := by
  unfold parse
  constructor
  · intro h
    split at h
    · simp at h
    · next b rest hr =>
      split at h
      · next hg =>
        obtain rfl := Except.ok.inj h
        exact ⟨rest, hr, hg⟩
      · simp at h
  · rintro ⟨rest, hr, hg⟩
    simp [hr, hg]

/-- Reads a generic value from the whole text. -/
def parseValue (text : String) : Except Error Value := parse (value depthLimit) text

end DeadLetters.Json
