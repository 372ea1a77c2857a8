/-!
# Patterns

A pattern tells which texts to look for: characters of certain classes, conditions on the point
between two characters, sequences, alternatives and repetitions of these.  A pattern occurs in a
text if it leads from some point of the text to another one.

All points that a pattern leads to are followed at once, so that a search does not go back; a
repetition goes on until it leads to no new point.
-/

namespace DeadLetters.Text

/-! ## Classes of characters -/

inductive CharClass where
  | nothing
  /-- The characters from the first to the last one. -/
  | range (first last : Char)
  | either (a b : CharClass)
  | both (a b : CharClass)
  /-- All characters that are not in the class. -/
  | other (a : CharClass)
  /-- All characters that are in the class in upper or in lower case; letters of ASCII only. -/
  | caseless (a : CharClass)

namespace CharClass

def mem : CharClass → Char → Bool
  | nothing, _ => false
  | range first last, c => first ≤ c && c ≤ last
  | either a b, c => a.mem c || b.mem c
  | both a b, c => a.mem c && b.mem c
  | other a, c => !a.mem c
  | caseless a, c => a.mem c || a.mem c.toLower || a.mem c.toUpper

def one (c : Char) : CharClass := range c c

def all : CharClass := other nothing

/-- Characters of the first class that are not in the second. -/
def without (a b : CharClass) : CharClass := both a (other b)

/-- Characters of exactly one of the classes. -/
def exactlyOne (a b : CharClass) : CharClass := either (a.without b) (b.without a)

def ofRanges : List (Char × Char) → CharClass
  | [] => nothing
  | r :: rs => either (range r.1 r.2) (ofRanges rs)

def ofChars (cs : List Char) : CharClass := ofRanges (cs.map fun c => (c, c))

def digits : CharClass := range '0' '9'

def letters : CharClass := ofRanges [('A', 'Z'), ('a', 'z')]

def spaces : CharClass := ofChars ['\t', '\n', '\x0b', '\x0c', '\r', ' ']

/-- The characters of words. -/
def wordLetters : CharClass := either letters (either digits (one '_'))

end CharClass

/-! ## Points -/

/-- A condition on a point of a text. -/
inductive Look where
  | start
  | finish
  | lineStart
  | lineEnd
  /-- A carriage return may end a line, alone or in front of a line feed. -/
  | looseLineStart
  | looseLineEnd
  /-- Between a character of a word and something else. -/
  | boundary
  | noBoundary
  | wordStart
  | wordEnd
  /-- No character of a word stands in front. -/
  | wordStartHalf
  /-- No character of a word follows. -/
  | wordEndHalf

/-- Whether a condition holds between the characters in front of a point and behind it. -/
def Look.holds (before after : Option Char) : Look → Bool
  | start => before.isNone
  | finish => after.isNone
  | lineStart => before.isNone || before = some '\n'
  | lineEnd => after.isNone || after = some '\n'
  | looseLineStart =>
    before.isNone || before = some '\n' || (before = some '\r' && after ≠ some '\n')
  | looseLineEnd =>
    after.isNone || after = some '\r' || (after = some '\n' && before ≠ some '\r')
  | boundary => inWord before != inWord after
  | noBoundary => inWord before == inWord after
  | wordStart => !inWord before && inWord after
  | wordEnd => inWord before && !inWord after
  | wordStartHalf => !inWord before
  | wordEndHalf => !inWord after
where
  inWord : Option Char → Bool
    | some c => CharClass.wordLetters.mem c
    | none => false

/-! ## Patterns -/

inductive Pattern where
  | empty
  | one (c : CharClass)
  | look (l : Look)
  | seq (p q : Pattern)
  | either (p q : Pattern)
  /-- At least so many times and, if there is a limit, at most so many. -/
  | repeated (p : Pattern) (least : Nat) (most : Option Nat)

namespace Pattern

/-- Takes a step several times. -/
def times (step : List Nat → List Nat) : Nat → List Nat → List Nat
  | 0, points => points
  | n + 1, points => times step n (step points).eraseDups

/-- All points that a number of steps reaches: those seen before, and those that steps from the
newest of them lead to. -/
def reach (step : List Nat → List Nat) : Nat → List Nat → List Nat → List Nat
  | 0, _, seen => seen
  | n + 1, newest, seen =>
    match (step newest).eraseDups.filter fun p => !seen.contains p with
    | [] => seen
    | points => reach step n points (seen ++ points)

/-- The points of a text that the pattern leads to from given points.  More steps than there are
points lead to no new one. -/
def follow (text : Array Char) : Pattern → List Nat → List Nat
  | empty, points => points
  | one c, points =>
    points.filterMap fun p => (text[p]?).bind fun x => if c.mem x then some (p + 1) else none
  | look l, points =>
    points.filter fun p => l.holds (if p = 0 then none else text[p - 1]?) text[p]?
  | seq p q, points => q.follow text (p.follow text points)
  | either p q, points => (p.follow text points ++ q.follow text points).eraseDups
  | repeated p least most, points =>
    let enough := text.size + 1
    let points := times (p.follow text) (min least enough) points
    reach (p.follow text) (min ((most.map (· - least)).getD enough) enough) points points

/-- Whether the pattern occurs in a text. -/
def occursIn (p : Pattern) (text : String) : Bool :=
  let text := text.toList.toArray
  !(p.follow text (List.range (text.size + 1))).isEmpty

/-- A sequence of patterns. -/
def seqAll (ps : List Pattern) : Pattern := ps.foldr seq empty

/-- A choice between a pattern and others. -/
def eitherAll (p : Pattern) (ps : List Pattern) : Pattern := ps.foldl either p

end Pattern

end DeadLetters.Text
