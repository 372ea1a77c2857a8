import DeadLetters.Text.Blank
import DeadLetters.Text.Numeral
import DeadLetters.Text.Pattern

/-!
# Pieces of written patterns

The text of a pattern is cut into pieces before it is put together: characters, escapes, brackets,
repetitions, and the items of the classes between square brackets.  A piece knows the columns of its
text, which an error marks.

Cutting never fails.  What cannot be read becomes a piece that carries the error, so that of all
errors in a pattern the first one is reported.
-/

namespace DeadLetters.Text.Pattern

/-! ## Errors -/

/-- What is wrong with a pattern. -/
inductive Problem where
  | classEscape
  | classRange
  | classRangeEnd
  | classUnclosed
  | countInvalid
  | hexEmpty
  | hexNoCharacter
  | hexDigit
  | escapeUnfinished
  | escapeUnknown
  | flagNegationDangling
  | flagNegationRepeated
  | flagRepeated
  | flagUnfinished
  | flagUnknown
  | nameRepeated
  | nameEmpty
  | nameCharacter
  | nameUnclosed
  | groupUnclosed
  | groupUnopened
  | countRange
  | countEmpty
  | countUnclosed
  | nothingToRepeat
  | boundaryUnclosed
  | boundaryUnknown
  | boundaryUnfinished
  | propertyInvalid
  | backreference
  | lookAround
  | propertyUnknown
  | classUnavailable
  | caselessUnavailable
  | bytesUnavailable
  | unicodeNotAllowed
  deriving DecidableEq, Repr

def Problem.message : Problem → String
  | classEscape => "invalid escape sequence found in character class"
  | classRange => "invalid character class range, the start must be <= the end"
  | classRangeEnd => "invalid range boundary, must be a literal"
  | classUnclosed => "unclosed character class"
  | countInvalid => "decimal literal invalid"
  | hexEmpty => "hexadecimal literal empty"
  | hexNoCharacter => "hexadecimal literal is not a Unicode scalar value"
  | hexDigit => "invalid hexadecimal digit"
  | escapeUnfinished => "incomplete escape sequence, reached end of pattern prematurely"
  | escapeUnknown => "unrecognized escape sequence"
  | flagNegationDangling => "dangling flag negation operator"
  | flagNegationRepeated => "flag negation operator repeated"
  | flagRepeated => "duplicate flag"
  | flagUnfinished => "expected flag but got end of regex"
  | flagUnknown => "unrecognized flag"
  | nameRepeated => "duplicate capture group name"
  | nameEmpty => "empty capture group name"
  | nameCharacter => "invalid capture group character"
  | nameUnclosed => "unclosed capture group name"
  | groupUnclosed => "unclosed group"
  | groupUnopened => "unopened group"
  | countRange => "invalid repetition count range, the start must be <= the end"
  | countEmpty => "repetition quantifier expects a valid decimal"
  | countUnclosed => "unclosed counted repetition"
  | nothingToRepeat => "repetition operator missing expression"
  | boundaryUnclosed =>
    "special word boundary assertion is either unclosed or contains an invalid character"
  | boundaryUnknown =>
    "unrecognized special word boundary assertion, valid choices are: start, end, start-half or "
      ++ "end-half"
  | boundaryUnfinished =>
    "found either the beginning of a special word boundary or a bounded repetition on a \\b with "
      ++ "an opening brace, but no closing brace"
  | propertyInvalid => "invalid Unicode character class"
  | backreference => "backreferences are not supported"
  | lookAround => "look-around, including look-ahead and look-behind, is not supported"
  | propertyUnknown => "Unicode property not found"
  | classUnavailable =>
    "Unicode-aware Perl class not found (make sure the unicode-perl feature is enabled)"
  | caselessUnavailable =>
    "Unicode-aware case insensitivity matching is not available (make sure the unicode-case "
      ++ "feature is enabled)"
  | bytesUnavailable => "pattern can match invalid UTF-8"
  | unicodeNotAllowed => "Unicode not allowed here"

/-- Columns of a pattern, from the first one up to the last one, which is not among them. -/
structure Span where
  first : Nat
  last : Nat
  deriving DecidableEq, Repr

/-- The columns from one on. -/
def Span.from (first length : Nat) : Span := ⟨first, first + length⟩

/-- Why a pattern cannot be used. -/
inductive Error where
  /-- With the places to be marked, from left to right. -/
  | written (problem : Problem) (places : List Span)
  /-- It asks for the boundaries of words in Unicode. -/
  | boundaries
  deriving DecidableEq, Repr

namespace Error

/-- The marks under a pattern, from a column on. -/
def marks (column : Nat) : List Span → List Char
  | [] => []
  | s :: rest =>
    let length := max 1 (s.last - s.first)
    List.replicate (s.first - column) ' ' ++ List.replicate length '^'
      ++ marks (max column s.first + length) rest

/-- The error in a pattern, under which its places are marked. -/
def report (pattern : String) : Error → String
  | written problem places =>
    "regex parse error:\n    " ++ pattern ++ "\n    " ++ String.ofList (marks 1 places)
      ++ "\nerror: " ++ problem.message
  | boundaries => "error building NFA"

end Error

/-- An error at a place. -/
def fault {α : Type} (problem : Problem) (place : Span) : Except Error α :=
  .error (.written problem [place])

/-! ## Pieces -/

/-- What stands for itself or for a class of characters. -/
inductive Atom where
  /-- A character, which may be written as the hexadecimal digits of a byte. -/
  | literal (c : Char) (asByte : Bool)
  | named (c : CharClass) (negated : Bool)
  /-- A property of Unicode. -/
  | property
  | look (l : Look)

/-- How two classes are combined. -/
inductive ClassOp where
  | both
  | without
  | exactlyOne

/-- Flags and whether they are set or cleared. -/
abbrev FlagChanges := List (Char × Bool)

inductive Piece where
  | atom (a : Atom) (place : Span)
  | dot (place : Span)
  | lineStart
  | lineEnd
  | bar
  /-- The beginning of a group, inside which the flags hold. -/
  | opening (column : Nat) (flags : FlagChanges)
  | closing (column : Nat)
  /-- Flags that hold from here to the end of the group. -/
  | flags (changes : FlagChanges)
  /-- What stands in front occurs so often. -/
  | repetition (column : Nat) (count : Except Error (Nat × Option Nat))
  /-- The beginning of a class, with the characters that stand there for themselves. -/
  | classOpening (column : Nat) (negated : Bool) (first : List Char)
  | classAtom (a : Atom) (place : Span)
  | classRange (first last : Char) (place : Span)
  /-- A class by its name. -/
  | classNamed (c : CharClass)
  | classOp (op : ClassOp)
  | classClosing (column : Nat)
  | error (e : Error)

/-! ## Escapes -/

/-- The character whose code point hexadecimal digits write. -/
def hexChar? (digits : List Char) : Option Char :=
  let n := digits.foldl (fun n d => n * 16 + (hexDigit? d).getD 0) 0
  if n.isValidChar then some (Char.ofNat n) else none

/-- Reads as many hexadecimal digits, from a column on. -/
def fixedHex (column count : Nat) (s : List Char) : Except Error (Atom × Nat) :=
  let digits := (s.take count).takeWhile fun c => (hexDigit? c).isSome
  if digits.length = count then
    match hexChar? digits with
    | some c => .ok (.literal c (count = 2), count)
    | none => fault .hexNoCharacter (.from column count)
  else if digits.length = s.length then
    fault .escapeUnfinished (.from (column + digits.length) 0)
  else fault .hexDigit (.from (column + digits.length) 1)

/-- Reads hexadecimal digits behind an opening brace, which stands at the column. -/
def bracedHex (column : Nat) (s : List Char) : Except Error (Atom × Nat) :=
  let digits := s.takeWhile fun c => (hexDigit? c).isSome
  let n := digits.length
  match s.drop n with
  | [] => fault .escapeUnfinished (.from column (n + 1))
  | c :: _ =>
    if c ≠ '\x7d' then fault .hexDigit (.from (column + 1 + n) 1)
    else if n = 0 then fault .hexEmpty (.from column 2)
    else
      match hexChar? digits with
      | some c => .ok (.literal c false, n + 2)
      | none => fault .hexNoCharacter (.from (column + 1) n)

/-- Reads the digits of an escape of so many digits, or those between braces. -/
def hexEscape (column count : Nat) : List Char → Except Error (Atom × Nat)
  | [] => fault .escapeUnfinished (.from column 0)
  | '\x7b' :: s => bracedHex column s
  | s => fixedHex column count s

/-- Reads the name of a property of Unicode. -/
def propertyEscape (column : Nat) : List Char → Except Error (Atom × Nat)
  | [] => fault .escapeUnfinished (.from column 0)
  | '\\' :: _ => fault .propertyInvalid (.from column 1)
  | '\x7b' :: s =>
    let n := (s.takeWhile (· ≠ '\x7d')).length
    if n = s.length then fault .escapeUnfinished (.from (column + 1 + n) 0)
    else .ok (.property, n + 2)
  | _ => .ok (.property, 1)

def isBoundaryLetter (c : Char) : Bool := c.isAlpha || c = '-'

/-- Reads what may stand in braces behind the sign of a word boundary, whose escape starts at the
column. -/
def boundaryEscape (column : Nat) : List Char → Except Error (Atom × Nat)
  | ['\x7b'] => fault .boundaryUnfinished (.from column 3)
  | '\x7b' :: c :: s =>
    if !isBoundaryLetter c then .ok (.look .boundary, 0)
    else
      let word := (c :: s).takeWhile isBoundaryLetter
      let n := word.length
      if ((c :: s).drop n).head? ≠ some '\x7d' then
        fault .boundaryUnclosed (.from (column + 2) (n + 1))
      else
        match String.ofList word with
        | "start" => .ok (.look .wordStart, n + 2)
        | "end" => .ok (.look .wordEnd, n + 2)
        | "start-half" => .ok (.look .wordStartHalf, n + 2)
        | "end-half" => .ok (.look .wordEndHalf, n + 2)
        | _ => fault .boundaryUnknown (.from (column + 3) n)
  | _ => .ok (.look .boundary, 0)

/-- The atom of an escape of one letter. -/
def letterAtom? : Char → Option Atom
  | 'd' => some (.named .digits false)
  | 'D' => some (.named .digits true)
  | 's' => some (.named .spaces false)
  | 'S' => some (.named .spaces true)
  | 'w' => some (.named .wordLetters false)
  | 'W' => some (.named .wordLetters true)
  | 'a' => some (.literal '\x07' false)
  | 'f' => some (.literal '\x0c' false)
  | 't' => some (.literal '\t' false)
  | 'n' => some (.literal '\n' false)
  | 'r' => some (.literal '\r' false)
  | 'v' => some (.literal '\x0b' false)
  | 'A' => some (.look .start)
  | 'z' => some (.look .finish)
  | 'B' => some (.look .noBoundary)
  | '<' => some (.look .wordStart)
  | '>' => some (.look .wordEnd)
  | _ => none

/-- Reads the rest of an escape whose backslash stands at a column; answers how many characters it
has. -/
def escape (column : Nat) : List Char → Except Error (Atom × Nat)
  | [] => fault .escapeUnfinished (.from column 1)
  | c :: s =>
    let counted (x : Except Error (Atom × Nat)) := x.map fun (a, n) => (a, n + 1)
    if c.isDigit then fault .backreference (.from column 2)
    else if c = 'x' then counted (hexEscape (column + 2) 2 s)
    else if c = 'u' then counted (hexEscape (column + 2) 4 s)
    else if c = 'U' then counted (hexEscape (column + 2) 8 s)
    else if c = 'p' ∨ c = 'P' then counted (propertyEscape (column + 2) s)
    else if c = 'b' then counted (boundaryEscape column s)
    else
      match letterAtom? c with
      | some a => .ok (a, 1)
      | none =>
        if c.isAlpha ∨ 127 < c.toNat then fault .escapeUnknown (.from column 2)
        else .ok (.literal c false, 1)

/-! ## Repetitions -/

/-- A number and how many characters it has with the blanks around it. -/
def number (column : Nat) (s : List Char) : Except Error Nat × Nat :=
  let before := s.takeWhile isBlank
  let digits := (s.dropWhile isBlank).takeWhile Char.isDigit
  let behind := ((s.dropWhile isBlank).dropWhile Char.isDigit).takeWhile isBlank
  let place := Span.from (column + before.length) digits.length
  let n := Nat.ofDigitChars 10 digits 0
  let value :=
    if digits = [] then fault .countEmpty place
    else if UInt32.size ≤ n then fault .countInvalid place
    else .ok n
  (value, before.length + digits.length + behind.length)

/-- Reads the count of a repetition behind its opening brace, which stands at a column; answers how
many characters it has. -/
def count (column : Nat) (s : List Char) : Except Error ((Nat × Option Nat) × Nat) := do
  let unclosed {α : Type} (n : Nat) : Except Error α := fault .countUnclosed (.from column (n + 1))
  let finish (n : Nat) (least : Nat) (most : Option Nat) :
      Except Error ((Nat × Option Nat) × Nat) :=
    match s.drop n with
    | '\x7d' :: t =>
      let n := if t.head? = some '?' then n + 2 else n + 1
      if most.any (· < least) then fault .countRange (.from column (n + 1))
      else .ok ((least, most), n)
    | _ => unclosed n
  if s = [] then unclosed 0
  else
    let (least, n) := number (column + 1) s
    match s.drop n with
    | [] => unclosed n
    | ',' :: [] => unclosed (n + 1)
    | ',' :: '\x7d' :: _ => finish (n + 1) (← least) none
    | ',' :: t =>
      let least ← least
      let (most, m) := number (column + n + 2) t
      finish (n + 1 + m) least (some (← most))
    | _ => let least ← least; finish n least (some least)

/-! ## Groups -/

/-- Reads flags from a column to a colon or a closing bracket; answers that character and how many
there are.  `negation` is the place of a hyphen that has been read. -/
def flagChanges (column : Nat) (seen : List (Char × Span)) (negation : Option Span)
    (dangling : Bool) : List Char → Except Error (FlagChanges × Char × Nat)
  | [] => fault .flagUnfinished (.from column 0)
  | c :: s =>
    let here := Span.from column 1
    if c = ':' ∨ c = ')' then
      match negation, dangling with
      | some place, true => fault .flagNegationDangling place
      | _, _ => .ok ([], c, 1)
    else if c = '-' then
      match negation with
      | some place => .error (.written .flagNegationRepeated [place, here])
      | none =>
        (flagChanges (column + 1) seen (some here) true s).map fun (fs, e, n) => (fs, e, n + 1)
    else if ¬['i', 'm', 's', 'U', 'u', 'R', 'x'].contains c then fault .flagUnknown here
    else
      match seen.lookup c with
      | some place => .error (.written .flagRepeated [place, here])
      | none =>
        (flagChanges (column + 1) ((c, here) :: seen) negation false s).map fun (fs, e, n) =>
          ((c, negation.isNone) :: fs, e, n + 1)

/-- Whether a character may stand in the name of a group. -/
def isNameCharacter (first : Bool) (c : Char) : Bool :=
  c = '_' || c.isAlpha || (127 < c.toNat && !isBlank c)
    || (!first && (c.isDigit || c = '.' || c = '[' || c = ']'))

/-- Reads the name of a group, from a column on. -/
def groupName (column : Nat) (s : List Char) : Except Error (List Char) :=
  let name := s.takeWhile (· ≠ '>')
  let good := (name.take 1).takeWhile (isNameCharacter true)
    ++ (name.drop 1).takeWhile (isNameCharacter false)
  if (name.take 1).all (isNameCharacter true) ∧ (name.drop 1).all (isNameCharacter false) then
    if name.length = s.length then fault .nameUnclosed (.from (column + name.length) 0)
    else if name = [] then fault .nameEmpty (.from column 0)
    else .ok name
  else
    fault .nameCharacter
      (.from (column + if (name.take 1).all (isNameCharacter true) then good.length else 0) 1)

/-! ## Cutting -/

/-- A point of the text of a pattern. -/
structure Cutter where
  column : Nat
  /-- The beginnings of the classes around the point, the innermost first. -/
  classes : List Span
  /-- Whether blanks and comments are left out. -/
  spaced : Bool
  /-- The same for the groups around this one. -/
  outer : List Bool
  names : List (List Char × Span)

/-- A piece that starts at the point, how many characters follow its first one, and the point behind
it but for its column. -/
abbrev Cut := Piece × Nat × Cutter

namespace Cutter

def failed (k : Cutter) (e : Error) : Cut := (.error e, 0, k)

/-- The piece that something read makes. -/
def made {α : Type} (k : Cutter) (x : Except Error α) (f : α → Cut) : Cut :=
  match x with
  | .ok a => f a
  | .error e => k.failed e

/-- Cuts a group with a name. -/
def namedGroup (k : Cutter) (skipped : Nat) (s : List Char) : Cut :=
  let column := k.column + 1 + skipped
  k.made (groupName column s) fun name =>
    let place := Span.from column name.length
    match k.names.lookup name with
    | some other => k.failed (.written .nameRepeated [other, place])
    | none =>
      (.opening k.column [], skipped + name.length + 1,
        { k with names := (name, place) :: k.names, outer := k.spaced :: k.outer })

/-- Cuts what an opening bracket starts. -/
def group (k : Cutter) : List Char → Cut
  | '?' :: '=' :: _ | '?' :: '!' :: _ =>
    k.failed (.written .lookAround [.from k.column 3])
  | '?' :: '<' :: '=' :: _ | '?' :: '<' :: '!' :: _ =>
    k.failed (.written .lookAround [.from k.column 4])
  | '?' :: 'P' :: '<' :: s => k.namedGroup 3 s
  | '?' :: '<' :: s => k.namedGroup 2 s
  | ['?'] => k.failed (.written .groupUnclosed [.from k.column 1])
  | '?' :: s =>
    k.made (flagChanges (k.column + 2) [] none false s) fun (changes, stop, n) =>
      let spaced := (changes.lookup 'x').getD k.spaced
      if stop = ':' then
        (.opening k.column changes, n + 1,
          { k with spaced := spaced, outer := k.spaced :: k.outer })
      else if changes.isEmpty then
        k.failed (.written .nothingToRepeat [.from (k.column + 1) 0])
      else (.flags changes, n + 1, { k with spaced := spaced })
  | _ => (.opening k.column [], 0, { k with outer := k.spaced :: k.outer })

/-- Cuts the beginning of a class. -/
def openClass (k : Cutter) (s : List Char) : Cut :=
  let unclosed (n : Nat) : Cut := k.failed (.written .classUnclosed [.from k.column n])
  let negated := s.head? = some '^'
  let n := if negated then 1 else 0
  let s := s.drop n
  let hyphens := s.takeWhile (· = '-')
  let bracket := hyphens = [] ∧ s.head? = some ']'
  let first := if bracket then [']'] else hyphens
  if s = [] then unclosed (n + 1)
  else if s.length = first.length then unclosed (if bracket then n + 2 else 0)
  else
    (.classOpening k.column negated first, n + first.length,
      { k with classes := .from k.column (n + first.length + 1) :: k.classes })

/-- The class that has a name between colons. -/
def namedClass? : String → Option CharClass
  | "alnum" => some (.either .letters .digits)
  | "alpha" => some .letters
  | "ascii" => some (.range '\x00' '\x7f')
  | "blank" => some (.ofChars ['\t', ' '])
  | "cntrl" => some (.ofRanges [('\x00', '\x1f'), ('\x7f', '\x7f')])
  | "digit" => some .digits
  | "graph" => some (.range '!' '~')
  | "lower" => some (.range 'a' 'z')
  | "print" => some (.range ' ' '~')
  | "punct" => some (.ofRanges [('!', '/'), (':', '@'), ('[', '\x60'), ('\x7b', '~')])
  | "space" => some .spaces
  | "upper" => some (.range 'A' 'Z')
  | "word" => some .wordLetters
  | "xdigit" => some (.ofRanges [('0', '9'), ('A', 'F'), ('a', 'f')])
  | _ => none

/-- Reads a class with a name behind its opening bracket. -/
def namedClass (s : List Char) : Option (CharClass × Nat) :=
  match s with
  | ':' :: t =>
    let negated := t.head? = some '^'
    let n := if negated then 1 else 0
    let name := (t.drop n).takeWhile (· ≠ ':')
    match (t.drop n).drop name.length with
    | ':' :: ']' :: _ =>
      (namedClass? (String.ofList name)).map fun c =>
        (if negated then .other c else c, n + name.length + 3)
    | _ => none
  | _ => none

/-- The atom that starts with `c` inside a class, and how many characters follow its first one. -/
def classAtom (column : Nat) (c : Char) (s : List Char) : Except Error (Atom × Nat) :=
  if c = '\\' then escape column s else .ok (.literal c false, 0)

/-- A character at the end of a range. -/
def rangeEnd (a : Atom) (place : Span) : Except Error Char :=
  match a with
  | .literal c _ => .ok c
  | _ => fault .classRangeEnd place

/-- Cuts a character, a class or a range of characters inside a class. -/
def classItem (k : Cutter) (c : Char) (s : List Char) : Cut :=
  let unclosed := k.failed (.written .classUnclosed (k.classes.take 1))
  k.made (classAtom k.column c s) fun (a, n) =>
    let place := Span.from k.column (n + 1)
    let alone : Cut :=
      match a with
      | .look _ => k.failed (.written .classEscape [place])
      | a => (.classAtom a place, n, k)
    match s.drop n with
    | [] => unclosed
    | ['-'] => unclosed
    | '-' :: d :: t =>
      if d = ']' ∨ d = '-' then alone
      else
        let column := k.column + n + 2
        k.made (classAtom column d t) fun (b, m) =>
          k.made (rangeEnd a place) fun first =>
            k.made (rangeEnd b (.from column (m + 1))) fun last =>
              let place := Span.from k.column (n + m + 3)
              if last < first then k.failed (.written .classRange [place])
              else (.classRange first last place, n + m + 2, k)
    | _ => alone

/-- Cuts a piece inside a class. -/
def cutClass (k : Cutter) (c : Char) (s : List Char) : Cut :=
  if c = '[' then
    match namedClass s with
    | some (named, n) => (.classNamed named, n, k)
    | none => k.openClass s
  else if c = ']' then (.classClosing k.column, 0, { k with classes := k.classes.drop 1 })
  else if s.head? = some c ∧ c = '&' then (.classOp .both, 1, k)
  else if s.head? = some c ∧ c = '-' then (.classOp .without, 1, k)
  else if s.head? = some c ∧ c = '~' then (.classOp .exactlyOne, 1, k)
  else k.classItem c s

/-- Cuts a piece that starts with `c`. -/
def cut (k : Cutter) (c : Char) (s : List Char) : Cut :=
  let lazy := if s.head? = some '?' then 1 else 0
  if ¬k.classes.isEmpty then k.cutClass c s
  else
    match c with
    | '(' => k.group s
    | ')' =>
      (.closing k.column, 0,
        { k with spaced := (k.outer.head?).getD k.spaced, outer := k.outer.drop 1 })
    | '|' => (.bar, 0, k)
    | '[' => k.openClass s
    | '?' => (.repetition k.column (.ok (0, some 1)), lazy, k)
    | '*' => (.repetition k.column (.ok (0, none)), lazy, k)
    | '+' => (.repetition k.column (.ok (1, none)), lazy, k)
    | '\x7b' =>
      match count k.column s with
      | .ok (range, n) => (.repetition k.column (.ok range), n, k)
      | .error e => (.repetition k.column (.error e), 0, k)
    | '\\' => k.made (escape k.column s) fun (a, n) => (.atom a (.from k.column (n + 1)), n, k)
    | '.' => (.dot (.from k.column 1), 0, k)
    | '^' => (.lineStart, 0, k)
    | '$' => (.lineEnd, 0, k)
    | c => (.atom (.literal c false) (.from k.column 1), 0, k)

/-- How many characters are left out in front of a piece. -/
def gap (k : Cutter) (c : Char) (s : List Char) : Nat :=
  if ¬k.spaced then 0
  else if isBlank c then 1
  else if c = '#' then (s.takeWhile (· ≠ '\n')).length + 1
  else 0

/-- The pieces of a text, from a point on. -/
def pieces (k : Cutter) (s : List Char) : List Piece :=
  match s with
  | [] => if k.classes.isEmpty then [] else [.error (.written .classUnclosed (k.classes.take 1))]
  | c :: s =>
    match k.gap c s with
    | n + 1 => pieces { k with column := k.column + n + 1 } (s.drop n)
    | 0 =>
      let (piece, n, next) := k.cut c s
      piece :: pieces { next with column := k.column + n + 1 } (s.drop n)
termination_by s.length
decreasing_by all_goals simp only [List.length_drop, List.length_cons]; omega

end Cutter

/-- The pieces of the text of a pattern. -/
def pieces (text : List Char) : List Piece := Cutter.pieces ⟨1, [], false, [], []⟩ text

end DeadLetters.Text.Pattern
