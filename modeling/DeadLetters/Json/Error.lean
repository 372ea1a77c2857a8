import DeadLetters.Decimal.Layout
import DeadLetters.Text.Quoted

/-!
# Why a JSON text is refused

A reader that gives up reports a cause and a point of the text.  The point is the number of bytes
consumed so far, or some bytes further where these bytes were looked at.  An error shows the point
as a line, counted from one, and a column, counted in bytes since the last line feed.
-/

namespace DeadLetters.Json

/-- What stood in the text in place of the wanted value. -/
inductive Found where
  | integer (value : Int)
  | float (value : Float)
  | boolean (value : Bool)
  | string (value : String)
  | null
  | map
  | sequence

inductive Cause where
  | endInValue | endInList | endInObject | endInString
  | expectedValue | expectedIdent | expectedColon | expectedListEnd | expectedObjectEnd
  | keyNotString | trailingComma | trailingCharacters
  | invalidNumber | numberOutOfRange
  | invalidEscape | unfinishedSurrogatePair | loneSurrogate | controlCharacter
  | tooDeep
  | missingField (name : String)
  | duplicateField (name : String)
  | invalidLength (count : Nat) (wanted : String)
  | invalidType (found : Found) (wanted : String)
  | invalidValue (found : Found) (wanted : String)

namespace Found

def form : Found → String
  | integer i => "integer `" ++ toString i ++ "`"
  | float x => "floating point `" ++ Decimal.Layout.json.text x ++ "`"
  | boolean b => "boolean `" ++ (if b then "true" else "false") ++ "`"
  | string s => "string " ++ Text.quoted s
  | null => "null"
  | map => "map"
  | sequence => "sequence"

end Found

namespace Cause

def message : Cause → String
  | endInValue => "EOF while parsing a value"
  | endInList => "EOF while parsing a list"
  | endInObject => "EOF while parsing an object"
  | endInString => "EOF while parsing a string"
  | expectedValue => "expected value"
  | expectedIdent => "expected ident"
  | expectedColon => "expected `:`"
  | expectedListEnd => "expected `,` or `]`"
  | expectedObjectEnd => "expected `,` or `\x7d`"
  | keyNotString => "key must be a string"
  | trailingComma => "trailing comma"
  | trailingCharacters => "trailing characters"
  | invalidNumber => "invalid number"
  | numberOutOfRange => "number out of range"
  | invalidEscape => "invalid escape"
  | unfinishedSurrogatePair => "unexpected end of hex escape"
  | loneSurrogate => "lone leading surrogate in hex escape"
  | controlCharacter => "control character (\\u0000-\\u001F) found while parsing a string"
  | tooDeep => "recursion limit exceeded"
  | missingField name => "missing field `" ++ name ++ "`"
  | duplicateField name => "duplicate field `" ++ name ++ "`"
  | invalidLength count wanted => "invalid length " ++ toString count ++ ", expected " ++ wanted
  | invalidType found wanted => "invalid type: " ++ found.form ++ ", expected " ++ wanted
  | invalidValue found wanted => "invalid value: " ++ found.form ++ ", expected " ++ wanted

end Cause

/-- Where and why reading stopped: `rest` was not consumed, `ahead` bytes of it were looked at. -/
structure Fault where
  cause : Cause
  rest : List Char
  ahead : Nat

/-- A point of a text. -/
structure Position where
  line : Nat
  column : Nat

namespace Position

def start : Position := ⟨1, 0⟩

/-- The point after `c`. -/
def past (p : Position) (c : Char) : Position :=
  if c = '\n' then ⟨p.line + 1, 0⟩ else ⟨p.line, p.column + c.utf8Size⟩

/-- The point `n` bytes into `cs`, or at its end. -/
def advance (p : Position) : Nat → List Char → Position
  | 0, _ => p
  | _, [] => p
  | n + 1, c :: cs =>
    if c.utf8Size ≤ n + 1 then (p.past c).advance (n + 1 - c.utf8Size) cs
    else ⟨p.line, p.column + (n + 1)⟩

/-- The point of `text` that a fault tells of. -/
def ofFault (text : List Char) (f : Fault) : Position :=
  let consumed := text.take (text.length - f.rest.length)
  (consumed.foldl past start).advance f.ahead f.rest

end Position

/-- Why a text is refused, and at which point. -/
structure Error where
  cause : Cause
  position : Position

namespace Error

def ofFault (text : List Char) (f : Fault) : Error := ⟨f.cause, .ofFault text f⟩

def message (e : Error) : String :=
  e.cause.message ++ " at line " ++ toString e.position.line
    ++ " column " ++ toString e.position.column

end Error

end DeadLetters.Json
