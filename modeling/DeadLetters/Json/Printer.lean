import DeadLetters.Json.Value
import DeadLetters.Decimal.Layout

/-!
# Writing JSON text

The text of a value has no blanks between its tokens.  Inside a string only the double quote, the
backslash and the characters below U+0020 are escaped, by a letter where there is one and else by
four hexadecimal digits; all other characters stand for themselves.
-/

namespace DeadLetters.Json

/-- The letter that stands for `c` behind a backslash. -/
def escapeLetter? (c : Char) : Option Char :=
  if c = '"' then some '"'
  else if c = '\\' then some '\\'
  else if c = '\x08' then some 'b'
  else if c = '\x0c' then some 'f'
  else if c = '\n' then some 'n'
  else if c = '\r' then some 'r'
  else if c = '\t' then some 't'
  else none

/-- How `c` stands inside a string. -/
def escaped (c : Char) : List Char :=
  match escapeLetter? c with
  | some l => ['\\', l]
  | none =>
    if c.toNat < 0x20 then
      ['\\', 'u', '0', '0', Nat.digitChar (c.toNat / 16), Nat.digitChar (c.toNat % 16)]
    else [c]

def stringChars (s : String) : List Char := '"' :: s.toList.flatMap escaped ++ ['"']

def intChars (i : Int) : List Char :=
  if i < 0 then '-' :: Nat.toDigits 10 i.natAbs else Nat.toDigits 10 i.natAbs

def Number.chars : Number → List Char
  | int i => intChars i
  | float x => Decimal.Layout.json.chars x

/-- Joins texts by commas. -/
def commaSeparated : List (List Char) → List Char
  | [] => []
  | [t] => t
  | t :: ts => t ++ ',' :: commaSeparated ts

/-- A list of items already written. -/
def arrayChars (items : List (List Char)) : List Char := '[' :: commaSeparated items ++ [']']

/-- A member whose value is already written. -/
def memberChars (m : String × List Char) : List Char := stringChars m.1 ++ ':' :: m.2

/-- An object whose values are already written, in the given order. -/
def objectChars (members : List (String × List Char)) : List Char :=
  '\x7b' :: commaSeparated (members.map memberChars) ++ ['\x7d']

mutual

def Value.chars : Value → List Char
  | .null => ['n', 'u', 'l', 'l']
  | .bool true => ['t', 'r', 'u', 'e']
  | .bool false => ['f', 'a', 'l', 's', 'e']
  | .number n => n.chars
  | .string s => stringChars s
  | .array items => arrayChars (itemChars items)
  | .object members => objectChars (memberValues members)

/-- The texts of the items. -/
def itemChars : List Value → List (List Char)
  | [] => []
  | v :: vs => v.chars :: itemChars vs

/-- The members with the texts of their values. -/
def memberValues : List (String × Value) → List (String × List Char)
  | [] => []
  | m :: ms => (m.1, m.2.chars) :: memberValues ms

end

/-- The text of a value. -/
def Value.text (v : Value) : String := String.ofList v.chars

/-- The text of a string. -/
def stringText (s : String) : String := String.ofList (stringChars s)

end DeadLetters.Json
