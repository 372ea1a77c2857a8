import DeadLetters.Text.Unshown

/-!
# Quoted text

Error messages and log lines show a text between double quotes, on one line and with every character
visible.  A double quote and a backslash follow a backslash; NUL, tab, line feed and carriage return
have letters of their own; any other character that cannot be shown is written as its code point in
lowercase hexadecimal.
-/

namespace DeadLetters.Text

/-- A code point between braces, as in `\u{200b}`. -/
def codePointForm (c : Char) : List Char :=
  '\\' :: 'u' :: '\x7b' :: Nat.toDigits 16 c.toNat ++ ['\x7d']

/-- How `c` stands inside a quoted text. -/
def quotedChar (c : Char) : List Char :=
  if c = '"' then ['\\', '"']
  else if c = '\\' then ['\\', '\\']
  else if c = '\n' then ['\\', 'n']
  else if c = '\r' then ['\\', 'r']
  else if c = '\t' then ['\\', 't']
  else if c.toNat = 0 then ['\\', '0']
  else if isUnshown c then codePointForm c
  else [c]

/-- `s` between double quotes, every character visible. -/
def quoted (s : String) : String :=
  String.ofList ('"' :: s.toList.flatMap quotedChar ++ ['"'])

/-- An optional value as `None` or `Some(…)`. -/
def optional {α : Type} (form : α → String) : Option α → String
  | none => "None"
  | some a => "Some(" ++ form a ++ ")"

end DeadLetters.Text
