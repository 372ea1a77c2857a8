import DeadLetters.Text.Quoted

/-!
# Log events

An event has a level, a target that tells which part of the program it comes from, a message and
fields.  Its line shows the level, the message and the fields in order:

    WARN dead letter not found operation="mark_reprocessed" id="x"

A message or a field may break the line.  In a log of many events such an event is indented from its
second line on, so that only events start at the margin.
-/

namespace DeadLetters.Log

inductive Level where
  | error
  | warn
  | info
  | debug
  | trace
  deriving DecidableEq, Repr

namespace Level

def name : Level → String
  | error => "ERROR"
  | warn => "WARN"
  | info => "INFO"
  | debug => "DEBUG"
  | trace => "TRACE"

/-- How talkative a level is, from one on. -/
def rank : Level → Nat
  | error => 1
  | warn => 2
  | info => 3
  | debug => 4
  | trace => 5

end Level

/-- How a field shows its value. -/
inductive Shown where
  /-- Between quotes. -/
  | quoted (text : String)
  /-- As it is. -/
  | plain (text : String)

namespace Shown

def form : Shown → String
  | quoted t => Text.quoted t
  | plain t => t

def nat (n : Nat) : Shown := plain (toString n)

end Shown

structure Event where
  level : Level
  target : String
  message : String
  fields : List (String × Shown)

namespace Event

/-- The message and the fields. -/
def text (e : Event) : String :=
  " ".intercalate (e.message :: e.fields.map fun f => f.1 ++ "=" ++ f.2.form)

/-- The level in front of the text. -/
def line (e : Event) : String := e.level.name ++ " " ++ e.text

/-- The line with four blanks behind each line break. -/
def entry (e : Event) : String := "\n    ".intercalate (e.line.splitOn "\n")

end Event

end DeadLetters.Log
