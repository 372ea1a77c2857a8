import DeadLetters.Text.Numeral

/-!
# Places of a command line

A command line is a command with options, before which options that are common to all commands may
stand, and among which they may stand too.  A place tells what may stand in front of the command or
behind it.
-/

namespace DeadLetters.CommandLine

/-! ## Values -/

/-- A path is not empty. -/
def path? (text : String) : Option String := if text = "" then none else some text

def bool? : String → Option Bool
  | "true" => some true
  | "false" => some false
  | _ => none

/-- A number of 32 bits, which may have a sign. -/
def word32? (text : String) : Option UInt32 :=
  (Text.int64? text).bind fun i =>
    if 0 ≤ i.toInt ∧ i.toInt < UInt32.size then some i.toInt.toNat.toUInt32 else none

/-! ## Options -/

/-- What stands behind the name of an option. -/
inductive ValueKind where
  /-- Nothing. -/
  | switch
  | text
  | path
  | bool
  | word32
  | int64
  deriving DecidableEq, Repr

/-- Whether an option of the kind may have a value. -/
def ValueKind.accepts (value : String) : ValueKind → Bool
  | switch => false
  | text => true
  | path => (path? value).isSome
  | bool => (bool? value).isSome
  | word32 => (word32? value).isSome
  | int64 => (Text.int64? value).isSome

structure Opt where
  name : String
  kind : ValueKind := .text
  about : String := ""
  /-- The value of an option that is not given. -/
  standard : Option String := none
  /-- The environment variable that names a value for lines that do not. -/
  variableName : Option String := none
  deriving DecidableEq, Repr

/-! ## Places -/

/-- The words among the options. -/
inductive Words where
  /-- The first one is the name of the command and ends the place. -/
  | command
  | absent
  | single (name : String)
  /-- One or more. -/
  | several (name : String)
  deriving DecidableEq, Repr

/-- Whether there may be so many words. -/
def Words.allow (count : Nat) : Words → Bool
  | command | absent => count = 0
  | single _ => count ≤ 1
  | several _ => true

structure Place where
  /-- The name of the command; empty in front of it. -/
  name : String
  about : String
  /-- The options that are not common to all commands, unless the place is in front of it. -/
  options : List Opt
  words : Words
  deriving DecidableEq, Repr

namespace Place

/-- In front of the command. -/
def front : Place where
  name := ""
  about := "consume content-lifecycle topics and manage their dead letters"
  options := [
    { name := "config", kind := .path, about := "JSON configuration file",
      variableName := "DLQ_CONFIG" },
    { name := "database", kind := .path,
      about := "SQLite database holding the dead letters (overrides the configuration)" },
    { name := "local", kind := .switch, about := "Use LocalStack credentials and endpoint" },
    { name := "endpoint", about := "AWS endpoint override, e.g. http://localhost:4566" }]
  words := .command

/-- The options of a filter. -/
def filterOptions : List Opt := [
  { name := "topic" },
  { name := "error-type" },
  { name := "reprocessed", kind := .bool },
  { name := "start", kind := .int64,
    about := "Inclusive lower bound on failure time, epoch milliseconds" },
  { name := "end", kind := .int64,
    about := "Inclusive upper bound on failure time, epoch milliseconds" },
  { name := "limit", kind := .word32, standard := "100" },
  { name := "offset", kind := .word32, standard := "0" }]

def stats : Place where
  name := "stats"
  about := "Print dead-letter statistics as JSON"
  options := []
  words := .absent

def list : Place where
  name := "list"
  about := "Print matching dead letters, one JSON record per line"
  options := filterOptions
  words := .absent

def reprocess : Place where
  name := "reprocess"
  about := "Replay dead letters and print each id's result"
  options := []
  words := .several "IDS"

def purge : Place where
  name := "purge"
  about := "Delete matching dead letters"
  options := filterOptions ++ [{ name := "yes", kind := .switch, about := "Confirm the deletion" }]
  words := .absent

def consume : Place where
  name := "consume"
  about := "Poll a topic's queue and dispatch each batch through its handler"
  options := [
    { name := "queue-url", about := "Queue URL for the topic (overrides the configuration)" },
    { name := "max-polls", kind := .word32, standard := "10" }]
  words := .single "TOPIC"

/-- The places behind the commands. -/
def commands : List Place := [stats, list, reprocess, purge, consume]

/-- The place behind the command with this name. -/
def ofName? (name : String) : Option Place := commands.find? (·.name = name)

/-- All options that may stand at the place, those that are common to all commands among those of
its own. -/
def allOptions (p : Place) : List Opt :=
  if p.words = .command then p.options
  else
    let le (a b : Opt × Nat) : Bool := a.2 < b.2 || (a.2 = b.2 && !(b.1.name < a.1.name))
    ((front.options.zipIdx ++ p.options.zipIdx).mergeSort le).map (·.1)

/-- The option of the place with this name. -/
def option? (p : Place) (name : String) : Option Opt := p.allOptions.find? (·.name = name)

end Place

end DeadLetters.CommandLine
