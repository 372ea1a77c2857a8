import DeadLetters.CommandLine.Place
import DeadLetters.Filter
import DeadLetters.Text.Search

/-!
# Arguments

The command line is a command with options, before which options that are common to all commands may
stand, and among which they may stand too; there they count before those in front of the command.

An option is written `--name value` or `--name=value`; a value that starts with a hyphen needs the
second form.  No option is given twice at one place.  After `--` there are only words.
-/

namespace DeadLetters.CommandLine

/-! ## Arguments by kind -/

inductive Argument where
  /-- The argument `--`. -/
  | separator
  | option (name : String) (value : Option String)
  /-- A hyphen with `h` behind it. -/
  | help
  /-- A hyphen with something other than an option behind it. -/
  | hyphenated
  | word (text : String)

def Argument.of (arg : String) : Argument :=
  match arg.toList with
  | ['-', '-'] => separator
  | '-' :: '-' :: cs =>
    let (name, value) := Text.cut '=' cs
    option (String.ofList name) (value.map String.ofList)
  | '-' :: 'h' :: _ => help
  | '-' :: _ :: _ => hyphenated
  | _ => word arg

/-- The arguments that stand at a place. -/
structure Given where
  switches : List String := []
  options : List (String × String) := []
  words : List String := []

namespace Given

def value? (g : Given) (name : String) : Option String := g.options.lookup name

/-- Adds an option that has not been given yet. -/
def add? (g : Given) (o : Opt) (value : String) : Option Given :=
  if (g.value? o.name).isSome ∨ o.kind.accepts value = false then none
  else some { g with options := g.options ++ [(o.name, value)] }

end Given

/-- Why a command line is not carried out. -/
inductive Halt where
  /-- It cannot be read. -/
  | usage
  /-- It asks for help with the command of this name, or with the program if the name is empty. -/
  | help (command : String)
  deriving DecidableEq, Repr

/-- Reads the arguments of a place; the rest of the line is left. -/
def Place.read (p : Place) : List String → Given → Except Halt (Given × List String)
  | [], g => .ok (g, [])
  | arg :: args, g =>
    match Argument.of arg with
    | .separator =>
      let words := g.words ++ args
      if p.words ≠ .command ∧ p.words.allow words.length then .ok ({ g with words := words }, [])
      else .error .usage
    | .help => .error (.help p.name)
    | .hyphenated => .error .usage
    | .word w =>
      if p.words = .command then .ok (g, arg :: args)
      else if p.words.allow (g.words.length + 1) then
        p.read args { g with words := g.words ++ [w] }
      else .error .usage
    | .option name value =>
      match p.option? name, value, args with
      | none, none, _ => .error (if name = "help" then .help p.name else .usage)
      | none, some _, _ => .error .usage
      | some o, none, args =>
        if o.kind = .switch then
          if g.switches.contains name then .error .usage
          else p.read args { g with switches := name :: g.switches }
        else
          match args with
          | [] => .error .usage
          | v :: args =>
            match Argument.of v, g.add? o v with
            | .word _, some g => p.read args g
            | _, _ => .error .usage
      | some o, some v, args =>
        match g.add? o v with
        | some g => p.read args g
        | none => .error .usage

/-! ## Commands -/

inductive Command where
  | stats
  | list (filter : Filter)
  | reprocess (ids : List String)
  | purge (filter : Filter) (confirmed : Bool)
  | consume (topic : String) (queueUrl : Option String) (maxPolls : UInt32)

/-- A whole command line. -/
structure Invocation where
  /-- The configuration file. -/
  config : Option String
  /-- The file of the dead letters. -/
  database : Option String
  /-- Whether a queue service on this computer is meant. -/
  nearby : Bool
  /-- The address of the queue service. -/
  endpoint : Option String
  command : Command

/-- The value of an option that stands behind a command, or the one it has if it is not given. -/
def Place.value? {α : Type} (p : Place) (g : Given) (name : String) (read : String → Option α) :
    Option α :=
  ((g.value? name).or ((p.option? name).bind (·.standard))).bind read

/-- The filter that options describe. -/
def Place.filter (p : Place) (g : Given) : Filter where
  topic := p.value? g "topic" some
  errorName := p.value? g "error-type" some
  reprocessed := p.value? g "reprocessed" bool?
  start := p.value? g "start" Text.int64?
  finish := p.value? g "end" Text.int64?
  limit := (p.value? g "limit" word32?).getD 0
  offset := (p.value? g "offset" word32?).getD 0

/-- The command with what is given behind it. -/
def Place.command? (p : Place) (g : Given) : Option Command :=
  match p.name, g.words with
  | "stats", _ => some .stats
  | "list", _ => some (.list (p.filter g))
  | "reprocess", id :: ids => some (.reprocess (id :: ids))
  | "purge", _ => some (.purge (p.filter g) (g.switches.contains "yes"))
  | "consume", [topic] =>
    some (.consume topic (p.value? g "queue-url" some) ((p.value? g "max-polls" word32?).getD 0))
  | _, _ => none

/-- The help that is asked for behind the word `help`. -/
def helpOn : List String → Halt
  | [] => .help ""
  | [name] => if name = "help" ∨ (Place.ofName? name).isSome then .help name else .usage
  | _ => .usage

/-- The configuration file: the one that the line names, else the one that the variable names.  The
variable has to be a path unless both places name a file. -/
def configOf (behind front : Given) (configVariable : Option String) :
    Except Halt (Option String) :=
  let named := (behind.value? "config").or (front.value? "config")
  let everywhere := [behind, front].all fun g => (g.value? "config").isSome
  match configVariable with
  | none => .ok named
  | some text =>
    if everywhere then .ok named
    else
      match path? text with
      | some path => .ok (named.or (some path))
      | none => .error .usage

/-- Reads a command line; `configVariable` names a configuration file for lines that do not. -/
def Invocation.ofArguments (args : List String) (configVariable : Option String) :
    Except Halt Invocation := do
  let (front, rest) ← Place.front.read args {}
  match rest with
  | [] => .error .usage
  | "help" :: args => .error (helpOn args)
  | name :: args =>
    match Place.ofName? name with
    | none => .error .usage
    | some place =>
      let (behind, _) ← place.read args {}
      let config ← configOf behind front configVariable
      match place.command? behind with
      | none => .error .usage
      | some command =>
        return {
          config := config
          database := (behind.value? "database").or (front.value? "database")
          nearby := front.switches.contains "local" || behind.switches.contains "local"
          endpoint := (behind.value? "endpoint").or (front.value? "endpoint")
          command := command }

end DeadLetters.CommandLine
