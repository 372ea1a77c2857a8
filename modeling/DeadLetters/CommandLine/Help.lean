import DeadLetters.CommandLine.Place

/-!
# Help

A page tells what a command is about, how it is written, and which words and options it has:

    Replay dead letters and print each id's result

    Usage: dlq reprocess [OPTIONS] <IDS>...

    Options:
          --config <CONFIG>  JSON configuration file [env: DLQ_CONFIG=]
      -h, --help             Print help

What is said about an entry starts in the same column for all entries of a section, behind the
longest name.
-/

namespace DeadLetters.CommandLine

/-- Part of a page: names, each with what it is about. -/
structure Section where
  heading : String
  entries : List (String × String)

structure Page where
  about : String
  usage : String
  sections : List Section

/-! ## Lines -/

/-- The length of the longest name. -/
def Section.width (s : Section) : Nat := (s.entries.map (·.1.length)).foldl max 0

def Section.lines (s : Section) : List String :=
  "" :: (s.heading ++ ":") :: s.entries.map fun (name, about) =>
    "  " ++ name ++ String.ofList (List.replicate (s.width + 2 - name.length) ' ') ++ about

def Page.lines (p : Page) : List String :=
  p.about :: "" :: ("Usage: " ++ p.usage) :: p.sections.flatMap (·.lines)

/-! ## Entries -/

/-- The name that stands for the value of an option. -/
def Opt.valueName (o : Opt) : String := o.name.toUpper.map fun c => if c = '-' then '_' else c

/-- The entry of an option, given what its environment variable holds. -/
def Opt.entry (o : Opt) (held : Option String) : String × String :=
  let value := if o.kind = .switch then "" else " <" ++ o.valueName ++ ">"
  let notes :=
    (o.variableName.map fun v => "[env: " ++ v ++ "=" ++ held.getD "" ++ "]").toList
      ++ (o.standard.map fun s => "[default: " ++ s ++ "]").toList
      ++ if o.kind = .bool then ["[possible values: true, false]"] else []
  ("    --" ++ o.name ++ value, " ".intercalate ((o.about :: notes).filter (· ≠ "")))

/-- How the words of a place are shown. -/
def Words.shown? : Words → Option String
  | command => some "<COMMAND>"
  | absent => none
  | single name => some ("<" ++ name ++ ">")
  | several name => some ("<" ++ name ++ ">...")

/-! ## Pages -/

/-- The entry of the command that shows pages. -/
def helpEntry : String × String :=
  ("help", "Print this message or the help of the given subcommand(s)")

/-- What stands in front of the options. -/
def Place.wordSections (p : Place) : List Section :=
  match p.words, p.words.shown? with
  | .command, _ => [⟨"Commands", Place.commands.map (fun c => (c.name, c.about)) ++ [helpEntry]⟩]
  | _, some shown => [⟨"Arguments", [(shown, "")]⟩]
  | _, none => []

/-- The page of a place, given the variable that names a configuration file. -/
def Place.page (p : Place) (configVariable : Option String) : Page where
  about := p.about
  usage := " ".intercalate ((["dlq", p.name, "[OPTIONS]"].filter (· ≠ "")) ++ p.words.shown?.toList)
  sections := p.wordSections
    ++ [⟨"Options", p.allOptions.map (·.entry configVariable) ++ [("-h, --help", "Print help")]⟩]

/-- The page of the command that shows pages. -/
def pageOfHelp : Page where
  about := helpEntry.2
  usage := "dlq help [COMMAND]..."
  sections := [⟨"Arguments", [("[COMMAND]...", "Print help for the subcommand(s)")]⟩]

/-- The page of the command with a name; the page of the program if there is no name. -/
def pageOf (command : String) (configVariable : Option String) : Page :=
  if command = helpEntry.1 then pageOfHelp
  else ((Place.ofName? command).getD .front).page configVariable

end DeadLetters.CommandLine
