import DeadLetters.CommandLine.Arguments
import DeadLetters.CommandLine.Consume
import DeadLetters.CommandLine.Folder
import DeadLetters.CommandLine.Help
import DeadLetters.Log.Filter
import DeadLetters.Service.Reprocessing
import DeadLetters.Topic.Processing

/-!
# Sessions of the command line

A session reads the arguments, puts the configuration together, opens the store and does what the
command says.  A session that fails says why on one line and ends with the code 1; arguments that
cannot be read end it with the code 2.
-/

namespace DeadLetters.CommandLine

/-- The service of a command line, over the queues of its configuration if it has a transport. -/
def service (c : Config) (queues : Option Queue.Bindings) : Service :=
  { Service.ofConfig c with
    binds := queues.map Queue.Bindings.binds
    replay := .standard
    sink := .logged }

/-- The queues that a command uses. -/
def Command.queues (c : Config) : Command → Option Queue.Bindings
  | reprocess _ => some c.topicQueues
  | consume topic (some url) _ => some (c.topicQueues.insert topic url)
  | consume _ none _ => some c.topicQueues
  | _ => none

/-- Says why a call of the service failed, as JSON. -/
def orNotice {α : Type} (result : Except Failure α) (next : α → Program (Except String Unit)) :
    Program (Except String Unit) :=
  match result with
  | .ok a => next a
  | .error f => return .error (Notice.ofFailure f).text

/-- Prints lines. -/
def printAll : List String → Program (Except String Unit)
  | [] => return .ok ()
  | line :: lines => do
    Program.print line
    printAll lines

/-- Does what a command says; an error is the line to fail with.  A consumer that is still polling
behind the rounds counts as one that never ends. -/
def Command.program (rounds : Nat) (c : Config) (command : Command) :
    Program (Except String Unit) := do
  let s := service c (command.queues c)
  match command with
  | stats => orNotice (← s.stats) fun stats => printAll [Stats.record.text stats]
  | list f => orNotice (← s.list f) fun ls => printAll (ls.map DeadLetter.record.text)
  | purge _ false => return .error "refusing to purge dead letters without --yes"
  | purge f true =>
    orNotice (← s.purge f) fun deleted =>
      printAll [String.ofList (Json.objectChars [("deleted", Json.intChars (Int.ofNat deleted))])]
  | reprocess ids =>
    let results ← s.reprocessAll ids
    let members := results.entries.map fun e => (e.1, Json.stringChars e.2)
    printAll [String.ofList (Json.objectChars members)]
  | consume topic _ maxPolls =>
    let handlers := Topic.handlers .store s (.ofConfig c)
    let router ← (Router.empty .logged c.operationTimeout.toNat).registerAll handlers
    match ← CommandLine.consume router topic maxPolls rounds with
    | .ended (.ok ()) => return .ok ()
    | .ended (.error e) =>
      return .error ("failed to receive from topic '" ++ topic ++ "': " ++ e.message)
    | .going _ => .stuck

/-! ## Sessions in a folder -/

/-- What a session leaves behind. -/
structure Ending where
  code : Nat
  /-- The lines that were printed. -/
  output : List String
  /-- The warnings about the log filter, the log, and the reason of a failure. -/
  complaints : List String

/-- What surrounds the sessions in a folder. -/
structure Setting where
  environment : Environment
  /-- The variable that names a configuration file. -/
  configVariable : Option String
  /-- The filter of the log, as it is written. -/
  logFilter : String
  queueService : Queue.Call → Queue.Outcome
  clock : Int64
  freshId : Nat → String
  /-- How many rounds of a consumer are followed; a limit that is noticed is noticed in so many. -/
  rounds : Nat := UInt32.size

/-- What an opened store does with a query. -/
def Folder.Opened.reply (o : Folder.Opened) (q : Store.Query) : Reply Store.Error :=
  if o.store.refuses q o.mayWrite then .fails .readOnly else .accepts

/-- The surroundings of a session's program. -/
def Setting.surroundings (t : Setting) (o : Folder.Opened) (queues : Queue.Bindings) :
    Surroundings where
  store _ := o.reply
  send _ topic := Reply.ofResult (queues.send t.queueService topic "")
  acknowledge _ topic m := Reply.ofResult (queues.acknowledge t.queueService topic m)
  receive _ topic := some (queues.receive t.queueService topic)
  clock _ := t.clock
  stopwatch _ := 0
  freshId := t.freshId

/-- The warnings about the log filter. -/
def Setting.warnings (t : Setting) : List String :=
  (Log.Filter.ofText t.logFilter).2.map (·.warning)

/-- Whether the log shows an event. -/
def Setting.allows (t : Setting) (e : Log.Event) : Bool :=
  (Log.Filter.ofText t.logFilter).1.allows e

/-- A session that failed. -/
def Ending.failed (complaints : List String) : Ending := ⟨1, [], complaints⟩

/-- The session of an invocation, and the folder after it. -/
def Invocation.session (t : Setting) (f : Folder) (i : Invocation) : Ending × Folder :=
  let layers : Layers :=
    ⟨i.config.map fun path => (path, f.read path), t.environment, i.database⟩
  match layers.effective with
  | .error e => (.failed (t.warnings ++ [e.message]), f)
  | .ok c =>
    match f.openStore c.databasePath c.autoMigrate with
    | .error e =>
      (.failed (t.warnings ++ ["failed to open " ++ c.databasePath ++ ": " ++ e.chain]), f)
    | .ok opened =>
      let queues := (i.command.queues c).getD .empty
      let env := t.surroundings opened queues
      let (result, w) := (World.new opened.store).run env (i.command.program t.rounds c)
      let events := (w.journal.filterMap Exchange.logged?).filter t.allows
      let log := t.warnings ++ events.map (·.entry)
      let output := w.journal.filterMap Exchange.printed?
      let ending : Ending :=
        match result with
        | some (.ok ()) => ⟨0, output, log⟩
        | some (.error line) => ⟨1, output, log ++ [line]⟩
        | none => ⟨1, output, log⟩
      (ending, f.keep opened w.store)

/-- The session of a command line, and the folder after it. -/
def session (t : Setting) (f : Folder) (args : List String) : Ending × Folder :=
  match Invocation.ofArguments args t.configVariable with
  | .error .usage => (⟨2, [], []⟩, f)
  | .error (.help command) => (⟨0, (pageOf command t.configVariable).lines, t.warnings⟩, f)
  | .ok i => i.session t f

end DeadLetters.CommandLine
