import DeadLetters.CommandLine.Session
import DeadLetters.Store.Archive
import Std.Time.DateTime.Timestamp

/-!
# The command line

Runs the program of a command: its requests go to a store that is kept in a file, to the clock of
this computer and to its standard streams.  No queue service is reachable from here.
-/

namespace DeadLetters.CommandLine

/-- Reads a file as text. -/
def readText (path : String) : IO (Except ReadError String) := do
  try
    match String.fromUTF8? (← IO.FS.readBinFile path) with
    | some text => return .ok text
    | none => return .error .notText
  catch
    | .inappropriateType _ 21 _ => return .error .directory
    | .inappropriateType _ _ _ => return .error .notDirectory
    | .invalidArgument _ _ _ => return .error .nameTooLong
    | _ => return .error .missing

/-- Reads the store at a path; a new one if there is no file and it may be made. -/
def readStore (path : String) (access : Access) : IO (Except Store.Error Store) := do
  match ← readText path with
  | .error .missing => return if access.mayCreate then .ok .bare else .error .cannotOpen
  | .error .notText => return .error .notAStore
  | .error _ => return .error .cannotOpen
  | .ok text =>
    match Store.ofArchive? (text.splitOn "\n") with
    | some s => return .ok s
    | none => return .error .notAStore

/-- Writes a store to its file. -/
def writeStore (path : String) (s : Store) : IO (Except Store.Error Unit) := do
  try
    IO.FS.writeFile path ("\n".intercalate s.archive ++ "\n")
    return .ok ()
  catch _ => return .error .cannotOpen

/-- Finds the store at an address. -/
def findStore : Address → IO (Except Store.Error Store)
  | .fleeting => return .ok .bare
  | .file path access => readStore path access

/-- Whether the store at an address may be changed. -/
def Address.mayWrite : Address → Bool
  | fleeting => true
  | file _ access => access.mayWrite

/-- Keeps a store at its address. -/
def keepStore (a : Address) (s : Store) : IO (Except Store.Error Unit) :=
  match a with
  | .fleeting => return .ok ()
  | .file path access => if access.mayWrite then writeStore path s else return .ok ()

/-- Opens the store of a configuration. -/
def openFile (c : Config) : IO (Except Store.Error (Address × Store)) := do
  match Address.ofText c.databasePath with
  | .error e => return .error e
  | .ok a =>
    match ← findStore a with
    | .error e => return .error e
    | .ok s =>
      match s.prepare c.autoMigrate a.mayWrite with
      | .error e => return .error e
      | .ok s => return (← keepStore a s).map fun _ => (a, s)

/-- A random id of the usual form. -/
def randomId : IO String := do
  let digits (n : Nat) : IO String := do
    let ds ← (List.range n).mapM fun _ => return Nat.digitChar (← IO.rand 0 15)
    return String.ofList ds
  let variant := Nat.digitChar (← IO.rand 8 11)
  return (← digits 8) ++ "-" ++ (← digits 4) ++ "-4" ++ (← digits 3) ++ "-"
    ++ variant.toString ++ (← digits 3) ++ "-" ++ (← digits 12)

/-- What the requests of a program go to. -/
structure Desk where
  address : Address
  store : IO.Ref Store
  queues : Queue.Bindings
  logFilter : Log.Filter

/-- No queue service is reachable. -/
def noService : Queue.Call → Queue.Outcome := fun _ => .unreachable

/-- Answers a request. -/
def Desk.answer (d : Desk) : (r : Request) → IO r.Answer
  | .store q => do
    let s ← d.store.get
    if s.refuses q d.address.mayWrite then return some (.error .readOnly)
    let (a, s) := s.answer q
    d.store.set s
    match ← keepStore d.address s with
    | .ok () => return some a
    | .error e => return some (.error e)
  | .send topic payload => return some (d.queues.send noService topic payload)
  | .acknowledge topic m => return some (d.queues.acknowledge noService topic m)
  | .receive topic => return some (d.queues.receive noService topic)
  | .clock => return .ofInt (← Std.Time.Timestamp.now).toMillisecondsSinceUnixEpoch.val
  | .stopwatch => return (← IO.monoNanosNow) / 1000
  | .freshId => randomId
  | .log e => if d.logFilter.allows e then IO.eprintln e.entry else return ()
  | .sample _ => return ()
  | .print line => IO.println line

/-- Runs a program to its end; none if it is stuck. -/
def Desk.run {α : Type} (d : Desk) : Program α → IO (Option α)
  | .done a => return some a
  | .stuck => return none
  | .ask r next => do
    let a ← d.answer r
    d.run (next a)

/-- The environment variables that override a configuration. -/
def readEnvironment : IO Environment := do
  return {
    database := ← IO.getEnv "DLQ_DATABASE"
    retryCeiling := ← IO.getEnv "DLQ_RETRY_CEILING"
    deadLetterTopic := ← IO.getEnv "DLQ_DEAD_LETTER_TOPIC" }

/-- Reports why a session failed. -/
def complain (line : String) : IO UInt32 := do
  IO.eprintln line
  return 1

/-- Does what an invocation says. -/
def Invocation.execute (i : Invocation) (logFilter : Log.Filter) : IO UInt32 := do
  let file ← match i.config with
    | none => pure none
    | some path => pure (some (path, ← readText path))
  let layers : Layers := ⟨file, ← readEnvironment, i.database⟩
  match layers.effective with
  | .error f => complain f.message
  | .ok c =>
    match ← openFile c with
    | .error e => complain ("failed to open " ++ c.databasePath ++ ": " ++ e.chain)
    | .ok (address, store) =>
      let d : Desk := {
        address
        store := ← IO.mkRef store
        queues := (i.command.queues c).getD .empty
        logFilter }
      match ← d.run (i.command.program UInt32.size c) with
      | some (.ok ()) => return 0
      | some (.error line) => complain line
      | none => return 1

end DeadLetters.CommandLine

open DeadLetters DeadLetters.CommandLine in
def main (args : List String) : IO UInt32 := do
  let (logFilter, flaws) := Log.Filter.ofText ((← IO.getEnv "RUST_LOG").getD "warn")
  flaws.forM fun f => IO.eprintln f.warning
  let configVariable ← IO.getEnv "DLQ_CONFIG"
  match Invocation.ofArguments args configVariable with
  | .ok i => i.execute logFilter
  | .error (.help command) =>
    (pageOf command configVariable).lines.forM IO.println
    return 0
  | .error .usage =>
    IO.eprintln
      "usage: dlq [options] (stats | list | reprocess ID... | purge --yes | consume TOPIC)"
    return 2
