import DeadLetters.Store
import DeadLetters.Text.Numeral

/-!
# Interventions in a store

What somebody does to a store behind the program's back: tables come and go, changes are made to
fail, retry counts are overwritten, the store is closed.
-/

namespace DeadLetters.Store

/-- Creates the tables that are missing. -/
def createTables (s : Store) : Except Error Store :=
  if s.closed then .error .closed
  else
    .ok { s with letters := some (s.letters.getD []), contents := some (s.contents.getD []) }

def hasTables (s : Store) : Bool := s.letters.isSome && s.contents.isSome

/-- Prepares a store that has been opened: creates missing tables if that is wanted. -/
def prepare (s : Store) (autoMigrate mayWrite : Bool) : Except Error Store :=
  if !autoMigrate || (!mayWrite && s.hasTables) then .ok s
  else if mayWrite then s.createTables
  else .error .readOnly

/-- Whether a query is refused because the store must not be written; the lack of a table comes
first. -/
def refuses (s : Store) (q : Query) (mayWrite : Bool) : Bool :=
  !mayWrite && q.changes && s.hasTables

def close (s : Store) : Store := { s with closed := true }

/-- A kind of change. -/
inductive Verb where
  | insert
  | update
  | delete

inductive Intervention where
  /-- Makes changes of a kind fail, for each dead letter that they touch. -/
  | fail (verb : Verb)
  | heal (verb : Verb)
  | drop (table : String)
  /-- Writes a retry count into all dead letters. -/
  | retryCount (count : Int)

namespace Intervention

def verb? : String → Option Verb
  | "insert" => some .insert
  | "update" => some .update
  | "delete" => some .delete
  | _ => none

/-- Reads an intervention from its verb and object. -/
def ofText? (text : String) : Option Intervention :=
  match text.splitOn " " with
  | ["fail", v] => (verb? v).map fail
  | ["heal", v] => (verb? v).map heal
  | ["drop", table] => some (drop table)
  | ["retry_count", n] => (Text.signed? n.toList).map retryCount
  | _ => none

end Intervention

/-- Sets whether changes of a kind fail. -/
def Faults.set (f : Faults) (value : Bool) : Verb → Faults
  | .insert => { f with insert := value }
  | .update => { f with update := value }
  | .delete => { f with delete := value }

/-- Overwrites the retry count of a row. -/
def Row.withRetryCount (count : Nat) (r : Row) : Row :=
  if count < UInt32.size then
    { letter := { r.letter with retryCount := count.toUInt32 }, legible := true }
  else { r with legible := false }

/-- Drops a table, and with the dead letters the faults of their changes. -/
def dropTable (s : Store) (table : String) : Except Error Store :=
  if table = "dead_letters" ∧ s.letters.isSome then
    .ok { s with letters := none, faults := {} }
  else if table = "content_metadata" ∧ s.contents.isSome then .ok { s with contents := none }
  else .error (.missingTable table)

def setRetryCount (s : Store) (count : Int) : Except Error Store :=
  s.withRows fun rows =>
    if rows = [] then .ok s
    else if s.faults.update then .error (.injected "update")
    else if count < 0 then .error .negativeRetryCount
    else .ok { s with letters := some (rows.map (Row.withRetryCount count.toNat)) }

/-- The store after an intervention. -/
def intervene (s : Store) (i : Intervention) : Except Error Store :=
  if s.closed then .error .closed
  else
    match i with
    | .fail verb =>
      if s.letters.isSome then .ok { s with faults := s.faults.set true verb }
      else .error (.missingTable "main.dead_letters")
    | .heal verb => .ok { s with faults := s.faults.set false verb }
    | .drop table => s.dropTable table
    | .retryCount count => s.setRetryCount count

end DeadLetters.Store
