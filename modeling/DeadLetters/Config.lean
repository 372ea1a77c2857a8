import DeadLetters.DeadLetter
import DeadLetters.Failure
import DeadLetters.Text.Blank
import DeadLetters.Text.Numeral

/-!
# Configuration

A configuration is put together from layers: defaults, a JSON file, environment variables and the
command line, later ones overriding earlier ones.  Only the result of all layers has to be valid.
-/

namespace DeadLetters

structure Config where
  /-- The file that holds the dead letters. -/
  databasePath : String := "dlq.db"
  /-- Whether missing tables are created when the store is opened. -/
  autoMigrate : Bool := true
  /-- The delivery at which a failing message is given up. -/
  retryCeiling : UInt32 := 3
  /-- The topic that is told of every dead letter. -/
  deadLetterTopic : String := "dead-letters"
  /-- A purge of more dead letters than this is warned of. -/
  purgeWarningThreshold : UInt64 := 100
  /-- How many seconds a call of a collaborator may take. -/
  operationTimeout : UInt64 := 30
  /-- The address of the queue of each topic. -/
  topicQueues : Dictionary String := .empty

/-- Why a file cannot be read as text. -/
inductive ReadError where
  | missing
  | directory
  /-- A part of the path is a file. -/
  | notDirectory
  | notText
  | nameTooLong

namespace ReadError

def message : ReadError → String
  | missing => "No such file or directory (os error 2)"
  | directory => "Is a directory (os error 21)"
  | notDirectory => "Not a directory (os error 20)"
  | notText => "stream did not contain valid UTF-8"
  | nameTooLong => "File name too long (os error 36)"

end ReadError

namespace Config

/-- A configuration in JSON. -/
def record : Json.Record Config where
  name := "DlqConfig"
  fields := [.orElse "database_path" (.text "path string") "dlq.db",
    .orElse "auto_migrate" .bool true, .orElse "retry_ceiling" .word32 (3 : UInt32),
    .orElse "dead_letter_topic" (.text aString) "dead-letters",
    .orElse "purge_warning_threshold" .word64 (100 : UInt64),
    .orElse "operation_timeout_secs" .word64 (30 : UInt64),
    .orElse "topic_queues" (.dictionary (.text aString)) Dictionary.empty]
  row c := (c.databasePath, c.autoMigrate, c.retryCeiling, c.deadLetterTopic,
    c.purgeWarningThreshold, c.operationTimeout, c.topicQueues, ())
  ofRow := fun (databasePath, autoMigrate, retryCeiling, deadLetterTopic, purgeWarningThreshold,
      operationTimeout, topicQueues, _) =>
    { databasePath, autoMigrate, retryCeiling, deadLetterTopic, purgeWarningThreshold,
      operationTimeout, topicQueues }
  ofRow_row _ := rfl

/-- The configuration in the file at `path`. -/
def ofFile (path : String) : Except ReadError String → Except Failure Config
  | .error e => .error (.validation ("cannot read config " ++ path ++ ": " ++ e.message))
  | .ok text =>
    match record.parse text with
    | .error e => .error (.validation ("invalid config " ++ path ++ ": " ++ e.message))
    | .ok c => .ok c

/-- What a usable configuration has to satisfy. -/
structure Valid (c : Config) : Prop where
  ceiling : c.retryCeiling ≠ 0
  timeout : c.operationTimeout ≠ 0
  topic : Text.isBlankText c.deadLetterTopic = false

/-- The first reason why a configuration is not usable. -/
def complaint? (c : Config) : Option String :=
  if c.retryCeiling = 0 then some "retry_ceiling must be at least 1"
  else if c.operationTimeout = 0 then some "operation_timeout_secs must be at least 1"
  else if Text.isBlankText c.deadLetterTopic then some "dead_letter_topic cannot be empty"
  else none

/-- There is nothing to complain of in a valid configuration, and in no other. -/
theorem complaint?_eq_none_iff (c : Config) : c.complaint? = none ↔ c.Valid := by
  unfold complaint?
  constructor
  · intro h
    repeat' split at h
    all_goals simp_all only [reduceCtorEq, Bool.not_eq_true]
    constructor <;> assumption
  · intro h
    simp [h.ceiling, h.timeout, h.topic]

/-- The configuration itself, if it is usable. -/
def validate (c : Config) : Except Failure Config :=
  match c.complaint? with
  | some complaint => .error (.validation complaint)
  | none => .ok c

/-- Validation changes nothing: it passes on what is valid. -/
theorem validate_eq_ok_iff {c d : Config} : c.validate = .ok d ↔ d = c ∧ c.Valid := by
  rw [← complaint?_eq_none_iff, validate]
  cases c.complaint? with
  | none => simp [eq_comm]
  | some complaint => simp

/-- The timeout of a hand-off to the dead letters, which makes two calls: twice the timeout, as far
as 64 bits reach. -/
def handOffTimeout (c : Config) : Nat := min (2 * c.operationTimeout.toNat) (UInt64.size - 1)

end Config

/-- The environment variables that override a configuration. -/
structure Environment where
  database : Option String := none
  retryCeiling : Option String := none
  deadLetterTopic : Option String := none

namespace Environment

/-- The retry ceiling after the environment has been looked at. -/
def ceiling (e : Environment) (c : Config) : Except Failure UInt32 :=
  match e.retryCeiling with
  | none => .ok c.retryCeiling
  | some text =>
    match Text.uint32? text with
    | some n => .ok n
    | none => .error (.validation ("DLQ_RETRY_CEILING is not a number: '" ++ text ++ "'"))

/-- Overrides a configuration; the result has to be usable. -/
def apply (e : Environment) (c : Config) : Except Failure Config :=
  match e.ceiling c with
  | .error f => .error f
  | .ok ceiling =>
    Config.validate
      { c with
        databasePath := e.database.getD c.databasePath
        retryCeiling := ceiling
        deadLetterTopic := e.deadLetterTopic.getD c.deadLetterTopic }

end Environment

/-- All layers of a configuration above its defaults. -/
structure Layers where
  /-- The path of the file and what reading it gave, if there is a file. -/
  file : Option (String × Except ReadError String)
  environment : Environment
  /-- The database named on the command line. -/
  database : Option String

namespace Layers

/-- The configuration in the file, or the default one. -/
def base (l : Layers) : Except Failure Config :=
  match l.file with
  | none => .ok {}
  | some (path, content) => Config.ofFile path content

/-- The configuration that all layers make. -/
def effective (l : Layers) : Except Failure Config :=
  match l.base with
  | .error f => .error f
  | .ok c =>
    match l.environment.apply c with
    | .error f => .error f
    | .ok c => Config.validate { c with databasePath := l.database.getD c.databasePath }

end Layers

end DeadLetters
