import DeadLetters.Failure

/-!
# Errors of the store

A store error is what the database engine answers, with a code, or a failure of the connection or of
decoding a row.  Only the engine can report a missing table.
-/

namespace DeadLetters.Store

inductive Error where
  /-- The engine refused a query. -/
  | database (code : Nat) (message : String)
  /-- The store has been closed. -/
  | closed
  /-- A column holds a value that does not fit. -/
  | decode (column problem : String)
  /-- The engine cannot be talked to. -/
  | communication (problem : String)
  /-- Any other failure of the connection. -/
  | connection (message : String)
  deriving DecidableEq, Repr

namespace Error

/-- What the engine says, with its code. -/
def coded (code : Nat) (message : String) : String :=
  "(code: " ++ toString code ++ ") " ++ message

def message : Error → String
  | database code m => "error returned from database: " ++ coded code m
  | closed => "attempted to acquire a connection on a closed pool"
  | decode column problem =>
    "error occurred while decoding column \"" ++ column ++ "\": " ++ problem
  | communication problem => "error communicating with database: " ++ problem
  | connection m => m

/-- The message and what lies behind it. -/
def chain : Error → String
  | database code m => (database code m).message ++ ": " ++ coded code m
  | communication problem => (communication problem).message ++ ": " ++ problem
  | e => e.message

/-- Whether the engine misses a table. -/
def isMissingTable : Error → Bool
  | database _ m => Text.contains m Failure.missingTablePhrase
  | _ => false

/-- The failure of an operation that the error ends. -/
def failure (e : Error) : Failure := .storage e.message

def missingTable (table : String) : Error :=
  database 1 (Failure.missingTablePhrase ++ ": " ++ table)

/-- A second row with the id of another. -/
def duplicateId : Error := database 1555 "UNIQUE constraint failed: dead_letters.id"

/-- A negative retry count. -/
def negativeRetryCount : Error := database 275 "CHECK constraint failed: retry_count >= 0"

def malformedJson : Error := database 1 "malformed JSON"

/-- Attributes that would be missing, because no text came out of merging them. -/
def missingAttributes : Error :=
  database 1299 "NOT NULL constraint failed: content_metadata.attributes_json"

/-- A failure that was asked for. -/
def injected (verb : String) : Error := database 1811 ("injected " ++ verb ++ " failure")

/-- A retry count that does not fit its field. -/
def retryCountTooLarge : Error := decode "retry_count" "number too large to fit in target type"

/-- A file that cannot be opened. -/
def cannotOpen : Error := database 14 "unable to open database file"

/-- A change of a store that must not be written. -/
def readOnly : Error := database 8 "attempt to write a readonly database"

/-- A file that holds something else. -/
def notAStore : Error := database 26 "file is not a database"

end Error

end DeadLetters.Store
