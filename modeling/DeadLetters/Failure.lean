import DeadLetters.Json.Printer
import DeadLetters.Text.Search

/-!
# Failures

Every failing operation ends in one of four kinds of failure.  The kind is fixed where the failure
arises and decides whether another delivery may help; the detail is for people.
-/

namespace DeadLetters

inductive Kind where
  /-- Fails the same way every time. -/
  | validation
  /-- No dead letter has the given id. -/
  | notFound
  /-- The store failed; the whole operation may be tried again. -/
  | storage
  /-- Handling a message failed; another delivery may succeed. -/
  | processing
  deriving DecidableEq, Repr

namespace Kind

/-- The name that dead letters and filters use. -/
def name : Kind → String
  | validation => "ValidationError"
  | notFound => "NotFoundError"
  | storage => "StorageError"
  | processing => "ProcessingError"

/-- The code that callers of the administration interface get. -/
def code : Kind → String
  | validation => "DLQ_VALIDATION_ERROR"
  | notFound => "DLQ_NOT_FOUND"
  | storage => "DLQ_STORAGE_ERROR"
  | processing => "DLQ_PROCESSING_ERROR"

/-- Whether another delivery may succeed. -/
def retryable : Kind → Bool
  | validation | notFound => false
  | storage | processing => true

/-- What messages of the kind start with. -/
def heading : Kind → String
  | validation => "validation error"
  | notFound => "dead letter not found"
  | storage => "storage error"
  | processing => "processing error"

end Kind

structure Failure where
  kind : Kind
  detail : String
  deriving DecidableEq, Repr

namespace Failure

def validation (detail : String) : Failure := ⟨.validation, detail⟩
def notFound (id : String) : Failure := ⟨.notFound, id⟩
def storage (detail : String) : Failure := ⟨.storage, detail⟩
def processing (detail : String) : Failure := ⟨.processing, detail⟩

def message (f : Failure) : String := f.kind.heading ++ ": " ++ f.detail

/-- What the store says of a table that has not been created. -/
def missingTablePhrase : String := "no such table"

/-- Whether the failure comes from a table that has not been created. -/
def isMissingTable (f : Failure) : Bool :=
  f.kind = .storage && Text.contains f.detail missingTablePhrase

end Failure

/-- A failure as callers of the administration interface see it. -/
structure Notice where
  code : String
  message : String
  deriving DecidableEq, Repr

namespace Notice

def ofFailure (f : Failure) : Notice := ⟨f.kind.code, f.message⟩

/-- The notice on one line. -/
def line (n : Notice) : String := n.code ++ ": " ++ n.message

/-- The notice as JSON text. -/
def text (n : Notice) : String :=
  String.ofList (Json.objectChars
    [("code", Json.stringChars n.code), ("message", Json.stringChars n.message)])

end Notice

end DeadLetters
