import DeadLetters.DeadLetter
import DeadLetters.Text.Blank
import DeadLetters.Topic.Schema

/-!
# Uploads

A message on the topic `ingest` tells that an object has landed in the content bucket.
-/

namespace DeadLetters.Topic

structure Upload where
  contentId : String
  bucket : String
  key : String
  sizeBytes : UInt64
  contentType : String
  /-- Milliseconds since the epoch. -/
  uploadedAt : Int64
  deriving DecidableEq

namespace Upload

def topic : String := "ingest"

/-- An upload in JSON. -/
def record : Json.Record Upload where
  name := "IngestEvent"
  fields := [.plain "contentId" (.text aString), .plain "bucket" (.text aString),
    .plain "key" (.text aString), .plain "sizeBytes" .word64,
    .plain "contentType" (.text aString), .plain "uploadedAt" .int64]
  row u := (u.contentId, u.bucket, u.key, u.sizeBytes, u.contentType, u.uploadedAt, ())
  ofRow := fun (contentId, bucket, key, sizeBytes, contentType, uploadedAt, _) =>
    { contentId, bucket, key, sizeBytes, contentType, uploadedAt }
  ofRow_row _ := rfl

/-- Ids and places must not be blank, and a media type has a slash. -/
def complaint? (u : Upload) : Option String :=
  if Text.isBlankText u.contentId then some "contentId must not be empty"
  else if Text.isBlankText u.bucket then some "bucket must not be empty"
  else if Text.isBlankText u.key then some "key must not be empty"
  else if !u.contentType.toList.contains '/' then
    some ("contentType '" ++ u.contentType ++ "' is not a media type")
  else none

def schema : Schema Upload := ⟨record, complaint?⟩

end Upload

end DeadLetters.Topic
