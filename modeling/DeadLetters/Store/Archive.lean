import DeadLetters.Store

/-!
# Archives of a store

A store is kept in a file as text: a line for each table, and after it a line of JSON for each of
its rows.
-/

namespace DeadLetters

/-- Content metadata in JSON. -/
def Content.record : Json.Record Content where
  name := "Content"
  fields := [.plain "id" (.text aString), .plain "bucket" (.text aString),
    .plain "objectKey" (.text aString), .plain "sizeBytes" .int64,
    .plain "contentType" (.text aString), .plain "uploadedAt" .int64,
    .plain "attributes" (.text aString), .plain "updatedAt" .int64]
  row c := (c.id, c.bucket, c.objectKey, c.sizeBytes, c.contentType, c.uploadedAt, c.attributes,
    c.updatedAt, ())
  ofRow := fun (id, bucket, objectKey, sizeBytes, contentType, uploadedAt, attributes, updatedAt,
      _) =>
    { id, bucket, objectKey, sizeBytes, contentType, uploadedAt, attributes, updatedAt }
  ofRow_row _ := rfl

namespace Store

/-- The line in front of the dead letters. -/
def lettersLine : String := "dead_letters"

/-- The line in front of the content metadata. -/
def contentsLine : String := "content_metadata"

/-- The lines of a store; rows that cannot be read are left out. -/
def archive (s : Store) : List String :=
  let letters := s.letters.map fun rows =>
    lettersLine :: (rows.filter Row.legible).map fun r => DeadLetter.record.text r.letter
  let contents := s.contents.map fun cs => contentsLine :: cs.map Content.record.text
  letters.getD [] ++ contents.getD []

/-- Adds what a line holds. -/
def addLine? (s : Store) (line : String) : Option Store :=
  if line = "" then some s
  else if line = lettersLine then some { s with letters := some (s.letters.getD []) }
  else if line = contentsLine then some { s with contents := some (s.contents.getD []) }
  else
    match s.contents, s.letters with
    | some cs, _ =>
      (Content.record.parse line).toOption.map fun c => { s with contents := some (cs ++ [c]) }
    | none, some rows =>
      (DeadLetter.record.parse line).toOption.map fun l =>
        { s with letters := some (rows ++ [{ letter := l }]) }
    | none, none => none

/-- The store that lines hold. -/
def ofArchive? (lines : List String) : Option Store := lines.foldlM addLine? bare

end Store

end DeadLetters
