/-!
# Content metadata

What the handlers write down about a piece of content: the facts of its last upload, and attributes
that other programs have found out about it.
-/

namespace DeadLetters

structure Content where
  id : String
  bucket : String
  objectKey : String
  sizeBytes : Int64
  contentType : String
  /-- Milliseconds since the epoch. -/
  uploadedAt : Int64
  /-- The attributes as JSON text. -/
  attributes : String
  updatedAt : Int64
  deriving DecidableEq

/-- The facts of `new`, the attributes of `old`. -/
def Content.refresh (old new : Content) : Content := { new with attributes := old.attributes }

end DeadLetters
