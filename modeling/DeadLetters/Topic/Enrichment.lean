import DeadLetters.DeadLetter
import DeadLetters.Text.Blank
import DeadLetters.Topic.Schema

/-!
# Enrichments

A message on the topic `enriched` brings attributes that another program has derived from a piece of
content.
-/

namespace DeadLetters.Topic

structure Enrichment where
  contentId : String
  attributes : Dictionary Json.Value

namespace Enrichment

def topic : String := "enriched"

/-- An enrichment in JSON. -/
def record : Json.Record Enrichment where
  name := "EnrichedEvent"
  fields := [.plain "contentId" (.text aString),
    .orElse "attributes" (.dictionary .any) Dictionary.empty]
  row e := (e.contentId, e.attributes, ())
  ofRow := fun (contentId, attributes, _) => { contentId, attributes }
  ofRow_row _ := rfl

def complaint? (e : Enrichment) : Option String :=
  if Text.isBlankText e.contentId then some "contentId must not be empty" else none

def schema : Schema Enrichment := ⟨record, complaint?⟩

/-- The attributes as the JSON text of a patch. -/
def patch (e : Enrichment) : String :=
  String.ofList (Json.Schema.chars (.dictionary .any) e.attributes)

end Enrichment

end DeadLetters.Topic
