import DeadLetters.DeadLetter
import DeadLetters.Topic.Schema

/-!
# Scripts

A script is a body that says itself how its handling ends.  It serves trials of the handlers: its
schema may reject it, and processing it may fail in any way or never end.
-/

namespace DeadLetters.Topic

structure Script where
  /-- Why the schema rejects the body. -/
  reject : Option String
  /-- The name of the kind of failure. -/
  fail : Option String
  detail : String
  /-- Processing never ends. -/
  stall : Bool

namespace Script

/-- A script in JSON. -/
def record : Json.Record Script where
  name := "Script"
  fields := [.orElse "reject" (.nullable (.text aString)) none,
    .orElse "fail" (.nullable (.text aString)) none, .orElse "msg" (.text aString) "",
    .orElse "stall" .bool false]
  row s := (s.reject, s.fail, s.detail, s.stall, ())
  ofRow := fun (reject, fail, detail, stall, _) => { reject, fail, detail, stall }
  ofRow_row _ := rfl

def schema : Schema Script := ⟨record, reject⟩

end Script

end DeadLetters.Topic
