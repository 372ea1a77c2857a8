/-!
# Messages

A message as a queue delivers it.  The queue counts its deliveries from one and redelivers it until
it is acknowledged.
-/

namespace DeadLetters

/-- A delivered message with a body of type `β`. -/
structure Message (β : Type) where
  id : String
  /-- Which delivery this is. -/
  attempt : UInt32
  body : β
  /-- The handle by which the message is acknowledged, if the queue uses one. -/
  receipt : Option String
  one_le_attempt : 1 ≤ attempt

namespace Message

variable {β γ : Type}

/-- A message without a receipt; deliveries count from one. -/
def new (id : String) (attempt : UInt32) (body : β) : Message β :=
  if h : 1 ≤ attempt then ⟨id, attempt, body, none, h⟩
  else ⟨id, 1, body, none, UInt32.le_refl 1⟩

def withReceipt (m : Message β) (receipt : String) : Message β :=
  { m with receipt := some receipt }

/-- The same message with another body. -/
def withBody (m : Message β) (body : γ) : Message γ :=
  ⟨m.id, m.attempt, body, m.receipt, m.one_le_attempt⟩

end Message

/-- Where a failed message came from. -/
structure Origin where
  messageId : String
  topic : String
  /-- The delivery that failed. -/
  retryCount : UInt32
  deriving DecidableEq, Repr

/-- The origin of a message delivered on `topic`. -/
def Origin.ofMessage {β : Type} (topic : String) (m : Message β) : Origin :=
  ⟨m.id, topic, m.attempt⟩

end DeadLetters
