import DeadLetters.Dictionary
import DeadLetters.Message
import DeadLetters.Text.Numeral

/-!
# Deliveries

What a queue service hands out.  A delivery becomes a message if it has an id and a body; how often
it has been received is written in an attribute, and counts as once where that is not a number.
-/

namespace DeadLetters

structure Delivery where
  id : Option String
  receipt : Option String
  body : Option String
  attributes : Dictionary String

namespace Delivery

/-- The attribute that counts how often the message has been received. -/
def receiveCount : String := "ApproximateReceiveCount"

def attempt (d : Delivery) : UInt32 :=
  ((d.attributes.find? receiveCount).bind Text.uint32?).getD 1

/-- The message of a delivery. -/
def message? (d : Delivery) : Option (Message String) :=
  match d.id, d.body with
  | some id, some body => some { Message.new id d.attempt body with receipt := d.receipt }
  | _, _ => none

end Delivery

end DeadLetters
