import DeadLetters.World

/-!
# Steady collaborators

Collaborators whose behaviour does not change: what they do with a request depends on its topic and
its message alone.  The store accepts every query, or is locked and never answers.
-/

namespace DeadLetters

structure Steady where
  send : String → Reply Transport.Error
  /-- By topic and message. -/
  acknowledge : String → Message String → Reply Transport.Error
  clock : Int64
  freshId : Nat → String

namespace Steady

/-- The surroundings of steady collaborators, in which nothing is ever received. -/
def surroundings (c : Steady) (locked : Bool) : Surroundings where
  store _ _ := if locked then .silent else .accepts
  send _ := c.send
  acknowledge _ := c.acknowledge
  receive _ _ := some (.ok [])
  clock _ := c.clock
  stopwatch _ := 0
  freshId := c.freshId

end Steady

end DeadLetters
