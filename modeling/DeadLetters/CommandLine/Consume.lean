import DeadLetters.Queue
import DeadLetters.Router

/-!
# Consuming a topic

The queue of a topic is polled batch by batch until a poll brings no message, or fails, or as many
polls have been made as are allowed.  The report of each batch is printed.

The polls are counted in a word of 32 bits, and a poll is counted before the count is compared with
the limit.  Behind the greatest limit the count starts again from zero, so that the comparison never
stops the loop there, and a program that is a tree has no such loop: so the loop is given a number
of rounds to be followed, and tells where it stands behind them.

    following m rounds and then n is following m + n        (poll_add)
-/

namespace DeadLetters.CommandLine

/-- Where the polling of a topic stands. -/
inductive Polling where
  /-- It goes on, and so many polls have been counted. -/
  | going (polls : UInt32)
  | ended (result : Except Transport.Error Unit)

/-- One round of the loop: counts a poll, and makes it unless the count is beyond the limit. -/
def round (router : Router) (topic : String) (maxPolls polls : UInt32) : Program Polling := do
  let polls := polls + 1
  if maxPolls < polls then return .ended (.ok ())
  match ← Queue.receiveBatch topic with
  | .error e => return .ended (.error e)
  | .ok [] => return .ended (.ok ())
  | .ok (m :: ms) =>
    let report ← router.processBatch topic (m :: ms)
    Program.print report.text
    return .going polls

/-- The loop, followed for a number of rounds. -/
def poll (router : Router) (topic : String) (maxPolls : UInt32) : Nat → UInt32 → Program Polling
  | 0, polls => return .going polls
  | rounds + 1, polls => do
    match ← round router topic maxPolls polls with
    | .going polls => poll router topic maxPolls rounds polls
    | .ended result => return .ended result

/-- Consumes a topic, for a number of rounds; warns if nobody handles it. -/
def consume (router : Router) (topic : String) (maxPolls : UInt32) (rounds : Nat) :
    Program Polling := do
  if !router.topics.contains topic then
    Program.log ⟨.warn, "dlq::consume",
      "no handler for topic '" ++ topic ++ "', messages will be acknowledged unprocessed", []⟩
  poll router topic maxPolls rounds 0

/-- The number of rounds only says how long the loop is followed. -/
theorem poll_add (router : Router) (topic : String) (maxPolls : UInt32) (m n : Nat)
    (polls : UInt32) :
    poll router topic maxPolls (m + n) polls =
      (poll router topic maxPolls m polls).bind fun
        | .going polls => poll router topic maxPolls n polls
        | .ended result => .done (.ended result) := by
  induction m generalizing polls with
  | zero =>
    rw [Nat.zero_add]
    rfl
  | succ m ih =>
    rw [Nat.add_right_comm]
    show Program.bind _ _ = Program.bind (Program.bind _ _) _
    rw [Program.bind_assoc]
    refine congrArg _ (funext fun stand => ?_)
    cases stand with
    | going polls => exact ih polls
    | ended result => rfl

end DeadLetters.CommandLine
