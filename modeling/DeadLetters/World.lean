import DeadLetters.Program

/-!
# Worlds

A world is a store together with the collaborators around a program: what they do with the n-th
request is given in advance by the surroundings.  A collaborator accepts a request, fails it with a
reason, or stays silent for ever.  The world keeps a journal of all requests and their answers, in
order.

    (w.answer env r).2.journal = w.journal ++ [⟨r, (w.answer env r).1⟩]        (journal_answer)
-/

namespace DeadLetters

/-- What a collaborator does with a request. -/
inductive Reply (ε : Type) where
  | accepts
  | fails (reason : ε)
  | silent

/-- The reply of a call with a result. -/
def Reply.ofResult {ε : Type} : Except ε Unit → Reply ε
  | .ok () => accepts
  | .error reason => fails reason

/-- The answer that a reply gives. -/
def Reply.answer {ε : Type} : Reply ε → Option (Except ε Unit)
  | accepts => some (.ok ())
  | fails reason => some (.error reason)
  | silent => none

/-- What the collaborators do with each request, by its number. -/
structure Surroundings where
  /-- By query. -/
  store : Nat → Store.Query → Reply Store.Error
  /-- By topic. -/
  send : Nat → String → Reply Transport.Error
  /-- By topic and message. -/
  acknowledge : Nat → String → Message String → Reply Transport.Error
  /-- By topic. -/
  receive : Nat → String → Option (Except Transport.Error (List Delivery))
  clock : Nat → Int64
  stopwatch : Nat → Nat
  freshId : Nat → String

/-- A request and its answer. -/
abbrev Exchange := (r : Request) × r.Answer

structure World where
  store : Store
  /-- How many requests have been made. -/
  steps : Nat
  journal : List Exchange

namespace World

/-- A world in which nothing has happened yet. -/
def new (store : Store) : World := ⟨store, 0, []⟩

/-- The answer of the collaborators to a request, and the store after it. -/
def react (env : Surroundings) (w : World) : (r : Request) → r.Answer × Store
  | .store q =>
    match env.store w.steps q with
    | .accepts => (some (w.store.answer q).1, (w.store.answer q).2)
    | .fails e => (some (.error e), w.store)
    | .silent => (none, w.store)
  | .send topic _ => ((env.send w.steps topic).answer, w.store)
  | .acknowledge topic m => ((env.acknowledge w.steps topic m).answer, w.store)
  | .receive topic => (env.receive w.steps topic, w.store)
  | .clock => (env.clock w.steps, w.store)
  | .stopwatch => (env.stopwatch w.steps, w.store)
  | .freshId => (env.freshId w.steps, w.store)
  | .log _ => ((), w.store)
  | .sample _ => ((), w.store)
  | .print _ => ((), w.store)

/-- The answer to a request, and the world after it. -/
def answer (env : Surroundings) (w : World) (r : Request) : r.Answer × World :=
  ((w.react env r).1,
    ⟨(w.react env r).2, w.steps + 1, w.journal ++ [⟨r, (w.react env r).1⟩]⟩)

/-- Runs a program in the world. -/
def run {α : Type} (env : Surroundings) (w : World) (p : Program α) : Option α × World :=
  p.run (answer env) w

/-- Gives each program a turn, in order, and then runs them to their ends, one after another. -/
def runTogether {α : Type} (env : Surroundings) (w : World) (ps : List (Program α)) :
    List (Option α) × World :=
  let (ps, w) := Program.interleave (answer env) (List.range ps.length) ps w
  Program.runAll (answer env) ps w

/-- Each request is put down with its answer, in the order of asking. -/
theorem journal_answer (env : Surroundings) (w : World) (r : Request) :
    (w.answer env r).2.journal = w.journal ++ [⟨r, (w.answer env r).1⟩] := rfl

end World

/-! ## Views of a journal -/

namespace Exchange

/-- A publication that was accepted. -/
def sent? : Exchange → Option (String × String)
  | ⟨.send topic payload, some (.ok ())⟩ => some (topic, payload)
  | _ => none

/-- An acknowledgement that was accepted. -/
def acknowledged? : Exchange → Option (String × String)
  | ⟨.acknowledge topic m, some (.ok ())⟩ => some (topic, m.id)
  | _ => none

def logged? : Exchange → Option Log.Event
  | ⟨.log e, _⟩ => some e
  | _ => none

def sampled? : Exchange → Option Sample
  | ⟨.sample s, _⟩ => some s
  | _ => none

def printed? : Exchange → Option String
  | ⟨.print line, _⟩ => some line
  | _ => none

end Exchange

/-- The samples of a journal, added up. -/
def tallyOf (journal : List Exchange) : Tally :=
  (journal.filterMap Exchange.sampled?).foldl Tally.add .empty

end DeadLetters
