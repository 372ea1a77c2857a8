import DeadLetters.Delivery
import DeadLetters.Metrics
import DeadLetters.Store
import DeadLetters.Transport

/-!
# Programs

What the consumer and the dead-letter service do is a tree of requests to their surroundings: to the
store, to the queues, to the clocks, to the log.  A program asks, goes on with the answer, and ends
with a result.  A collaborator may never answer, and then the program is stuck.

A program can be run alone, or several take turns.  A turn goes up to the next request that the
others can notice, a store query or a publication, and includes it.

    (p.bind f).run answer s = run p, then run f on its result         (run_bind)
    p.within never gets stuck                                         (run_within)
-/

namespace DeadLetters

inductive Request where
  | store (query : Store.Query)
  /-- Publishes on a topic. -/
  | send (topic payload : String)
  | acknowledge (topic : String) (message : Message String)
  /-- Receives a batch from the queue of a topic. -/
  | receive (topic : String)
  /-- The time of day, in milliseconds since the epoch. -/
  | clock
  /-- A time in microseconds that only serves to measure. -/
  | stopwatch
  /-- An id that has not been used before. -/
  | freshId
  | log (event : Log.Event)
  | sample (sample : Sample)
  /-- Prints a line of output. -/
  | print (line : String)

namespace Request

/-- What a request is answered with.  A collaborator that never answers gives `none`. -/
abbrev Answer : Request → Type
  | store query => Option (Except Store.Error query.Answer)
  | send _ _ => Option (Except Transport.Error Unit)
  | acknowledge _ _ => Option (Except Transport.Error Unit)
  | receive _ => Option (Except Transport.Error (List Delivery))
  | clock => Int64
  | stopwatch => Nat
  | freshId => String
  | log _ => Unit
  | sample _ => Unit
  | print _ => Unit

/-- Whether other programs can notice the request. -/
def isShared : Request → Bool
  | store _ | send _ _ => true
  | _ => false

end Request

inductive Program (α : Type) where
  /-- Ends with a result. -/
  | done (a : α)
  /-- Never ends. -/
  | stuck
  | ask (request : Request) (next : request.Answer → Program α)

namespace Program

variable {α β σ : Type}

instance : Inhabited (Program α) := ⟨stuck⟩

def bind : Program α → (α → Program β) → Program β
  | done a, f => f a
  | stuck, _ => stuck
  | ask r next, f => ask r fun a => (next a).bind f

instance : Monad Program where
  pure := done
  bind := bind

/-- Goes on with an answer, if there is one. -/
def await : Option α → Program α
  | some a => done a
  | none => stuck

/-! ## Requests -/

def query (q : Store.Query) : Program (Except Store.Error q.Answer) := ask (.store q) await

def send (topic payload : String) : Program (Except Transport.Error Unit) :=
  ask (.send topic payload) await

def acknowledge (topic : String) (m : Message String) : Program (Except Transport.Error Unit) :=
  ask (.acknowledge topic m) await

def receive (topic : String) : Program (Except Transport.Error (List Delivery)) :=
  ask (.receive topic) await

def clock : Program Int64 := ask .clock done

def stopwatch : Program Nat := ask .stopwatch done

def freshId : Program String := ask .freshId done

def log (e : Log.Event) : Program Unit := ask (.log e) done

def print (line : String) : Program Unit := ask (.print line) done

/-- Hands a sample to a sink. -/
def emit (sink : Sink) (s : Sample) : Program Unit :=
  match sink with
  | .recorded => ask (.sample s) done
  | .logged => log s.event

/-- Gives a program limited time: one that is stuck ends without a result. -/
def within : Program α → Program (Option α)
  | done a => done (some a)
  | stuck => done none
  | ask r next => ask r fun a => (next a).within

/-! ## Runs -/

/-- Runs a program to its end; none if it is stuck. -/
def run (answer : σ → (r : Request) → r.Answer × σ) : Program α → σ → Option α × σ
  | done a, s => (some a, s)
  | stuck, s => (none, s)
  | ask r next, s => (next (answer s r).1).run answer (answer s r).2

/-- Runs a program up to the next request that others can notice, that one included. -/
def turn (answer : σ → (r : Request) → r.Answer × σ) : Program α → σ → Program α × σ
  | done a, s => (done a, s)
  | stuck, s => (stuck, s)
  | ask r next, s =>
    if r.isShared then (next (answer s r).1, (answer s r).2)
    else (next (answer s r).1).turn answer (answer s r).2

/-- Gives the program at the index a turn. -/
def turnAt (answer : σ → (r : Request) → r.Answer × σ) (i : Nat) (ps : List (Program α)) (s : σ) :
    List (Program α) × σ :=
  match ps[i]? with
  | none => (ps, s)
  | some p => (ps.set i (p.turn answer s).1, (p.turn answer s).2)

/-- Gives turns by a schedule of indices. -/
def interleave (answer : σ → (r : Request) → r.Answer × σ) :
    List Nat → List (Program α) → σ → List (Program α) × σ
  | [], ps, s => (ps, s)
  | i :: schedule, ps, s =>
    interleave answer schedule (turnAt answer i ps s).1 (turnAt answer i ps s).2

/-- Runs programs to their ends, one after another. -/
def runAll (answer : σ → (r : Request) → r.Answer × σ) :
    List (Program α) → σ → List (Option α) × σ
  | [], s => ([], s)
  | p :: ps, s =>
    let (a, s) := p.run answer s
    let (as, s) := runAll answer ps s
    (a :: as, s)

/-! ## Lemmas -/

@[simp] theorem pure_eq (a : α) : (pure a : Program α) = done a := rfl

@[simp] theorem bind_eq (p : Program α) (f : α → Program β) : p >>= f = p.bind f := rfl

@[simp] theorem done_bind (a : α) (f : α → Program β) : (done a).bind f = f a := rfl

@[simp] theorem stuck_bind (f : α → Program β) : (stuck : Program α).bind f = stuck := rfl

@[simp] theorem ask_bind (r : Request) (next : r.Answer → Program α) (f : α → Program β) :
    (ask r next).bind f = ask r fun a => (next a).bind f := rfl

/-- Programs are put one behind another in any grouping. -/
theorem bind_assoc {γ : Type} (p : Program α) (f : α → Program β) (g : β → Program γ) :
    (p.bind f).bind g = p.bind fun a => (f a).bind g := by
  induction p with
  | done => rfl
  | stuck => rfl
  | ask r next ih => simp [bind, ih]

/-- The second program runs where the first has ended, if it has a result. -/
theorem run_bind (answer : σ → (r : Request) → r.Answer × σ) (p : Program α) (f : α → Program β)
    (s : σ) :
    (p.bind f).run answer s =
      match p.run answer s with
      | (some a, s') => (f a).run answer s'
      | (none, s') => (none, s') := by
  induction p generalizing s with
  | done => rfl
  | stuck => rfl
  | ask r next ih => simp only [ask_bind, run, ih]

/-- Limited time makes an end of every program, with a result or without. -/
theorem run_within (answer : σ → (r : Request) → r.Answer × σ) (p : Program α) (s : σ) :
    p.within.run answer s = (some (p.run answer s).1, (p.run answer s).2) := by
  induction p generalizing s with
  | done => rfl
  | stuck => rfl
  | ask r next ih => simp only [within, run, ih]

end Program

end DeadLetters
