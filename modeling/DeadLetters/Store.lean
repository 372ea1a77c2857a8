import DeadLetters.Content
import DeadLetters.Filter
import DeadLetters.Json.MergePatch
import DeadLetters.Store.Error

/-!
# The store

The store keeps dead letters and content metadata in two tables, either of which may be missing.
Rows are kept in the order of insertion.  A query either answers or fails; a query that fails leaves
the store as it was.

    (s.answer q).1 = .error e → (s.answer q).2 = s          (answer_of_error)
-/

namespace DeadLetters

namespace Store

/-- A stored dead letter. -/
structure Row where
  letter : DeadLetter
  /-- Whether the stored retry count fits its field; a row where it does not cannot be read. -/
  legible : Bool := true

/-- Which changes of dead letters fail on purpose. -/
structure Faults where
  insert : Bool := false
  update : Bool := false
  delete : Bool := false

inductive Query where
  | insert (letter : DeadLetter)
  | get (id : String)
  | list (filter : Filter)
  | count (filter : Filter)
  | countByTopic
  | countByError
  /-- Closes a dead letter that is still pending. -/
  | mark (id result : String) (time : Int64)
  | delete (filter : Filter)
  /-- Writes the facts of an upload, keeping attributes that are there. -/
  | putContent (content : Content)
  /-- Merges a patch into the attributes. -/
  | mergeContent (id patch : String) (time : Int64)
  | getContent (id : String)

/-- What a query answers. -/
abbrev Query.Answer : Query → Type
  | insert _ => Unit
  | get _ => Option DeadLetter
  | list _ => List DeadLetter
  | count _ => Nat
  | countByTopic => Dictionary Nat
  | countByError => Dictionary Nat
  | mark _ _ _ => Nat
  | delete _ => Nat
  | putContent _ => Unit
  | mergeContent _ _ _ => Bool
  | getContent _ => Option Content

/-- Whether the query changes the store. -/
def Query.changes : Query → Bool
  | insert _ | mark _ _ _ | delete _ | putContent _ | mergeContent _ _ _ => true
  | get _ | list _ | count _ | countByTopic | countByError | getContent _ => false

/-- Reads a row. -/
def Row.read (r : Row) : Except Error DeadLetter :=
  if r.legible then .ok r.letter else .error .retryCountTooLarge

/-- Rows in the order of listing: the latest failure first, and of equal times the latest insertion
first. -/
def listing (rows : List Row) : List Row :=
  rows.reverse.mergeSort fun a b => b.letter.failedAt ≤ a.letter.failedAt

/-- How often each name occurs. -/
def tally (names : List String) : Dictionary Nat :=
  names.foldl (fun d n => d.insert n ((d.find? n).getD 0 + 1)) .empty

end Store

open Store in
structure Store where
  /-- The dead letters, if their table exists. -/
  letters : Option (List Row)
  /-- The content metadata, if its table exists. -/
  contents : Option (List Content)
  faults : Faults := {}
  closed : Bool := false

namespace Store

/-- A store without tables. -/
def bare : Store := { letters := none, contents := none }

/-- A store with empty tables. -/
def fresh : Store := { letters := some [], contents := some [] }

/-! ## Dead letters -/

/-- Runs a query of dead letters on their rows. -/
def withRows {α : Type} (s : Store) (f : List Row → Except Error α) : Except Error α :=
  match s.letters with
  | some rows => f rows
  | none => .error (.missingTable "dead_letters")

/-- Whether a row has this id. -/
def hasId (id : String) (r : Row) : Bool := r.letter.id == id

/-- Whether a row is the pending dead letter with this id. -/
def isPending (id : String) (r : Row) : Bool := hasId id r && !r.letter.reprocessed

/-- Whether a filter selects a row. -/
def chosen (f : Filter) (r : Row) : Bool := f.selects r.letter

def insert (s : Store) (l : DeadLetter) : Except Error (Unit × Store) :=
  s.withRows fun rows =>
    if s.faults.insert then .error (.injected "insert")
    else if rows.any (hasId l.id) then .error .duplicateId
    else .ok ((), { s with letters := some (rows ++ [{ letter := l }]) })

def get (s : Store) (id : String) : Except Error (Option DeadLetter) :=
  s.withRows fun rows =>
    match rows.find? (hasId id) with
    | none => .ok none
    | some r => r.read.map some

def list (s : Store) (f : Filter) : Except Error (List DeadLetter) :=
  s.withRows fun rows => (f.window (listing (rows.filter (chosen f)))).mapM Row.read

def count (s : Store) (f : Filter) : Except Error Nat :=
  s.withRows fun rows => .ok (rows.countP (chosen f))

/-- How many dead letters have each name. -/
def countBy (s : Store) (name : DeadLetter → String) : Except Error (Dictionary Nat) :=
  s.withRows fun rows => .ok (tally (rows.map fun r => name r.letter))

/-- Closes the row if it is the pending dead letter with this id. -/
def Row.close (id result : String) (time : Int64) (r : Row) : Row :=
  if isPending id r then { r with letter := r.letter.close result time } else r

def mark (s : Store) (id result : String) (time : Int64) : Except Error (Nat × Store) :=
  s.withRows fun rows =>
    let changed := rows.countP (isPending id)
    if changed ≠ 0 ∧ s.faults.update then .error (.injected "update")
    else .ok (changed, { s with letters := some (rows.map (Row.close id result time)) })

def delete (s : Store) (f : Filter) : Except Error (Nat × Store) :=
  s.withRows fun rows =>
    let removed := rows.countP (chosen f)
    if removed ≠ 0 ∧ s.faults.delete then .error (.injected "delete")
    else .ok (removed, { s with letters := some (rows.filter fun r => !chosen f r) })

/-! ## Content metadata -/

/-- Runs a query of content metadata on its rows. -/
def withContents {α : Type} (s : Store) (f : List Content → Except Error α) : Except Error α :=
  match s.contents with
  | some cs => f cs
  | none => .error (.missingTable "content_metadata")

def putContent (s : Store) (c : Content) : Except Error (Unit × Store) :=
  s.withContents fun cs =>
    let cs :=
      if cs.any fun d => d.id == c.id then
        cs.map fun d => if d.id == c.id then d.refresh c else d
      else cs ++ [c]
    .ok ((), { s with contents := some cs })

def mergeContent (s : Store) (id patch : String) (time : Int64) : Except Error (Bool × Store) :=
  s.withContents fun cs =>
    match cs.find? fun c => c.id == id with
    | none => .ok (false, s)
    | some c =>
      match Json.patchText c.attributes patch with
      | .error .malformed => .error .malformedJson
      | .error .overrun => .error .missingAttributes
      | .ok attributes =>
        let merge (d : Content) :=
          if d.id == id then { d with attributes := attributes, updatedAt := time } else d
        .ok (true, { s with contents := some (cs.map merge) })

def getContent (s : Store) (id : String) : Except Error (Option Content) :=
  s.withContents fun cs => .ok (cs.find? fun c => c.id == id)

/-! ## Queries -/

/-- The answer to a query and the store after it, while the store is open. -/
def perform (s : Store) : (q : Query) → Except Error (q.Answer × Store)
  | .insert l => s.insert l
  | .get id => (s.get id).map (·, s)
  | .list f => (s.list f).map (·, s)
  | .count f => (s.count f).map (·, s)
  | .countByTopic => (s.countBy (·.topic)).map (·, s)
  | .countByError => (s.countBy (·.errorName)).map (·, s)
  | .mark id result time => s.mark id result time
  | .delete f => s.delete f
  | .putContent c => s.putContent c
  | .mergeContent id patch time => s.mergeContent id patch time
  | .getContent id => (s.getContent id).map (·, s)

/-- The answer to a query and the store after it. -/
def answer (s : Store) (q : Query) : Except Error q.Answer × Store :=
  if s.closed then (.error .closed, s)
  else
    match s.perform q with
    | .ok (a, s') => (.ok a, s')
    | .error e => (.error e, s)

/-- A query that fails changes nothing. -/
theorem answer_of_error {s : Store} {q : Query} {e : Error} (h : (s.answer q).1 = .error e) :
    (s.answer q).2 = s := by
  unfold answer at h ⊢
  split
  · rfl
  · next hc =>
    rw [if_neg hc] at h
    split
    · next hp => rw [hp] at h; simp at h
    · rfl

end Store

end DeadLetters
