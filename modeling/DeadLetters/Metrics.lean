import DeadLetters.Decimal.Layout
import DeadLetters.Dictionary
import DeadLetters.Log

/-!
# Metrics

The program reports samples: counters, gauges and timings, each with a name and tags.  A sink either
records them, so that totals and tagged series can be read back, or logs them.

A count that has a width, here and everywhere in this library, starts again from zero behind its
greatest value: no addition fails.

    find? j (bump cs k v) = if j = k then some (old + v) else find? j cs       (find?_bump)
-/

namespace DeadLetters

/-- Tags of a sample, by key. -/
abbrev Tags := List (String × String)

inductive Sample where
  | counter (name : String) (value : Nat) (tags : Tags)
  | gauge (name : String) (value : Float) (tags : Tags)
  /-- A duration in microseconds. -/
  | timing (name : String) (micros : Nat) (tags : Tags)

/-- Where samples go. -/
inductive Sink where
  | recorded
  | logged
  deriving DecidableEq, Repr

/-! ## Recording -/

/-- Counters and gauges as recorded.  Totals stand under their name, tagged series under their name
with their tags. -/
structure Tally where
  counters : Dictionary Nat
  gauges : Dictionary Float

/-- The key of a tagged series: `name{k=v,…}`. -/
def seriesKey (name : String) (tags : Tags) : String :=
  name ++ "\x7b" ++ ",".intercalate (tags.map fun t => t.1 ++ "=" ++ t.2) ++ "\x7d"

namespace Tally

def empty : Tally := ⟨.empty, .empty⟩

/-- The sum of a counter over all tags, as it is read: a word of 64 bits. -/
def counter (t : Tally) (name : String) : Nat :=
  (t.counters.find? name).getD 0 % UInt64.size

/-- The sum of a counter with exactly these tags. -/
def tagged (t : Tally) (name : String) (tags : Tags) : Nat := t.counter (seriesKey name tags)

/-- The last value of a gauge. -/
def gauge (t : Tally) (name : String) : Option Float := t.gauges.find? name

/-- Adds to one counter. -/
def bump (counters : Dictionary Nat) (key : String) (value : Nat) : Dictionary Nat :=
  counters.insert key ((counters.find? key).getD 0 + value)

/-- A sum grows by what is added to it, and by nothing else. -/
theorem find?_bump (counters : Dictionary Nat) (j key : String) (value : Nat) :
    (bump counters key value).find? j =
      if j = key then some ((counters.find? key).getD 0 + value) else counters.find? j :=
  Dictionary.find?_insert counters j key _

def add (t : Tally) : Sample → Tally
  | .counter name value tags =>
    let total := bump t.counters name value
    { t with counters := if tags = [] then total else bump total (seriesKey name tags) value }
  | .gauge name value _ => { t with gauges := t.gauges.insert name value }
  | .timing _ _ _ => t

end Tally

/-! ## Logging -/

/-- Tags as log lines show them. -/
def tagsForm (tags : Tags) : String :=
  "[" ++ ", ".intercalate
    (tags.map fun t => "(" ++ Text.quoted t.1 ++ ", " ++ Text.quoted t.2 ++ ")") ++ "]"

namespace Sample

/-- The event that logs a sample. -/
def event : Sample → Log.Event
  | counter name value tags =>
    ⟨.debug, "dlq::metrics", "counter",
      [("metric", .quoted name), ("value", .nat value), ("tags", .plain (tagsForm tags))]⟩
  | gauge name value tags =>
    ⟨.debug, "dlq::metrics", "gauge",
      [("metric", .quoted name), ("value", .plain (Decimal.Layout.log.text value)),
        ("tags", .plain (tagsForm tags))]⟩
  | timing name micros tags =>
    ⟨.debug, "dlq::metrics", "timing",
      [("metric", .quoted name), ("elapsed_ms", .nat (min (micros / 1000) (UInt64.size - 1))),
        ("tags", .plain (tagsForm tags))]⟩

end Sample

end DeadLetters
