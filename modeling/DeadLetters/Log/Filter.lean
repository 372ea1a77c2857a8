import DeadLetters.Log
import DeadLetters.Text.Blank
import DeadLetters.Text.Pattern.Reader

/-!
# Log filters

A filter is written as directives between commas.  A directive allows a level for the targets that
start with its name, or for all targets if it has none: `warn,dlq::metrics=debug`.  Of the
directives that fit a target the one with the longest name decides.

Behind a slash a pattern may stand, which the text of an event has to contain: `info/^dead letter`.

What cannot be read is left out; each such flaw is reported.
-/

namespace DeadLetters.Log

/-- Which events a directive lets pass. -/
structure Directive where
  /-- What the target has to start with; without a name every target fits. -/
  name : Option String
  /-- The greatest rank that passes; zero stops everything. -/
  rank : Nat
  deriving DecidableEq

structure Filter where
  /-- Shortest name first. -/
  directives : List Directive
  /-- What the text of an event has to contain. -/
  pattern : Option Text.Pattern

/-- What is left out of a filter. -/
inductive Filter.Flaw where
  /-- The whole text, which has more than one slash. -/
  | slashes (text : String)
  /-- A directive, of which this part is wrong. -/
  | directive (part : String)
  | pattern (text : String) (e : Text.Pattern.Error)
  deriving DecidableEq, Repr

def Filter.Flaw.message : Filter.Flaw → String
  | slashes text => "invalid logging spec '" ++ text ++ "' (too many '/'s)"
  | directive part => "invalid logging spec '" ++ part ++ "'"
  | pattern text e => "invalid regex filter - " ++ e.report text

/-- The line that reports a flaw. -/
def Filter.Flaw.warning (f : Filter.Flaw) : String :=
  "warning: " ++ f.message ++ ", ignoring it"

/-- The rank of the level with this name, in any case of letters. -/
def rank? (text : String) : Option Nat :=
  match text.toLower with
  | "off" => some 0
  | "error" => some 1
  | "warn" => some 2
  | "info" => some 3
  | "debug" => some 4
  | "trace" => some 5
  | _ => none

namespace Directive

/-- Reads a directive: a level, a name, or both with `=` between them. -/
def ofText (text : String) : Except Filter.Flaw Directive :=
  match text.splitOn "=" with
  | [one] =>
    match rank? one with
    | some rank => .ok ⟨none, rank⟩
    | none => .ok ⟨some one, Level.trace.rank⟩
  | [name, level] =>
    if Text.isBlankText level then .ok ⟨some name, Level.trace.rank⟩
    else
      match rank? (Text.trim level) with
      | some rank => .ok ⟨some name, rank⟩
      | none => .error (.directive (Text.trim level))
  | _ => .error (.directive text)

def nameLength (d : Directive) : Nat := (d.name.getD "").utf8ByteSize

/-- Whether a target starts with the name. -/
def fits (d : Directive) (target : String) : Bool :=
  (d.name.getD "").toList.isPrefixOf target.toList

end Directive

namespace Filter

/-- Puts a directive in place of one with the same name. -/
def insert (d : Directive) : List Directive → List Directive
  | [] => [d]
  | e :: es => if e.name = d.name then d :: es else e :: insert d es

/-- The filter of directives and a pattern; without any directive errors pass. -/
def ofDirectives (directives : List Directive) (pattern : Option Text.Pattern) : Filter :=
  match directives.foldl (fun ds d => insert d ds) [] with
  | [] => ⟨[⟨none, Level.error.rank⟩], pattern⟩
  | ds => ⟨ds.mergeSort fun a b => a.nameLength ≤ b.nameLength, pattern⟩

/-- Reads the directives between commas. -/
def directivesOf (text : String) : List (Except Flaw Directive) :=
  (((text.splitOn ",").map Text.trim).filter (· ≠ "")).map Directive.ofText

def flaw? {α : Type} : Except Flaw α → Option Flaw
  | .ok _ => none
  | .error e => some e

/-- Reads a filter; answers the flaws as well. -/
def ofText (text : String) : Filter × List Flaw :=
  match text.splitOn "/" with
  | [directives] =>
    let ds := directivesOf directives
    (ofDirectives (ds.filterMap (·.toOption)) none, ds.filterMap flaw?)
  | [directives, pattern] =>
    let ds := directivesOf directives
    let p := (Text.Pattern.ofText pattern).mapError (Flaw.pattern pattern)
    (ofDirectives (ds.filterMap (·.toOption)) p.toOption,
      ds.filterMap flaw? ++ (flaw? p).toList)
  | _ => (ofDirectives [] none, [.slashes text])

/-- Whether an event passes. -/
def allows (f : Filter) (e : Event) : Bool :=
  match f.directives.reverse.find? (·.fits e.target) with
  | some d => e.level.rank ≤ d.rank && f.pattern.all (·.occursIn e.text)
  | none => false

end Filter

end DeadLetters.Log
