import DeadLetters.Text.Pattern.Piece

/-!
# Reading patterns

Puts the pieces of a pattern together.  Groups and classes around the current point are kept on
stacks; flags hold to the end of the group in which they stand.

A pattern whose pieces fit may still ask for what is not to be had: classes, properties, cases of
letters and boundaries of words in Unicode, or single bytes of its characters.  The first such
request is reported once all pieces have been found to fit.
-/

namespace DeadLetters.Text.Pattern

/-- How characters are looked at. -/
structure Flags where
  caseless : Bool := false
  multiLine : Bool := false
  /-- Whether a point stands for the end of a line too. -/
  anyLine : Bool := false
  /-- Whether a carriage return ends a line. -/
  looseLines : Bool := false
  unicode : Bool := true

/-- Sets or clears a flag; those that do not matter to a search are left out. -/
def Flags.change (f : Flags) (change : Char × Bool) : Flags :=
  match change.1 with
  | 'i' => { f with caseless := change.2 }
  | 'm' => { f with multiLine := change.2 }
  | 's' => { f with anyLine := change.2 }
  | 'R' => { f with looseLines := change.2 }
  | 'u' => { f with unicode := change.2 }
  | _ => f

/-- What has been read of a group: its alternatives and, of the last one, its items, last first.  An
item without a pattern only changes flags. -/
structure Group where
  /-- The column of its bracket. -/
  column : Nat
  flags : Flags
  branches : List Pattern := []
  items : List (Option Pattern) := []

/-- What has been read of a class. -/
structure OpenClass where
  column : Nat
  negated : Bool
  members : CharClass
  /-- The class to be combined with the members. -/
  left : Option (CharClass × ClassOp) := none

/-- A point between pieces: the groups and classes around it, the innermost first. -/
structure Point where
  group : Group
  groups : List Group := []
  classes : List OpenClass := []
  /-- The first request that cannot be met. -/
  refusal : Option Error := none
  /-- Whether boundaries of words in Unicode are asked for. -/
  boundaries : Bool := false

namespace Group

/-- The sequence of the items. -/
def branch (g : Group) : Pattern := seqAll (g.items.reverse.filterMap id)

def pattern (g : Group) : Pattern :=
  match (g.branch :: g.branches).reverse with
  | [] => .empty
  | p :: ps => eitherAll p ps

end Group

/-- Combines the members of a class with what stands in front of the last operator. -/
def OpenClass.value (c : OpenClass) : CharClass :=
  match c.left with
  | none => c.members
  | some (left, .both) => .both left c.members
  | some (left, .without) => left.without c.members
  | some (left, .exactlyOne) => left.exactlyOne c.members

namespace Point

def flags (s : Point) : Flags := s.group.flags

/-- Adds an item to the group. -/
def push (s : Point) (p : Pattern) : Point :=
  { s with group := { s.group with items := some p :: s.group.items } }

/-- Keeps the first request that cannot be met. -/
def refuse (s : Point) (problem : Problem) (place : Span) : Point :=
  { s with refusal := s.refusal.or (some (.written problem [place])) }

/-- Refuses if the condition holds. -/
def refuseIf (s : Point) (condition : Bool) (problem : Problem) (place : Span) : Point :=
  if condition then s.refuse problem place else s

/-- Adds a class to the innermost class. -/
def join (s : Point) (c : CharClass) : Point :=
  match s.classes with
  | [] => s
  | o :: rest => { s with classes := { o with members := .either o.members c } :: rest }

/-- The class of an atom and the point behind it. -/
def atomClass (s : Point) (a : Atom) (place : Span) : CharClass × Point :=
  match a with
  | .literal c asByte =>
    (.one c, s.refuseIf (!s.flags.unicode && asByte && 127 < c.toNat) .bytesUnavailable place)
  | .named c negated =>
    let s := s.refuseIf s.flags.unicode .classUnavailable place
    let s := s.refuseIf (!s.flags.unicode && negated) .bytesUnavailable place
    (if negated then .other c else c, s)
  | .property =>
    (.nothing, s.refuse (if s.flags.unicode then .propertyUnknown else .unicodeNotAllowed) place)
  | .look _ => (.nothing, s)

/-- Whether a condition asks for boundaries of words. -/
def asksForWords : Look → Bool
  | .start | .finish | .lineStart | .lineEnd | .looseLineStart | .looseLineEnd => false
  | _ => true

/-- The point behind an atom. -/
def atom (s : Point) (a : Atom) (place : Span) : Point :=
  match a with
  | .look l =>
    { s with boundaries := s.boundaries || (s.flags.unicode && asksForWords l) }.push (.look l)
  | .literal _ _ =>
    let s := s.refuseIf (s.flags.caseless && s.flags.unicode) .caselessUnavailable place
    let (c, s) := s.atomClass a place
    s.push (.one (if s.flags.caseless then .caseless c else c))
  | a =>
    let (c, s) := s.atomClass a place
    s.push (.one c)

/-- The characters that a point stands for. -/
def dotClass (f : Flags) : CharClass :=
  if f.anyLine then .all
  else if f.looseLines then .other (.ofChars ['\r', '\n'])
  else .other (.one '\n')

/-- Closes the innermost class. -/
def closeClass (s : Point) (column : Nat) : Point :=
  match s.classes with
  | [] => s
  | o :: rest =>
    let place : Span := ⟨o.column, column + 1⟩
    let s := s.refuseIf (s.flags.caseless && s.flags.unicode) .caselessUnavailable place
    let s := s.refuseIf (!s.flags.unicode && o.negated) .bytesUnavailable place
    let c := if s.flags.caseless then .caseless o.value else o.value
    let c := if o.negated then .other c else c
    if rest.isEmpty then { s with classes := [] }.push (.one c)
    else { s with classes := rest }.join c

/-- Closes the innermost group. -/
def closeGroup (s : Point) (column : Nat) : Except Error Point :=
  match s.groups with
  | [] => fault .groupUnopened (.from column 1)
  | g :: rest => .ok ({ s with group := g, groups := rest }.push s.group.pattern)

/-- Repeats the last item. -/
def repeatLast (s : Point) (column : Nat) (count : Except Error (Nat × Option Nat)) :
    Except Error Point :=
  match s.group.items, count with
  | some p :: items, .ok (least, most) =>
    .ok { s with group := { s.group with items := some (.repeated p least most) :: items } }
  | some _ :: _, .error e => .error e
  | _, _ => fault .nothingToRepeat (.from column 0)

/-- The point behind a piece. -/
def next (s : Point) : Piece → Except Error Point
  | .atom a place => .ok (s.atom a place)
  | .dot place =>
    .ok ((s.refuseIf (!s.flags.unicode) .bytesUnavailable place).push (.one (dotClass s.flags)))
  | .lineStart =>
    .ok (s.push (.look (if !s.flags.multiLine then .start
      else if s.flags.looseLines then .looseLineStart else .lineStart)))
  | .lineEnd =>
    .ok (s.push (.look (if !s.flags.multiLine then .finish
      else if s.flags.looseLines then .looseLineEnd else .lineEnd)))
  | .bar =>
    let g := s.group
    .ok { s with group := { g with branches := g.branch :: g.branches, items := [] } }
  | .opening column changes =>
    .ok { s with
      group := { column := column, flags := changes.foldl Flags.change s.flags }
      groups := s.group :: s.groups }
  | .closing column => s.closeGroup column
  | .flags changes =>
    let g := s.group
    .ok { s with group :=
      { g with flags := changes.foldl Flags.change g.flags, items := none :: g.items } }
  | .repetition column count => s.repeatLast column count
  | .classOpening column negated first =>
    .ok { s with classes := ⟨column, negated, .ofChars first, none⟩ :: s.classes }
  | .classAtom a place => let (c, s) := s.atomClass a place; .ok (s.join c)
  | .classRange first last place =>
    .ok ((s.refuseIf (!s.flags.unicode && 127 < last.toNat) .unicodeNotAllowed place).join
      (.range first last))
  | .classNamed c => .ok (s.join c)
  | .classOp op =>
    match s.classes with
    | [] => .ok s
    | o :: rest =>
      .ok { s with classes := { o with members := .nothing, left := some (o.value, op) } :: rest }
  | .classClosing column => .ok (s.closeClass column)
  | .error e => .error e

/-- The whole pattern behind its last piece. -/
def finish (s : Point) : Except Error Pattern :=
  match s.groups, s.refusal with
  | _ :: _, _ => fault .groupUnclosed (.from s.group.column 1)
  | [], some e => .error e
  | [], none => if s.boundaries then .error .boundaries else .ok s.group.pattern

end Point

/-- Reads a pattern. -/
def ofText (text : String) : Except Error Pattern := do
  let behind ← (pieces text.toList).foldlM Point.next { group := { column := 0, flags := {} } }
  behind.finish

end DeadLetters.Text.Pattern
