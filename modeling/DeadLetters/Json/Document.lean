import DeadLetters.Json.Token

/-!
# Documents

A document is a JSON text that is kept as it is spelled: its members stay in order, keys may occur
more than once, and numbers and strings keep their spelling.  It is read from tokens with the open
brackets around the current point on a stack, so that a comma may stand behind the last item.

Two flaws are told apart: a text that does not start with a document, and one that goes on behind
it.
-/

namespace DeadLetters.Json

/-! ## Keys -/

/-- The key of a member, as it is spelled. -/
inductive Key where
  /-- A name without quotes. -/
  | bare (name : List Char)
  /-- The text between two quotes of one kind. -/
  | quoted (quote : Char) (body : List Char)
  deriving DecidableEq

namespace Key

/-- The key as it is spelled. -/
def spelling : Key → List Char
  | bare name => name
  | quoted quote body => quote :: body ++ [quote]

/-- The key as JSON. -/
def chars : Key → List Char
  | bare name => '"' :: name ++ ['"']
  | quoted _ body => plainString body

/-- Whether two keys are spelled alike; a name is spelled like the text between the quotes of
another key. -/
def same : Key → Key → Bool
  | quoted q a, quoted r b => q = r && a = b
  | quoted _ a, bare b => a = b
  | bare a, quoted _ b => a = b
  | bare a, bare b => a = b

end Key

/-! ## Documents and their text -/

inductive Document where
  | null
  /-- A number, a string with its quotes, `true` or `false`, in the spelling of JSON. -/
  | scalar (spelling : List Char)
  | array (items : List Document)
  | object (members : List (Key × Document))

instance : Inhabited Document := ⟨.null⟩

mutual

def Document.chars : Document → List Char
  | .null => ['n', 'u', 'l', 'l']
  | .scalar spelling => spelling
  | .array items => arrayChars (documentItems items)
  | .object members => '\x7b' :: commaSeparated (documentMembers members) ++ ['\x7d']

/-- The texts of the items. -/
def documentItems : List Document → List (List Char)
  | [] => []
  | d :: ds => d.chars :: documentItems ds

/-- The texts of the members. -/
def documentMembers : List (Key × Document) → List (List Char)
  | [] => []
  | m :: ms => (m.1.chars ++ ':' :: m.2.chars) :: documentMembers ms

end

/-! ## Reading -/

namespace Document

/-- Why a text is not a document. -/
inductive Flaw where
  /-- It does not start with a document. -/
  | malformed
  /-- Something follows the document. -/
  | overrun
  deriving DecidableEq, Repr

/-- How deep a document may be nested. -/
def depthLimit : Nat := 1000

/-- An array or an object around the current point; what it holds so far, last first. -/
inductive Frame where
  | array (items : List Document)
  /-- The value of the key is being read. -/
  | member (members : List (Key × Document)) (key : Key)

/-- What is read next, inside the frames around it, the innermost first. -/
inductive Stage where
  | value (frames : List Frame)
  /-- A value or the end of the array. -/
  | item (items : List Document) (frames : List Frame)
  /-- A key or the end of the object. -/
  | key (members : List (Key × Document)) (frames : List Frame)
  | colon (members : List (Key × Document)) (key : Key) (frames : List Frame)
  /-- A comma or the end of the array. -/
  | moreItems (items : List Document) (frames : List Frame)
  /-- A comma or the end of the object. -/
  | moreMembers (members : List (Key × Document)) (frames : List Frame)
  /-- Nothing, because the document is complete. -/
  | complete (d : Document)

namespace Stage

/-- The stage behind a value. -/
def behind (d : Document) : List Frame → Stage
  | [] => complete d
  | .array items :: frames => moreItems (d :: items) frames
  | .member members k :: frames => moreMembers ((k, d) :: members) frames

/-- The stage behind the first token of a value. -/
def enter (frames : List Frame) : Token → Option Stage
  | .null => some (behind .null frames)
  | .scalar spelling => some (behind (.scalar spelling) frames)
  | .string _ body => some (behind (.scalar (plainString body)) frames)
  | .openArray => if frames.length < depthLimit then some (item [] frames) else none
  | .openObject => if frames.length < depthLimit then some (key [] frames) else none
  | _ => none

/-- The stage behind a token, if the token may stand there. -/
def next? : Stage → Token → Option Stage
  | value frames, t => enter frames t
  | item items frames, .closeArray => some (behind (.array items.reverse) frames)
  | item items frames, t => enter (.array items :: frames) t
  | key members frames, .closeObject => some (behind (.object members.reverse) frames)
  | key members frames, .name letters => some (colon members (.bare letters) frames)
  | key members frames, .string quote body => some (colon members (.quoted quote body) frames)
  | colon members k frames, .colon => some (value (.member members k :: frames))
  | moreItems items frames, .comma => some (item items frames)
  | moreItems items frames, .closeArray => some (behind (.array items.reverse) frames)
  | moreMembers members frames, .comma => some (key members frames)
  | moreMembers members frames, .closeObject => some (behind (.object members.reverse) frames)
  | _, _ => none

/-- Reads the tokens to the end of the document. -/
def read : Stage → List Token → Except Flaw Document
  | complete d, [] => .ok d
  | complete _, _ :: _ => .error .overrun
  | _, [] => .error .malformed
  | s, t :: ts =>
    match s.next? t with
    | some s => s.read ts
    | none => .error .malformed

end Stage

/-- The document that a text spells; the text ends where the character NUL stands. -/
def ofText (text : String) : Except Flaw Document :=
  (Stage.value []).read (tokens (text.toList.takeWhile fun c => c ≠ '\x00'))

def text (d : Document) : String := String.ofList d.chars

end Document

end DeadLetters.Json
