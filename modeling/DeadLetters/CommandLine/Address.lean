import DeadLetters.Text.Numeral
import DeadLetters.Store.Error
import DeadLetters.Text.Search

/-!
# Addresses of stores

A store is addressed by the path of its file, or by a URI that starts with `file:`.  A URI may name
this computer as its authority, writes bytes of the path as `%` and two hexadecimal digits, and may
end with options behind a question mark and a fragment, which is ignored:

    file://localhost/var/letters.db?mode=rw#there

A store without a name, or with the name `:memory:`, is forgotten when it is closed.

Options tell how a store is opened, and none of them widens what an earlier one allows:

    mode=ro     a store that is there, without changing it
    mode=rw     a store that is there
    mode=rwc    a store that is there, or a new one; so it is without an option
-/

namespace DeadLetters.CommandLine

/-- How a file is opened. -/
structure Access where
  /-- Whether the file may be made if it is missing. -/
  mayCreate : Bool
  mayWrite : Bool
  /-- Whether the log in front of the store can be shared; a store that has one needs that. -/
  sharesLog : Bool
  deriving DecidableEq, Repr

/-- Where a store is kept. -/
inductive Address where
  /-- Nowhere. -/
  | fleeting
  | file (path : String) (access : Access)
  deriving DecidableEq, Repr

namespace Address

/-- The bytes that a part of a URI stands for, up to a zero. -/
def octets : List Char → List UInt8
  | '%' :: a :: b :: s =>
    match Text.hexDigit? a, Text.hexDigit? b with
    | some a, some b => if a = 0 ∧ b = 0 then [] else (16 * a + b).toUInt8 :: octets s
    | _, _ => '%'.toUInt8 :: octets (a :: b :: s)
  | c :: s => c.toString.toUTF8.toList ++ octets s
  | [] => []

/-- The text that a part of a URI stands for; one that is no text stands for itself. -/
def decoded (cs : List Char) : String :=
  (String.fromUTF8? ⟨(octets cs).toArray⟩).getD (String.ofList cs)

/-- The options behind a question mark, without those that have no name. -/
def options (cs : List Char) : List (String × String) :=
  ((String.ofList cs).splitOn "&").filterMap fun option =>
    let (name, value) := Text.cut '=' option.toList
    if decoded name = "" then none else some (decoded name, decoded (value.getD []))

/-- What an option lets a connection do. -/
inductive Mode where
  | readOnly
  | readWrite
  | create
  | inMemory
  deriving DecidableEq, Repr

def Mode.ofText? : String → Option Mode
  | "ro" => some .readOnly
  | "rw" => some .readWrite
  | "rwc" => some .create
  | "memory" => some .inMemory
  | _ => none

/-- How much is allowed behind a mode. -/
def Mode.limit : Mode → Nat
  | readOnly => 1
  | readWrite => 2
  | create => 3
  | inMemory => 4

/-- How much a mode asks for. -/
def Mode.demand : Mode → Nat
  | inMemory => 0
  | m => m.limit

/-- How the options of a URI want a store to be opened. -/
structure Opening where
  mode : Mode := .create
  /-- The layer through which the engine reaches files. -/
  layer : String := "unix"
  /-- Whether the file is taken as one that nobody changes. -/
  frozen : Bool := false
  /-- Whether the file is not locked. -/
  unlocked : Bool := false

/-- The layers that the engine has. -/
def layers : List String := ["unix", "unix-none", "unix-dotfile", "unix-excl", "memdb"]

/-- The layers that cannot share a log. -/
def loglessLayers : List String := ["unix-none", "unix-dotfile"]

/-- What an option changes. -/
def Opening.apply (o : Opening) : String × String → Except Store.Error Opening
  | ("vfs", layer) => .ok { o with layer := layer }
  | ("cache", sharing) =>
    if sharing = "shared" ∨ sharing = "private" then .ok o
    else .error (.database 1 ("no such cache mode: " ++ sharing))
  | ("mode", text) =>
    match Mode.ofText? text with
    | none => .error (.database 1 ("no such access mode: " ++ text))
    | some mode =>
      if mode.demand ≤ o.mode.limit then .ok { o with mode := mode }
      else .error (.database 3 ("access mode not allowed: " ++ text))
  | _ => .ok o

/-- Whether a value switches something on: a word, or a number whose last byte is not zero. -/
def isOn (value : String) : Bool :=
  let n := Nat.ofDigitChars 10 (value.toList.takeWhile Char.isDigit) 0
  (n < Int32.size / 2 && n % 256 ≠ 0) || ["on", "yes", "true"].contains value.toLower

/-- Whether the first option with a name is switched on. -/
def isSet (options : List (String × String)) (name : String) : Bool :=
  (options.lookup name).any isOn

/-- The opening that options describe. -/
def Opening.ofOptions (options : List (String × String)) : Except Store.Error Opening :=
  (options.foldlM Opening.apply {}).map fun o =>
    { o with frozen := isSet options "immutable", unlocked := isSet options "nolock" }

def Opening.access (o : Opening) : Access where
  mayCreate := o.mode = .create
  mayWrite := o.mode ≠ .readOnly && !o.frozen
  sharesLog := !o.unlocked && !loglessLayers.contains o.layer

/-- The address of a path and of how it is opened. -/
def opened (path : String) (o : Opening) : Except Store.Error Address :=
  if ¬layers.contains o.layer then .error (.database 1 ("no such vfs: " ++ o.layer))
  else if o.mode = .inMemory ∨ o.layer = "memdb" ∨ path = "" ∨ path = ":memory:" then .ok fleeting
  else .ok (file path o.access)

/-- The path of a URI behind its authority. -/
def behindAuthority : List Char → Except Store.Error (List Char)
  | '/' :: '/' :: cs =>
    let authority := String.ofList (cs.takeWhile (· ≠ '/'))
    if authority = "" ∨ authority = "localhost" then .ok (cs.dropWhile (· ≠ '/'))
    else .error (.database 1 ("invalid uri authority: " ++ authority))
  | cs => .ok cs

/-- The address that a URI gives behind `file:`. -/
def ofUri (cs : List Char) : Except Store.Error Address := do
  let cs ← behindAuthority cs
  let (path, query) := Text.cut '?' (cs.takeWhile (· ≠ '#'))
  let opening ← Opening.ofOptions (options (query.getD []))
  opened (decoded path) opening

/-- The address of a store, from a path or a URI. -/
def ofText (text : String) : Except Store.Error Address :=
  if text.toList.contains '\x00' then
    .error (.communication "filename passed to SQLite must not contain nul bytes")
  else
    match text.toList with
    | 'f' :: 'i' :: 'l' :: 'e' :: ':' :: cs => ofUri cs
    | _ => opened text {}

end Address

end DeadLetters.CommandLine
