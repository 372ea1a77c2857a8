import DeadLetters.CommandLine.Address
import DeadLetters.Config
import DeadLetters.Store.Intervention

/-!
# Folders

The folder that the program runs in: files with bytes in them, and stores.  There are no folders
inside it, and of the folders above it nothing is known but the stores that the program puts there.
Opening a store creates it if there is no file.

A file is read by following its path from part to part, each of which has to be there.  The path of
a store is put in order first, so that a part which `..` takes back need not be there.
-/

namespace DeadLetters.CommandLine

inductive File where
  | bytes (content : ByteArray)
  | store (content : Store)

/-- Files by their ways. -/
structure Folder where
  files : Dictionary File

namespace Folder

/-! ## Ways -/

/-- A way from the folder, its last part first.  The part `..` leads to the folder above, and `/`
stands for the root in front of a way that starts there. -/
abbrev Way := List String

namespace Way

/-- The way to the folder above. -/
def above : Way → Way
  | [] => [".."]
  | ["/"] => ["/"]
  | ".." :: way => ".." :: ".." :: way
  | _ :: way => way

/-- Where a path starts. -/
def start (path : String) : Way := if path.toList.head? = some '/' then ["/"] else []

/-- Whether the way leads to a folder. -/
def isFolder (way : Way) : Bool := way = ["/"] || way.all (· = "..")

def text (way : Way) : String := "/".intercalate way.reverse

end Way

/-- How many bytes the name of a file may have. -/
def nameLimit : Nat := 255

def file? (f : Folder) (way : Way) : Option File := f.files.find? way.text

/-! ## Files -/

/-- Follows a part of a path to what is there. -/
def follow (f : Folder) (way : Way) (part : String) : Except ReadError Way :=
  if (f.file? way).isSome then .error .notDirectory
  else if part = "" ∨ part = "." then .ok way
  else if part = ".." then .ok way.above
  else if nameLimit < part.utf8ByteSize then .error .nameTooLong
  else if (f.file? (part :: way)).isSome then .ok (part :: way)
  else .error .missing

/-- Reads a file as text. -/
def read (f : Folder) (path : String) : Except ReadError String :=
  if path = "" then .error .missing
  else
    match (path.splitOn "/").foldlM f.follow (Way.start path) with
    | .error e => .error e
    | .ok way =>
      match f.file? way with
      | none => .error .directory
      | some (.store _) => .error .notText
      | some (.bytes content) =>
        match String.fromUTF8? content with
        | some text => .ok text
        | none => .error .notText

/-! ## Stores -/

/-- Puts a part of a path in order; no part stands behind a file, and no part that is too long in a
folder that is there. -/
def order (f : Folder) (way : Way) (part : String) : Option Way :=
  if part = "" ∨ part = "." then some way
  else if part = ".." then some way.above
  else if (f.file? way).isSome ∨ (way.isFolder ∧ nameLimit < part.utf8ByteSize) then none
  else some (part :: way)

/-- How many bytes of the limit the name of a store leaves to the files beside it, whose names end
in `-journal`. -/
def companionLength : Nat := 8

/-- The way to the file of a store, if there can be one. -/
def locate (f : Folder) (path : String) : Option Way :=
  match (path.splitOn "/").foldlM f.order (Way.start path) with
  | none => none
  | some way =>
    if way.isFolder || !way.above.isFolder then none
    else if way.any fun part => nameLimit < part.utf8ByteSize + companionLength then none
    else some way

/-- A store that has been opened. -/
structure Opened where
  store : Store
  /-- The way to its file, if it is kept. -/
  way : Option Way
  mayWrite : Bool

/-- The store in a file; a file of at most one byte counts as empty, and is then written at once. -/
def File.open (access : Access) : File → Except Store.Error Store
  | .store s => if access.sharesLog then .ok s else .error .cannotOpen
  | .bytes content =>
    if 1 < content.size then .error .notAStore
    else if access.mayWrite then .ok .bare
    else .error .readOnly

/-- Finds the store at an address. -/
def find (f : Folder) : Address → Except Store.Error Opened
  | .fleeting => .ok ⟨.bare, none, true⟩
  | .file path access =>
    match f.locate path with
    | none => .error .cannotOpen
    | some way =>
      match f.file? way with
      | none =>
        if access.mayCreate then .ok ⟨.bare, some way, access.mayWrite⟩ else .error .cannotOpen
      | some file => (File.open access file).map fun s => ⟨s, some way, access.mayWrite⟩

/-- Opens the store at a path, with its tables created if that is wanted. -/
def openStore (f : Folder) (path : String) (autoMigrate : Bool) : Except Store.Error Opened := do
  let o ← f.find (← Address.ofText path)
  return { o with store := ← o.store.prepare autoMigrate o.mayWrite }

/-- Keeps what has become of an opened store in its file, if it has one. -/
def keep (f : Folder) (o : Opened) (s : Store) : Folder :=
  match o.way with
  | none => f
  | some way => ⟨f.files.insert way.text (.store s)⟩

end Folder

end DeadLetters.CommandLine
