import DeadLetters.Json.Document

/-!
# Merge patches

A merge patch describes a change to a document by an example: its members replace those of the
document, `null` removes a member, and objects are merged member by member; a patch that is not an
object replaces the whole document.  Members keep their place and new ones follow in the order of
the patch, without the members of theirs that are `null`.

A patch may name a member more than once.  Of the members of the document the first with a key is
meant, and its first removal or replacement is final; an object that is merged twice keeps all that
was changed in it, but only the members that were added last.

    a patch that is no object takes the place of the whole document   (mergePatch_of_not_object)
-/

namespace DeadLetters.Json

/-- A document under a patch. -/
inductive Draft where
  /-- What is not an object, unchanged. -/
  | whole (d : Document)
  /-- An object, by the members it had and those that were added. -/
  | object (members : List (Key × Draft)) (added : List (Key × Document))
  | removed
  | replaced (d : Document)

mutual

/-- A document that no patch has changed. -/
def Document.draft : Document → Draft
  | .object members => .object (memberDrafts members) []
  | d => .whole d

/-- The members, unchanged. -/
def memberDrafts : List (Key × Document) → List (Key × Draft)
  | [] => []
  | m :: ms => (m.1, m.2.draft) :: memberDrafts ms

end

mutual

/-- A document without the members that are `null`, inside objects but not inside arrays. -/
def Document.withoutNulls : Document → Document
  | .object members => .object (membersWithoutNulls members)
  | d => d

/-- The members without those that are `null`. -/
def membersWithoutNulls : List (Key × Document) → List (Key × Document)
  | [] => []
  | (_, .null) :: ms => membersWithoutNulls ms
  | (key, d) :: ms => (key, d.withoutNulls) :: membersWithoutNulls ms

end

/-- The member that a patch adds, if its value is not `null`. -/
def addition? (key : Key) : Document → Option (Key × Document)
  | .null => none
  | d => some (key, d.withoutNulls)

namespace Draft

/-- Applies a function to the first member with a key. -/
def update (key : Key) (f : Draft → Draft) : List (Key × Draft) → List (Key × Draft)
  | [] => []
  | m :: ms => if m.1.same key then (m.1, f m.2) :: ms else m :: update key f ms

/-- Removes or replaces a member, unless that has been done before. -/
def settle (t change : Draft) : Draft :=
  match t with
  | removed => removed
  | replaced d => replaced d
  | _ => change

mutual

/-- Changes a member as its patch tells. -/
def patch (t : Draft) : Document → Draft
  | .null => t.settle removed
  | .object ps =>
    match t with
    | object members added =>
      let (members, new) := patchMembers members ps
      object members (if new.isEmpty then added else new)
    | t => t.settle (replaced (Document.object ps).withoutNulls)
  | p => t.settle (replaced p)

/-- Applies the members of a patch in turn; answers the members and what is added to them. -/
def patchMembers (members : List (Key × Draft)) :
    List (Key × Document) → List (Key × Draft) × List (Key × Document)
  | [] => (members, [])
  | (key, p) :: ps =>
    if members.any fun m => m.1.same key then
      patchMembers (update key (fun t => t.patch p) members) ps
    else
      let (members, new) := patchMembers members ps
      (members, (addition? key p).toList ++ new)

end

/-- The text of a member that was added; its key stands as the patch spells it. -/
def additionChars (m : Key × Document) : List Char := m.1.spelling ++ ':' :: m.2.chars

mutual

def chars : Draft → List Char
  | whole d => d.chars
  | object members added =>
    '\x7b' :: commaSeparated (memberChars members ++ added.map additionChars) ++ ['\x7d']
  | removed => []
  | replaced d => d.chars

/-- The texts of the members that are left. -/
def memberChars : List (Key × Draft) → List (List Char)
  | [] => []
  | (_, .removed) :: ms => memberChars ms
  | (key, t) :: ms => (key.chars ++ ':' :: t.chars) :: memberChars ms

end

end Draft

namespace Document

/-- A document after a patch. -/
def mergePatch (target : Document) : Document → Draft
  | .null => .replaced .null
  | p => target.draft.patch p

/-- A patch that is no object takes the place of the target as a whole. -/
theorem mergePatch_of_not_object {target p : Document} (h : ∀ ms, p ≠ object ms) :
    target.mergePatch p = .replaced p := by
  cases p with
  | object ms => exact absurd rfl (h ms)
  | null => rfl
  | scalar spelling => cases target <;> simp [mergePatch, Draft.patch, Draft.settle, draft]
  | array items => cases target <;> simp [mergePatch, Draft.patch, Draft.settle, draft]

end Document

/-- Applies a patch to a text; both have to be documents. -/
def patchText (target patch : String) : Except Document.Flaw String := do
  let target ← Document.ofText target
  let patch ← Document.ofText patch
  return String.ofList (target.mergePatch patch).chars

end DeadLetters.Json
