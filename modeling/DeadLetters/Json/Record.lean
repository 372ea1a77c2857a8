import DeadLetters.Json.Schema
import DeadLetters.Json.Skip

/-!
# Records in JSON

A record type is written as an object with its fields in order.  It is read from an object whose
members may come in any order, unknown ones being skipped, or from a list with the fields in order.
A field that is not given takes its default; without one it is `null` in an object if it may be, and
missing otherwise.
-/

namespace DeadLetters.Json

structure Field where
  name : String
  schema : Schema
  default : Option schema.Carrier

/-- A field that has to be given, unless it may be `null`. -/
def Field.plain (name : String) (schema : Schema) : Field := ⟨name, schema, none⟩

/-- A field with a default. -/
def Field.orElse (name : String) (schema : Schema) (value : schema.Carrier) : Field :=
  ⟨name, schema, some value⟩

/-- One value a field. -/
def Row : List Field → Type
  | [] => Unit
  | f :: fs => f.schema.Carrier × Row fs

/-- The values of the fields read so far. -/
def Slots : List Field → Type
  | [] => Unit
  | f :: fs => Option f.schema.Carrier × Slots fs

namespace Slots

def empty : (fs : List Field) → Slots fs
  | [] => ()
  | _ :: fs => (none, empty fs)

/-- The row of the slots; empty ones take their defaults. -/
def row : {fs : List Field} → Slots fs → Except Cause (Row fs)
  | [], _ => .ok ()
  | f :: _, (slot, rest) =>
    match slot.or (f.default.or f.schema.absent) with
    | none => .error (.missingField f.name)
    | some a => rest.row.map fun r => (a, r)

/-- The fault of a key that came before. -/
def again {α : Type} (key : String) (s : List Char) : Reading α :=
  match skipGap s with
  | '\x7d' :: r => stopped (.duplicateField key) r
  | t => stopped (.duplicateField key) t

/-- Reads the value of a known field, behind its key. -/
def fill (depth : Nat) (key : String) :
    {fs : List Field} → Slots fs → List Char → Option (Reading (Slots fs))
  | [], _, _ => none
  | f :: _, (slot, rest), s =>
    if key = f.name then
      match slot with
      | some _ => some (again key s)
      | none =>
        match colon s with
        | .error e => some (.error e)
        | .ok (_, t) => some (((f.schema.reader depth).run t).map fun a => (some a, rest))
    else (rest.fill depth key s).map fun x => x.map fun rest => (slot, rest)

/-- Reads the value of any field, behind its key. -/
def fillOrSkip (depth : Nat) (key : String) {fs : List Field} (slots : Slots fs) (s : List Char) :
    Reading (Slots fs) :=
  match slots.fill depth key s with
  | some x => x
  | none =>
    match colon s with
    | .error e => .error e
    | .ok (_, t) => (skipValue t).map fun _ => slots

/-- A member that fills a slot takes its value from the text. -/
theorem length_fill_lt {depth : Nat} {key : String} {s r : List Char} :
    ∀ {fs : List Field} {slots slots' : Slots fs},
      slots.fill depth key s = some (.ok (slots', r)) → r.length < s.length
  | [], _, _, h => by simp [fill] at h
  | f :: fs, (slot, rest), slots', h => by
    simp only [fill] at h
    split at h
    · split at h
      · simp only [again, stopped, Option.some.injEq] at h
        split at h <;> simp at h
      · split at h
        · simp at h
        · next hc =>
          simp only [Option.some.injEq] at h
          obtain ⟨a, ha, _⟩ := Reading.map_eq_ok h
          have h1 := length_colon_lt hc
          have h2 := (f.schema.reader depth).shrinks ha
          omega
    · obtain ⟨x, hx, hm⟩ := Option.map_eq_some_iff.1 h
      obtain ⟨rest', hr, _⟩ := Reading.map_eq_ok hm
      exact length_fill_lt (hr ▸ hx)

theorem length_fillOrSkip_lt {depth : Nat} {key : String} {s r : List Char} {fs : List Field}
    {slots slots' : Slots fs} (h : slots.fillOrSkip depth key s = .ok (slots', r)) :
    r.length < s.length := by
  unfold fillOrSkip at h
  split at h
  · next hx => exact length_fill_lt (h ▸ hx)
  · split at h
    · simp at h
    · next hc =>
      obtain ⟨u, hu, _⟩ := Reading.map_eq_ok h
      have h1 := length_colon_lt hc
      have h2 := length_skipValue_lt hu
      omega

end Slots

/-! ## Reading -/

/-- Reads members into the slots, up to the closing bracket. -/
def slotMembers (depth : Nat) {fs : List Field} (slots : Slots fs) (first : Bool)
    (s : List Char) : Reading (Slots fs) :=
  match _h : nextKey first s with
  | .error f => .error f
  | .ok (false, r) => .ok (slots, r)
  | .ok (true, r) =>
    match _h' : stringTail.run r with
    | .error f => .error f
    | .ok (key, t) =>
      match _h'' : slots.fillOrSkip depth key t with
      | .error f => .error f
      | .ok (slots, u) => slotMembers depth slots false u
termination_by s.length
decreasing_by
  have h1 := length_nextKey_lt _h
  have h2 := stringTail.shrinks _h'
  have h3 := Slots.length_fillOrSkip_lt _h''
  omega

/-- Reads the closing bracket of a list that has all its items. -/
def listEnd (s : List Char) : Reading Unit :=
  match skipGap s with
  | [] => stopped .endInList []
  | ']' :: r => .ok ((), r)
  | ',' :: r =>
    match skipGap r with
    | ']' :: t => unfit .trailingComma (']' :: t)
    | t => unfit .trailingCharacters t
  | t => unfit .trailingCharacters t

/-- The row of fields that a list has no items for, from the given index on: their defaults. -/
def defaults (wanted : String) : (fs : List Field) → (index : Nat) → Except Cause (Row fs)
  | [], _ => .ok ()
  | f :: fs, index =>
    match f.default with
    | none => .error (.invalidLength index wanted)
    | some a => (defaults wanted fs (index + 1)).map fun r => (a, r)

/-- Reads items into a row, from the item with the given index on. -/
def rowItems (depth : Nat) (wanted : String) :
    (fs : List Field) → (index : Nat) → List Char → Reading (Row fs)
  | [], _, s => (listEnd s).map fun _ => ()
  | f :: fs, index, s =>
    match nextItem (index == 0) s with
    | .error e => .error e
    | .ok (false, r) =>
      match defaults wanted (f :: fs) index with
      | .ok row => .ok (row, r)
      | .error cause => stopped cause r
    | .ok (true, r) =>
      match (f.schema.reader depth).run r with
      | .error e => .error e
      | .ok (a, t) => (rowItems depth wanted fs (index + 1) t).map fun row => (a, row)

/-- The members are read with the bracket behind them. -/
theorem length_slotMembers_lt {depth : Nat} {fs : List Field} {slots slots' : Slots fs}
    {first : Bool} {s r : List Char} (h : slotMembers depth slots first s = .ok (slots', r)) :
    r.length < s.length := by
  fun_induction slotMembers depth slots first s with
  | case1 => simp at h
  | case2 slots first s r' hn =>
    simp only [Except.ok.injEq, Prod.mk.injEq] at h
    exact h.2 ▸ length_nextKey_lt hn
  | case3 => simp at h
  | case4 => simp at h
  | case5 slots first s r' hn key t hk slots'' u hf ih =>
    have h1 := length_nextKey_lt hn
    have h2 := stringTail.shrinks hk
    have h3 := Slots.length_fillOrSkip_lt hf
    have h4 := ih h
    omega

theorem length_listEnd_lt {s r : List Char} {u : Unit} (h : listEnd s = .ok (u, r)) :
    r.length < s.length := by
  grind [listEnd, stopped, unfit, length_skipGap_le]

/-- The end of the list is read, also where the last items have been left out. -/
theorem length_rowItems_lt {depth : Nat} {wanted : String} {s r : List Char} :
    ∀ {fs : List Field} {index : Nat} {row : Row fs},
      rowItems depth wanted fs index s = .ok (row, r) → r.length < s.length := by
  intro fs
  induction fs generalizing s with
  | nil =>
    intro index row h
    obtain ⟨u, hu, _⟩ := Reading.map_eq_ok h
    exact length_listEnd_lt hu
  | cons f fs ih =>
    intro index row h
    unfold rowItems at h
    split at h
    · simp at h
    · next hn =>
      have h1 := length_nextItem_lt hn
      split at h
      · simp only [Except.ok.injEq, Prod.mk.injEq] at h
        exact h.2 ▸ h1
      · simp [stopped] at h
    · next hn =>
      split at h
      · simp at h
      · next ha =>
        obtain ⟨row', hr, _⟩ := Reading.map_eq_ok h
        have h1 := length_nextItem_le hn
        have h2 := (f.schema.reader depth).shrinks ha
        have h3 := ih hr
        omega

/-! ## Record types -/

/-- How a type is written as a record. -/
structure Record (α : Type) where
  name : String
  fields : List Field
  row : α → Row fields
  ofRow : Row fields → α
  ofRow_row : ∀ a, ofRow (row a) = a

namespace Record

variable {α : Type} (record : Record α)

/-- How errors call a value of the type. -/
def wanted : String := "struct " ++ record.name

/-- How errors call a list of all items. -/
def wantedItems : String :=
  record.wanted ++ " with " ++ toString record.fields.length
    ++ (if record.fields.length = 1 then " element" else " elements")

def run (s : List Char) : Reading α :=
  match skipGap s with
  | '[' :: r =>
    (rowItems (depthLimit - 1) record.wantedItems record.fields 0 r).map record.ofRow
  | '\x7b' :: r =>
    match slotMembers (depthLimit - 1) (Slots.empty record.fields) true r with
    | .error f => .error f
    | .ok (slots, t) =>
      match slots.row with
      | .ok row => .ok (record.ofRow row, t)
      | .error cause => stopped cause t
  | t => leafRun record.wanted (fun v => .error (.invalidType v.found record.wanted)) t

/-- A record takes some of the text, and so can be a part of others. -/
theorem length_run_lt {s r : List Char} {a : α} (h : record.run s = .ok (a, r)) :
    r.length < s.length := by
  have hs := length_skipGap_le s
  unfold run at h
  split at h
  · next ht =>
    obtain ⟨row, hr, _⟩ := Reading.map_eq_ok h
    have := length_rowItems_lt hr
    rw [ht, List.length_cons] at hs
    omega
  · next ht =>
    rw [ht, List.length_cons] at hs
    split at h
    · simp at h
    · next hm =>
      have := length_slotMembers_lt hm
      split at h
      · simp only [Except.ok.injEq, Prod.mk.injEq] at h
        rw [← h.2]
        omega
      · simp [stopped] at h
  · have := length_leafRun_lt h
    omega

def reader : Reader α := ⟨record.run, record.length_run_lt⟩

/-- The members of a row, in the order of the fields. -/
def members : {fs : List Field} → Row fs → List (String × List Char)
  | [], _ => []
  | f :: _, (a, rest) => (f.name, f.schema.chars a) :: members rest

def chars (a : α) : List Char := objectChars (members (record.row a))

/-- The text of a value. -/
def text (a : α) : String := String.ofList (record.chars a)

/-- Reads a value from the whole text. -/
def parse (text : String) : Except Error α := Json.parse record.reader text

end Record

end DeadLetters.Json
