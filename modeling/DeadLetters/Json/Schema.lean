import DeadLetters.Json.Parser
import DeadLetters.Json.Printer

/-!
# Typed JSON

A schema says which type a JSON value is read as.  What does not fit is refused: a value of another
kind as an invalid type, at the point behind it or before its opening bracket, and an integer out of
range as an invalid value.
-/

namespace DeadLetters.Json

inductive Schema where
  /-- A string, called `wanted` in errors. -/
  | text (wanted : String)
  | bool
  /-- An integer of 32 bits without sign. -/
  | word32
  /-- An integer of 64 bits without sign. -/
  | word64
  /-- An integer of 64 bits with sign. -/
  | int64
  /-- A number of things, below `2^64`. -/
  | count
  /-- Any value. -/
  | any
  /-- A value or `null`. -/
  | nullable (inner : Schema)
  /-- An object with arbitrary keys. -/
  | dictionary (inner : Schema)

/-- What a schema's values are read as. -/
def Schema.Carrier : Schema → Type
  | text _ => String
  | bool => Bool
  | word32 => UInt32
  | word64 => UInt64
  | int64 => Int64
  | count => Nat
  | any => Value
  | nullable s => Option s.Carrier
  | dictionary s => Dictionary s.Carrier

/-- How errors name a value. -/
def Value.found : Value → Found
  | null => .null
  | bool b => .boolean b
  | number (.int i) => .integer i
  | number (.float x) => .float x
  | string s => .string s
  | array _ => .sequence
  | object _ => .map

variable {α : Type}

/-! ## Values without parts -/

/-- Reads a value without parts and takes it if `accept` does. -/
def leafRun (wanted : String) (accept : Value → Except Cause α) (s : List Char) : Reading α :=
  match skipGap s with
  | '[' :: r => stopped (.invalidType .sequence wanted) ('[' :: r)
  | '\x7b' :: r => stopped (.invalidType .map wanted) ('\x7b' :: r)
  | t =>
    match scalar t with
    | .error f => .error f
    | .ok (v, r) =>
      match accept v with
      | .ok a => .ok (a, r)
      | .error cause => stopped cause r

/-- What is accepted has been read as a value before. -/
theorem length_leafRun_lt {wanted : String} {accept : Value → Except Cause α} {s r : List Char}
    {a : α} (h : leafRun wanted accept s = .ok (a, r)) : r.length < s.length := by
  grind [leafRun, stopped, length_skipGap_le, → length_scalar_lt]

def leaf (wanted : String) (accept : Value → Except Cause α) : Reader α :=
  ⟨leafRun wanted accept, length_leafRun_lt⟩

/-- Takes the integers from `least` to `greatest`. -/
def acceptInteger (wanted : String) (least greatest : Int) : Value → Except Cause Int
  | .number (.int i) =>
    if least ≤ i ∧ i ≤ greatest then .ok i else .error (.invalidValue (.integer i) wanted)
  | v => .error (.invalidType v.found wanted)

def acceptString (wanted : String) : Value → Except Cause String
  | .string s => .ok s
  | v => .error (.invalidType v.found wanted)

def acceptBool (wanted : String) : Value → Except Cause Bool
  | .bool b => .ok b
  | v => .error (.invalidType v.found wanted)

/-! ## Values with parts -/

def nullableRun (inner : Reader α) (s : List Char) : Reading (Option α) :=
  match skipGap s with
  | 'n' :: r => (letters ['u', 'l', 'l'] r).map fun _ => none
  | t => (inner.run t).map some

/-- There is a `null`, or the text of what is inside. -/
theorem length_nullableRun_lt {inner : Reader α} {s r : List Char} {a : Option α}
    (h : nullableRun inner s = .ok (a, r)) : r.length < s.length := by
  have hs := length_skipGap_le s
  unfold nullableRun at h
  split at h
  · next ht =>
    obtain ⟨u, hu, _⟩ := Reading.map_eq_ok h
    have := length_letters_le hu
    rw [ht, List.length_cons] at hs
    omega
  · obtain ⟨u, hu, _⟩ := Reading.map_eq_ok h
    have := inner.shrinks hu
    omega

def dictionaryRun (inner : Option (Reader α)) (s : List Char) : Reading (Dictionary α) :=
  match skipGap s, inner with
  | '\x7b' :: r, some inner => (members stringTail inner true r).map Dictionary.ofList
  | '\x7b' :: r, none => unfit .tooDeep ('\x7b' :: r)
  | t, _ => leafRun "a map" (fun v => .error (.invalidType v.found "a map")) t

theorem length_dictionaryRun_lt {inner : Option (Reader α)} {s r : List Char} {d : Dictionary α}
    (h : dictionaryRun inner s = .ok (d, r)) : r.length < s.length := by
  have hs := length_skipGap_le s
  unfold dictionaryRun at h
  split at h
  · next ht =>
    obtain ⟨ms, hm, _⟩ := Reading.map_eq_ok h
    have := length_members_lt hm
    rw [ht, List.length_cons] at hs
    omega
  · simp [unfit] at h
  · have := length_leafRun_lt h
    omega

namespace Schema

/-- Reads a value of the schema, nested at most `depth` deep. -/
def reader : (s : Schema) → (depth : Nat) → Reader s.Carrier
  | text wanted, _ => leaf wanted (acceptString wanted)
  | bool, _ => leaf "a boolean" (acceptBool "a boolean")
  | word32, _ =>
    leaf "u32" fun v => (acceptInteger "u32" 0 (UInt32.size - 1) v).map fun i => i.toNat.toUInt32
  | word64, _ =>
    leaf "u64" fun v => (acceptInteger "u64" 0 (UInt64.size - 1) v).map fun i => i.toNat.toUInt64
  | int64, _ =>
    leaf "i64" fun v =>
      (acceptInteger "i64" Int64.minValue.toInt Int64.maxValue.toInt v).map Int64.ofInt
  | count, _ => leaf "u64" fun v => (acceptInteger "u64" 0 (UInt64.size - 1) v).map Int.toNat
  | any, depth => value depth
  | nullable s, depth => ⟨nullableRun (s.reader depth), length_nullableRun_lt⟩
  | dictionary _, 0 => ⟨dictionaryRun none, length_dictionaryRun_lt⟩
  | dictionary s, depth + 1 => ⟨dictionaryRun (some (s.reader depth)), length_dictionaryRun_lt⟩

/-- Writes a value of the schema. -/
def chars : (s : Schema) → s.Carrier → List Char
  | text _, t => stringChars t
  | bool, b => (Value.bool b).chars
  | word32, n => intChars n.toNat
  | word64, n => intChars n.toNat
  | int64, i => intChars i.toInt
  | count, n => intChars (Int.ofNat n)
  | any, v => v.chars
  | nullable _, none => Value.null.chars
  | nullable s, some a => s.chars a
  | dictionary s, d => objectChars (d.entries.map fun e => (e.1, s.chars e.2))

/-- What a field of the schema holds when nobody gives it a value. -/
def absent : (s : Schema) → Option s.Carrier
  | nullable _ => some none
  | _ => none

end Schema

end DeadLetters.Json
