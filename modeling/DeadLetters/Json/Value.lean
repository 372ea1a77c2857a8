import DeadLetters.Dictionary

/-!
# JSON values

A number is an integer or a double.  The members of an object are in increasing order of their keys,
one member a key; `Value.WellFormed` says so for a value and all values inside it.
-/

namespace DeadLetters.Json

inductive Number where
  | int (value : Int)
  | float (value : Float)

inductive Value where
  | null
  | bool (value : Bool)
  | number (value : Number)
  | string (value : String)
  | array (items : List Value)
  | object (members : List (String × Value))

instance : Inhabited Value := ⟨.null⟩

mutual

/-- Every object inside the value has its members in order, one member a key. -/
def Value.WellFormed : Value → Prop
  | .array items => WellFormedItems items
  | .object members => Entries.Sorted members ∧ WellFormedMembers members
  | _ => True

def WellFormedItems : List Value → Prop
  | [] => True
  | v :: vs => v.WellFormed ∧ WellFormedItems vs

def WellFormedMembers : List (String × Value) → Prop
  | [] => True
  | m :: ms => m.2.WellFormed ∧ WellFormedMembers ms

end

end DeadLetters.Json
