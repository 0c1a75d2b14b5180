/-!
# JSON values

A value holds numbers as the reader keeps them: integers that fit 64 bits, signed or unsigned,
exactly, and all others as doubles. The members of an object ascend by key. `nesting` counts the
deepest chain of arrays and objects, which is what the reader's limit is about, and `DoubleFree`
singles out the values that hold integers only.
-/

namespace LiveTopology.Json

/-- A number. -/
inductive Number where
  /-- An integer of 64 bits, signed or unsigned. -/
  | integer (value : Int) (fits : -0x8000000000000000 ≤ value ∧ value < 0x10000000000000000)
  /-- Every other number. -/
  | double (value : Float)

/-- The integer as a number: exact if it fits, else the nearest double. -/
def Number.ofInt (value : Int) : Number :=
  if fits : -0x8000000000000000 ≤ value ∧ value < 0x10000000000000000 then .integer value fits
  else .double (Float.ofInt value)

/-- A JSON value. -/
inductive Value where
  | null
  | bool (value : Bool)
  | number (value : Number)
  | string (value : String)
  | array (items : List Value)
  /-- An object with its members, ascending by key. -/
  | object (members : List (String × Value))

instance : Inhabited Value := ⟨.null⟩

mutual

/-- The number of arrays and objects on the deepest path into the value, itself included. -/
def Value.nesting : Value → Nat
  | .array items => nestingOfItems items + 1
  | .object members => nestingOfMembers members + 1
  | _ => 0

/-- The deepest nesting among the items of an array. -/
def nestingOfItems : List Value → Nat
  | [] => 0
  | item :: rest => max item.nesting (nestingOfItems rest)

/-- The deepest nesting among the members of an object. -/
def nestingOfMembers : List (String × Value) → Nat
  | [] => 0
  | (_, value) :: rest => max value.nesting (nestingOfMembers rest)

end

mutual

/-- No number at any depth of the value is a double. -/
def Value.DoubleFree : Value → Prop
  | .number (.double _) => False
  | .array items => itemsDoubleFree items
  | .object members => membersDoubleFree members
  | _ => True

/-- No item holds a double. -/
def itemsDoubleFree : List Value → Prop
  | [] => True
  | item :: rest => item.DoubleFree ∧ itemsDoubleFree rest

/-- No member holds a double. -/
def membersDoubleFree : List (String × Value) → Prop
  | [] => True
  | (_, value) :: rest => value.DoubleFree ∧ membersDoubleFree rest

end

end LiveTopology.Json
