import LiveTopology.Json.Skip

/-!
# Reading typed values

A typed reader asks for one kind of value. What it finds instead is read as far as it takes to name
it: words, numbers and strings whole, arrays and objects not at all.
-/

namespace LiveTopology.Json

/-- The fault of a value that is not of the kind that is `expected`. -/
def wrongType (expected : String) (input : List UInt8) : Fault :=
  let found : Except Fault (Found × List UInt8) :=
    match skipSpace input with
    | [] => .error (.next .endInValue [])
    | b :: rest =>
      if b = Byte.openBracket then .ok (.sequence, b :: rest)
      else if b = Byte.openBrace then .ok (.map, b :: rest)
      else do
        let (found, rest) ← value 0 (b :: rest)
        pure (.ofValue found, rest)
  match found with
  | .ok (found, unread) => .here (.wrongType found expected) unread
  | .error fault => fault

/-- A string; `expected` names what it stands for. -/
def typedString (expected : String) : Reader String := fun input =>
  match skipSpace input with
  | [] => .error (.next .endInValue [])
  | b :: rest => if b = Byte.quote then readString rest else .error (wrongType expected (b :: rest))

/-- A string that is wanted for itself. -/
def plainString : Reader String := typedString "a string"

/-- An object, or the fault of a value that is none. -/
def typedObject {α : Type} (expected : String) (depth : Nat) (object : (depth : Nat) → Reader α) :
    Reader α := fun input =>
  match skipSpace input with
  | [] => .error (.next .endInValue [])
  | b :: rest =>
    if b = Byte.openBrace then
      match depth with
      | 0 => .error (.next .tooDeep (b :: rest))
      | depth + 1 => object depth rest
    else .error (wrongType expected (b :: rest))

/-- An array of any length, or the fault of a value that is none. -/
def typedArray {α : Type} (depth : Nat) (item : (depth : Nat) → Reader α) : Reader (List α) :=
  fun input =>
  match skipSpace input with
  | [] => .error (.next .endInValue [])
  | b :: rest =>
    if b = Byte.openBracket then
      match depth with
      | 0 => .error (.next .tooDeep (b :: rest))
      | depth + 1 => items (item depth) rest
    else .error (wrongType "a sequence" (b :: rest))

/-- Behind the last item that is wanted, an array must end. -/
def endArray (input : List UInt8) : Except Fault (List UInt8) :=
  match skipSpace input with
  | [] => .error (.next .endInList [])
  | b :: rest =>
    if b = Byte.closeBracket then .ok rest
    else if b = Byte.comma then
      match skipSpace rest with
      | [] => .error (.next .trailingCharacters [])
      | c :: after =>
        if c = Byte.closeBracket then .error (.next .trailingComma (c :: after))
        else .error (.next .trailingCharacters (c :: after))
    else .error (.next .trailingCharacters (b :: rest))

end LiveTopology.Json
