import LiveTopology.Fields
import LiveTopology.Json.Scan

/-!
# Reading JSON

`items` and `members` run through an array and an object with a reader for their parts, so that
whole values (`value`) and typed objects are read by the same two loops. Arrays and objects nest at
most 127 deep. Every loop is bounded by the length of the text, since each round takes at least one
byte.
-/

namespace LiveTopology.Json

open LiveTopology

/-- How deep arrays and objects may nest. -/
def depthLimit : Nat := 127

/-! ## Arrays -/

/-- The start of the next item; `first` says that none came before it. -/
def nextItem (first : Bool) (b : UInt8) (rest : List UInt8) : Except Fault (List UInt8) :=
  if first then .ok (b :: rest)
  else if b = Byte.comma then
    match skipSpace rest with
    | [] => .error (.next .endInValue [])
    | c :: after =>
      if c = Byte.closeBracket then .error (.next .trailingComma (c :: after)) else .ok (c :: after)
  else .error (.next .listCommaExpected (b :: rest))

/-- The items of an array up to and with its closing bracket. -/
def readItems {α : Type} (item : Reader α) : (fuel : Nat) → (first : Bool) → Reader (List α)
  | 0, _, _ => .error (.next .endInList [])
  | fuel + 1, first, input =>
    match skipSpace input with
    | [] => .error (.next .endInList [])
    | b :: rest =>
      if b = Byte.closeBracket then .ok ([], rest)
      else do
        let start ← nextItem first b rest
        let (value, rest) ← item start
        let (values, rest) ← readItems item fuel false rest
        pure (value :: values, rest)

/-- An array behind its opening bracket. -/
def items {α : Type} (item : Reader α) : Reader (List α) := fun input =>
  readItems item (input.length + 1) true input

/-- How far the end of an array is read once its content is found to be at fault. -/
def closeArray (unread : List UInt8) : List UInt8 :=
  match skipSpace unread with
  | [] => []
  | b :: rest =>
    if b = Byte.closeBracket then rest
    else if b = Byte.comma then skipSpace rest
    else b :: rest

/-! ## Objects -/

/-- The start of the next key, behind its quote. -/
def nextKey (first : Bool) (b : UInt8) (rest : List UInt8) : Except Fault (List UInt8) :=
  if first then
    if b = Byte.quote then .ok rest else .error (.next .keyNotString (b :: rest))
  else if b = Byte.comma then
    match skipSpace rest with
    | [] => .error (.next .endInValue [])
    | c :: after =>
      if c = Byte.quote then .ok after
      else if c = Byte.closeBrace then .error (.next .trailingComma (c :: after))
      else .error (.next .keyNotString (c :: after))
  else .error (.next .objectCommaExpected (b :: rest))

/-- The text behind the colon between a key and its value. -/
def readColon (input : List UInt8) : Except Fault (List UInt8) :=
  match skipSpace input with
  | [] => .error (.next .endInObject [])
  | b :: rest =>
    if b = Byte.colon then .ok rest else .error (.next .colonExpected (b :: rest))

/-- The members of an object up to and without its closing brace. `member` reads what follows a
key and adds it to what has been gathered. -/
def readMembers {σ : Type} (member : String → σ → Reader σ) :
    (fuel : Nat) → (first : Bool) → σ → Reader σ
  | 0, _, _, _ => .error (.next .endInObject [])
  | fuel + 1, first, gathered, input =>
    match skipSpace input with
    | [] => .error (.next .endInObject [])
    | b :: rest =>
      if b = Byte.closeBrace then .ok (gathered, b :: rest)
      else do
        let start ← nextKey first b rest
        let (key, rest) ← readString start
        let (gathered, rest) ← member key gathered rest
        readMembers member fuel false gathered rest

/-- How far the end of an object is read once its content is complete or found to be at fault. -/
def closeObject (unread : List UInt8) : List UInt8 :=
  match skipSpace unread with
  | [] => []
  | b :: rest => if b = Byte.closeBrace then rest else b :: rest

/-- An object behind its opening brace. `finish` builds the result from what was gathered; its
fault and those that wait for a place are placed at the end of the object. -/
def members {σ α : Type} (member : String → σ → Reader σ) (start : σ)
    (finish : σ → Except Cause α) : Reader α := fun input =>
  let outcome : Except Fault (α × List UInt8) := do
    let (gathered, rest) ← readMembers member (input.length + 1) true start input
    match finish gathered with
    | .ok result => pure (result, closeObject rest)
    | .error cause => .error (.pending cause rest)
  outcome.mapError (Fault.settle closeObject)

/-! ## Values -/

/-- A member of an object that is read as a value: the last of a key wins. -/
def valueMember (value : Reader Value) (key : String) (gathered : List (String × Value)) :
    Reader (List (String × Value)) := fun input => do
  let rest ← readColon input
  let (found, rest) ← value rest
  pure (Fields.put key found gathered, rest)

/-- A value in which arrays and objects nest at most `depth` deep. -/
def value (depth : Nat) (input : List UInt8) : Except Fault (Value × List UInt8) :=
  match skipSpace input with
  | [] => .error (.next .endInValue [])
  | b :: rest =>
    if b = Byte.letterN then do
      let rest ← readWord [0x75, 0x6C, 0x6C] rest
      pure (.null, rest)
    else if b = Byte.letterT then do
      let rest ← readWord [0x72, 0x75, 0x65] rest
      pure (.bool true, rest)
    else if b = Byte.letterF then do
      let rest ← readWord [0x61, 0x6C, 0x73, 0x65] rest
      pure (.bool false, rest)
    else if b = Byte.quote then do
      let (text, rest) ← readString rest
      pure (.string text, rest)
    else if b = Byte.minus || isDigit b then do
      let (number, rest) ← readNumber (b :: rest)
      pure (.number number, rest)
    else if b = Byte.openBracket then
      match depth with
      | 0 => .error (.next .tooDeep (b :: rest))
      | depth + 1 => do
        let (found, rest) ← items (value depth) rest
        pure (.array found, rest)
    else if b = Byte.openBrace then
      match depth with
      | 0 => .error (.next .tooDeep (b :: rest))
      | depth + 1 => do
        let (found, rest) ← members (valueMember (value depth)) [] .ok rest
        pure (.object found, rest)
    else .error (.next .valueExpected (b :: rest))

/-! ## Documents -/

/-- What is made of a whole text in two passes. The second, `finish`, takes what the reader found, so
its faults have no place in the text. The end of the text is looked at last: nothing but white space
may follow. -/
def documentWith {α β : Type} (reader : Reader α) (finish : α → Except Cause β)
    (text : List UInt8) : Except ReadError β := do
  let (found, rest) ← (reader text).mapError (Fault.toError text)
  let result ← (finish found).mapError fun cause => ⟨cause, none⟩
  match skipSpace rest with
  | [] => pure result
  | b :: after => .error (Fault.toError text (.next .trailingCharacters (b :: after)))

/-- What a reader makes of a whole text. -/
def document {α : Type} (reader : Reader α) (text : List UInt8) : Except ReadError α :=
  documentWith reader .ok text

/-- The value that a text denotes. -/
def parse (text : List UInt8) : Except ReadError Value := document (value depthLimit) text

end LiveTopology.Json
