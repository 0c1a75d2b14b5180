import LiveTopology.Decimal.Shortest
import LiveTopology.Json.Value

/-!
# Compact JSON text

The text of a value has no white space. A string escapes the quote, the backslash and the
characters below U+0020 and nothing else; a double is written in the shortest form that reads back,
positional while the first digit stands between 10⁻⁵ and 10¹⁵ and scientific outside.
-/

namespace LiveTopology.Json

open LiveTopology

/-- A hexadecimal digit in lower case. -/
def hexDigit (n : Nat) : Char := Nat.digitChar n

/-- The written form of a character inside a string. -/
def escape (c : Char) : List Char :=
  if c = '\x22' then ['\\', '\x22']
  else if c = '\\' then ['\\', '\\']
  else if c = '\x08' then ['\\', 'b']
  else if c = '\t' then ['\\', 't']
  else if c = '\n' then ['\\', 'n']
  else if c = '\x0c' then ['\\', 'f']
  else if c = '\r' then ['\\', 'r']
  else if c.toNat < 0x20 then
    ['\\', 'u', '0', '0', hexDigit (c.toNat / 16), hexDigit (c.toNat % 16)]
  else [c]

/-- A string in quotes. -/
def quote (text : String) : String :=
  "\"" ++ String.ofList (text.toList.flatMap escape) ++ "\""

/-- The text of a finite double; JSON has none for the others and writes null. -/
def doubleText (x : Float) : String :=
  match Decimal.Parts.ofFloat x with
  | .notANumber => "null"
  | .infinite _ => "null"
  | .zero negative => if negative then "-0.0" else "0.0"
  | .finite negative m q nearBelow =>
    let d := Decimal.shortest m q nearBelow .toEven
    let text := if -5 ≤ d.leading ∧ d.leading ≤ 15 then d.positional else d.scientific
    if negative then "-" ++ text else text

/-- The text of a number. -/
def Number.text : Number → String
  | .integer value _ => toString value
  | .double value => doubleText value

mutual

/-- The text of a value. -/
def Value.text : Value → String
  | .null => "null"
  | .bool true => "true"
  | .bool false => "false"
  | .number value => value.text
  | .string value => quote value
  | .array items => "[" ++ itemsText items ++ "]"
  | .object members => "\x7b" ++ membersText members ++ "\x7d"

/-- The items of an array, separated by commas. -/
def itemsText : List Value → String
  | [] => ""
  | item :: rest => item.text ++ furtherItemsText rest

/-- The items after the first, each after a comma. -/
def furtherItemsText : List Value → String
  | [] => ""
  | item :: rest => "," ++ (item.text ++ furtherItemsText rest)

/-- The members of an object, separated by commas. -/
def membersText : List (String × Value) → String
  | [] => ""
  | (key, value) :: rest => quote key ++ ":" ++ value.text ++ furtherMembersText rest

/-- The members after the first, each after a comma. -/
def furtherMembersText : List (String × Value) → String
  | [] => ""
  | (key, value) :: rest => "," ++ (quote key ++ ":" ++ value.text ++ furtherMembersText rest)

end

end LiveTopology.Json
