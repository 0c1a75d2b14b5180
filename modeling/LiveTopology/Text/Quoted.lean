import LiveTopology.Text.Invisible

/-!
# Readable quotation

The form in which a message shows a string that it found: in double quotes, with the quote, the
backslash, the common controls and every character without a shape of its own escaped.
-/

namespace LiveTopology.Text

/-- A character as a readable quotation shows it. -/
def shown (c : Char) : List Char :=
  if c = '\x22' then ['\\', '\x22']
  else if c = '\\' then ['\\', '\\']
  else if c = '\t' then ['\\', 't']
  else if c = '\n' then ['\\', 'n']
  else if c = '\r' then ['\\', 'r']
  else if c.toNat = 0 then ['\\', '0']
  else if isInvisible c then
    ['\\', 'u', '\x7b'] ++ Nat.toDigits 16 c.toNat ++ ['\x7d']
  else [c]

/-- A string as a readable quotation shows it. -/
def readable (text : String) : String :=
  "\"" ++ String.ofList (text.toList.flatMap shown) ++ "\""

end LiveTopology.Text
