/-!
# Text as bytes

Payloads arrive as bytes and are text only if they are UTF-8. `bytes` is the written form of a
string, `decode?` reads it back, and `validLength` measures the longest leading part of a byte
sequence that is made of whole, well-formed characters. An ill-formed string is reported at the
byte behind that part.
-/

namespace LiveTopology.Text

/-- The UTF-8 form of a string, a byte per element. -/
def bytes (text : String) : List UInt8 := text.toByteArray.data.toList

/-- The string whose UTF-8 form is given, if there is one. -/
def decode? (content : List UInt8) : Option String :=
  String.fromUTF8? ⟨content.toArray⟩

/-- Whether a byte lies between two others. -/
def within (low high byte : UInt8) : Bool := low ≤ byte && byte ≤ high

/-- A byte that can stand inside a character, not at its start. -/
def continues (byte : UInt8) : Bool := within 0x80 0xBF byte

/--
The number of leading bytes that form whole characters. The second byte of a character is
restricted so that no character is written longer than needed, none is a surrogate and none lies
above 10FFFF.
-/
def validLength : List UInt8 → Nat
  | [] => 0
  | a :: rest =>
    if a < 0x80 then 1 + validLength rest
    else match rest with
      | [] => 0
      | b :: rest =>
        if within 0xC2 0xDF a then
          if continues b then 2 + validLength rest else 0
        else match rest with
          | [] => 0
          | c :: rest =>
            if within 0xE0 0xEF a then
              let low : UInt8 := if a = 0xE0 then 0xA0 else 0x80
              let high : UInt8 := if a = 0xED then 0x9F else 0xBF
              if within low high b && continues c then 3 + validLength rest else 0
            else match rest with
              | [] => 0
              | d :: rest =>
                let low : UInt8 := if a = 0xF0 then 0x90 else 0x80
                let high : UInt8 := if a = 0xF4 then 0x8F else 0xBF
                if within 0xF0 0xF4 a && within low high b && continues c && continues d then
                  4 + validLength rest
                else 0

/-- The text of well-formed bytes; what follows an ill-formed byte is dropped. -/
def decodeLeading (content : List UInt8) : String :=
  (decode? (content.take (validLength content))).getD ""

/-- The bytes of a text are decoded to it. -/
theorem decode?_bytes (text : String) : decode? (bytes text) = some text := by
  simp [decode?, bytes, String.fromUTF8?, String.fromUTF8, text.isValidUTF8]

end LiveTopology.Text
