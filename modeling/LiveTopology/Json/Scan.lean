import LiveTopology.Json.Fault
import LiveTopology.Text.Utf8

/-!
# Words, strings and numbers in bytes

A reader takes a leading part off a byte sequence and returns what it denotes with the rest. The
readers here are for the parts without inner structure: white space, the words of the language,
strings with their escapes, and numbers. A string is checked to be UTF-8 when its closing quote is
reached.
-/

namespace LiveTopology.Json

open LiveTopology

/-- Takes a value off the front of a byte sequence. -/
abbrev Reader (α : Type) := List UInt8 → Except Fault (α × List UInt8)

namespace Byte

/-- The quote around strings. -/
abbrev quote : UInt8 := 0x22
/-- The plus sign of an exponent. -/
abbrev plus : UInt8 := 0x2B
/-- The comma between items and between members. -/
abbrev comma : UInt8 := 0x2C
/-- The minus sign of a number or an exponent. -/
abbrev minus : UInt8 := 0x2D
/-- The point before a fraction. -/
abbrev point : UInt8 := 0x2E
/-- The digit zero, which stands alone before the point. -/
abbrev zero : UInt8 := 0x30
/-- The colon behind a key. -/
abbrev colon : UInt8 := 0x3A
/-- The bracket that opens an array. -/
abbrev openBracket : UInt8 := 0x5B
/-- The backslash that starts an escape. -/
abbrev backslash : UInt8 := 0x5C
/-- The bracket that closes an array. -/
abbrev closeBracket : UInt8 := 0x5D
/-- The brace that opens an object. -/
abbrev openBrace : UInt8 := 0x7B
/-- The brace that closes an object. -/
abbrev closeBrace : UInt8 := 0x7D
/-- The letter that starts an exponent. -/
abbrev letterE : UInt8 := 0x65
/-- The first letter of the word for false. -/
abbrev letterF : UInt8 := 0x66
/-- The first letter of the word for null. -/
abbrev letterN : UInt8 := 0x6E
/-- The first letter of the word for true. -/
abbrev letterT : UInt8 := 0x74
/-- The letter of an escaped code unit. -/
abbrev letterU : UInt8 := 0x75

end Byte

/-- White space: space, tab, line feed, carriage return. -/
def isSpace (b : UInt8) : Bool := b = 0x20 || b = 0x09 || b = 0x0A || b = 0x0D

/-- The text behind leading white space. -/
def skipSpace (input : List UInt8) : List UInt8 := input.dropWhile isSpace

/-- A decimal digit. -/
def isDigit (b : UInt8) : Bool := 0x30 ≤ b && b ≤ 0x39

/-- The value of a decimal digit. -/
def digitValue (b : UInt8) : Nat := b.toNat - 0x30

/-- The rest of a word whose first letter has been seen. -/
def readWord (word : List UInt8) (input : List UInt8) : Except Fault (List UInt8) :=
  match word, input with
  | [], rest => .ok rest
  | _ :: _, [] => .error (.here .endInValue [])
  | letter :: word, b :: rest =>
    if b = letter then readWord word rest else .error (.here .wordExpected rest)

/-! ## Strings -/

/-- The value of a hexadecimal digit of either case. -/
def hexValue? (b : UInt8) : Option Nat :=
  if 0x30 ≤ b && b ≤ 0x39 then some (b.toNat - 0x30)
  else if 0x61 ≤ b && b ≤ 0x66 then some (b.toNat - 0x61 + 10)
  else if 0x41 ≤ b && b ≤ 0x46 then some (b.toNat - 0x41 + 10)
  else none

/-- Four hexadecimal digits as a code unit. -/
def codeUnit? (a b c d : UInt8) : Option Nat := do
  let a ← hexValue? a
  let b ← hexValue? b
  let c ← hexValue? c
  let d ← hexValue? d
  pure (((a * 16 + b) * 16 + c) * 16 + d)

/-- The byte for which a one-letter escape stands. -/
def escapedByte? (b : UInt8) : Option UInt8 :=
  if b = 0x22 || b = 0x5C || b = 0x2F then some b
  else if b = 0x62 then some 0x08
  else if b = 0x66 then some 0x0C
  else if b = 0x6E then some 0x0A
  else if b = 0x72 then some 0x0D
  else if b = 0x74 then some 0x09
  else none

/-- The first half of a pair of code units. -/
def isLeading (unit : Nat) : Bool := 0xD800 ≤ unit && unit ≤ 0xDBFF

/-- The second half of a pair of code units. -/
def isTrailing (unit : Nat) : Bool := 0xDC00 ≤ unit && unit ≤ 0xDFFF

/-- The character for which a pair of code units stands. -/
def ofPair (leading trailing : Nat) : Char :=
  Char.ofNat ((leading - 0xD800) * 0x400 + (trailing - 0xDC00) + 0x10000)

/-- The bytes of a string behind its opening quote; `decoded` holds those read, last first. -/
def scanString (decoded : List UInt8) : Reader (List UInt8)
  | [] => .error (.here .endInString [])
  | b :: rest =>
    if b = Byte.quote then .ok (decoded.reverse, rest)
    else if b < 0x20 then .error (.here .controlCharacter rest)
    else if b = Byte.backslash then
      match rest with
      | [] => .error (.here .endInString [])
      | e :: rest =>
        match escapedByte? e with
        | some byte => scanString (byte :: decoded) rest
        | none =>
          if e = Byte.letterU then
            match rest with
            | h₁ :: h₂ :: h₃ :: h₄ :: rest =>
              match codeUnit? h₁ h₂ h₃ h₄ with
              | none => .error (.here .invalidEscape rest)
              | some unit =>
                if isTrailing unit then .error (.here .loneSurrogate rest)
                else if isLeading unit then
                  match rest with
                  | [] => .error (.here .endInString [])
                  | s :: rest =>
                    if s = Byte.backslash then
                      match rest with
                      | [] => .error (.here .endInString [])
                      | u :: rest =>
                        if u = Byte.letterU then
                          match rest with
                          | k₁ :: k₂ :: k₃ :: k₄ :: rest =>
                            match codeUnit? k₁ k₂ k₃ k₄ with
                            | none => .error (.here .invalidEscape rest)
                            | some second =>
                              if isTrailing second then
                                let char := String.utf8EncodeChar (ofPair unit second)
                                scanString (char.reverse ++ decoded) rest
                              else .error (.here .loneSurrogate rest)
                          | _ => .error (.here .endInString [])
                        else .error (.here .endInHexEscape rest)
                    else .error (.here .endInHexEscape rest)
                else
                  scanString ((String.utf8EncodeChar (Char.ofNat unit)).reverse ++ decoded) rest
            | _ => .error (.here .endInString [])
          else .error (.here .invalidEscape rest)
    else scanString (b :: decoded) rest

/-- The place of the first byte that is not UTF-8 in a string, counted from the closing quote. -/
def illFormedPlace (input content rest : List UInt8) : List UInt8 :=
  let written := input.length - rest.length - 1
  input.drop (written - content.length + Text.validLength content + 1)

/-- A string behind its opening quote. -/
def readString : Reader String := fun input => do
  let (content, rest) ← scanString [] input
  match Text.decode? content with
  | some text => .ok (text, rest)
  | none => .error (.here .invalidCodePoint (illFormedPlace input content rest))

/-- The end of a string whose content does not matter; its escapes need only be complete. A control
character is reported at the place before it. -/
def skipString : List UInt8 → Except Fault (List UInt8)
  | [] => .error (.here .endInString [])
  | b :: rest =>
    if b = Byte.quote then .ok rest
    else if b < 0x20 then .error (.here .controlCharacter (b :: rest))
    else if b = Byte.backslash then
      match rest with
      | [] => .error (.here .endInString [])
      | e :: rest =>
        if (escapedByte? e).isSome then skipString rest
        else if e = Byte.letterU then
          match rest with
          | h₁ :: h₂ :: h₃ :: h₄ :: rest =>
            if (codeUnit? h₁ h₂ h₃ h₄).isSome then skipString rest
            else .error (.here .invalidEscape rest)
          | _ => .error (.here .endInString [])
        else .error (.here .invalidEscape rest)
    else skipString rest

/-! ## Numbers -/

/-- A number as it is written. -/
structure Literal where
  negative : Bool
  /-- The digits before the point. -/
  whole : List UInt8
  /-- The digits behind the point, if there is one. -/
  fraction : Option (List UInt8)
  /-- Whether the exponent is negative, and its digits, if there is one. -/
  exponent : Option (Bool × List UInt8)

/-- The digits before the point: a zero stands alone. -/
def scanWhole (atEnd : Cause) : Reader (List UInt8)
  | [] => .error (.here atEnd [])
  | b :: rest =>
    if b = Byte.zero then
      match rest with
      | [] => .ok ([b], [])
      | d :: _ => if isDigit d then .error (.next .invalidNumber rest) else .ok ([b], rest)
    else if isDigit b then .ok (b :: rest.takeWhile isDigit, rest.dropWhile isDigit)
    else .error (.here .invalidNumber rest)

/-- The fraction, if a point follows; it has at least one digit. -/
def scanFraction (atEnd : Cause) (input : List UInt8) :
    Except Fault (Option (List UInt8) × List UInt8) :=
  match input with
  | [] => .ok (none, [])
  | b :: rest =>
    if b = Byte.point then
      match rest.takeWhile isDigit, rest.dropWhile isDigit with
      | [], [] => .error (.next atEnd [])
      | [], after => .error (.next .invalidNumber after)
      | digits, after => .ok (some digits, after)
    else .ok (none, input)

/-- The sign of an exponent, plus if none is written. -/
def scanSign (input : List UInt8) : Bool × List UInt8 :=
  match input with
  | [] => (false, [])
  | b :: rest =>
    if b = Byte.plus then (false, rest)
    else if b = Byte.minus then (true, rest)
    else (false, input)

/-- The exponent, if an `e` follows; it has at least one digit. -/
def scanExponent (atEnd : Cause) (input : List UInt8) :
    Except Fault (Option (Bool × List UInt8) × List UInt8) :=
  match input with
  | [] => .ok (none, [])
  | b :: rest =>
    if b = 0x65 || b = 0x45 then
      let (negative, rest) := scanSign rest
      match rest with
      | [] => .error (.here atEnd [])
      | d :: rest =>
        if isDigit d then
          .ok (some (negative, d :: rest.takeWhile isDigit), rest.dropWhile isDigit)
        else .error (.here .invalidNumber rest)
    else .ok (none, input)

/-- The written form of a number. `atEnd` is the fault of a text that ends inside it. -/
def scanNumber (atEnd : Cause) : Reader Literal := fun input => do
  let (negative, input) := match input with
    | [] => (false, [])
    | b :: rest => if b = Byte.minus then (true, rest) else (false, input)
  let (whole, rest) ← scanWhole atEnd input
  let (fraction, rest) ← scanFraction atEnd rest
  let (exponent, rest) ← scanExponent atEnd rest
  pure (⟨negative, whole, fraction, exponent⟩, rest)

/-- Digits read as a decimal number. -/
def decimalValue (digits : List UInt8) : Nat :=
  digits.foldl (fun value digit => value * 10 + digitValue digit) 0

/-- The largest significand that is kept exactly. -/
def largestSignificand : Nat := UInt64.size - 1

/-- The digits before the point as `significand · 10 ^ exponent`: those that no longer fit are
dropped, and each raises the exponent. -/
def wholePart (significand : Nat) : List UInt8 → Nat × Int
  | [] => (significand, 0)
  | digit :: rest =>
    let next := significand * 10 + digitValue digit
    if next ≤ largestSignificand then wholePart next rest
    else (significand, (digit :: rest).length)

/-- The digits behind the point taken into the significand, each lowering the exponent, as far as
they fit. -/
def fractionPart (significand : Nat) (exponent : Int) : List UInt8 → Nat × Int
  | [] => (significand, exponent)
  | digit :: rest =>
    let next := significand * 10 + digitValue digit
    if next ≤ largestSignificand then fractionPart next (exponent - 1) rest
    else (significand, exponent)

/-- `f · 10 ^ exponent` in double arithmetic, with a division by 10³⁰⁸ for each 308 powers below
zero; `none` if it is too large. Three divisions make any significand vanish. -/
def scaled : (fuel : Nat) → (f : Float) → (exponent : Int) → Option Float
  | 0, f, _ => some f
  | fuel + 1, f, exponent =>
    if exponent.natAbs ≤ 308 then
      let power := Float.ofScientific 1 false exponent.natAbs
      if 0 ≤ exponent then
        let product := f * power
        if product.isInf then none else some product
      else some (f / power)
    else if f == 0 then some f
    else if 0 ≤ exponent then none
    else scaled fuel (f / Float.ofScientific 1 false 308) (exponent + 308)

/-- The largest exponent that is read. -/
def largestExponent : Nat := 0x7FFFFFFF

/-- An exponent, or the digits behind the one with which it became too large. -/
def exponentValue (value : Nat) : List UInt8 → Except (List UInt8) Nat
  | [] => .ok value
  | digit :: rest =>
    let next := value * 10 + digitValue digit
    if next ≤ largestExponent then exponentValue next rest else .error rest

/-- The sum of two exponents, kept within 32 bits. -/
def boundedSum (a b : Int) : Int := max (-0x80000000) (min 0x7FFFFFFF (a + b))

/-- The double that a literal denotes; `rest` follows the literal. -/
def Literal.double (l : Literal) (rest : List UInt8) : Except Fault Float := do
  let (significand, exponent) := wholePart 0 l.whole
  let (significand, exponent) := fractionPart significand exponent (l.fraction.getD [])
  let exponent ← match l.exponent with
    | none => pure (some exponent)
    | some (negative, digits) =>
      match exponentValue 0 digits with
      | .ok value => pure (some (boundedSum exponent (if negative then -value else value)))
      | .error unread =>
        if significand ≠ 0 && !negative then
          .error (.here .numberOutOfRange (unread ++ rest))
        else pure none
  let size ← match exponent with
    | none => pure 0
    | some exponent =>
      match scaled 4 significand.toUInt64.toFloat exponent with
      | some f => pure f
      | none => .error (.here .numberOutOfRange rest)
  pure (if l.negative then -size else size)

/-- The number that a literal denotes: an integer if it is written as one and fits. -/
def Literal.number (l : Literal) (rest : List UInt8) : Except Fault Number :=
  let value : Int := if l.negative then -(decimalValue l.whole) else decimalValue l.whole
  if fits : -0x8000000000000000 ≤ value ∧ value < 0x10000000000000000 then
    if l.fraction.isNone && l.exponent.isNone && !(l.negative && value == 0) then
      .ok (.integer value fits)
    else (l.double rest).map .double
  else (l.double rest).map .double

/-- A number. -/
def readNumber : Reader Number := fun input => do
  let (literal, rest) ← scanNumber .endInValue input
  let number ← literal.number rest
  pure (number, rest)

end LiveTopology.Json
