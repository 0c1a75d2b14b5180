import LiveTopology.Json.Reader

/-!
# Skipping a value

A member that nobody asks for is skipped without being built: its brackets, keys and commas are
checked, but it may nest to any depth, its numbers may be out of range and its strings need not be
UTF-8. The open arrays and objects are kept on a stack.
-/

namespace LiveTopology.Json

/-- An array or an object that is open while a value is skipped. -/
inductive Frame where
  | list
  | object
  deriving DecidableEq

/-- The byte that closes a frame. -/
def Frame.closing : Frame → UInt8
  | .list => Byte.closeBracket
  | .object => Byte.closeBrace

/-- The fault of a text that ends inside a frame. -/
def Frame.endCause : Frame → Cause
  | .list => .endInList
  | .object => .endInObject

/-- The fault of a byte that neither goes on in a frame nor closes it. -/
def Frame.commaCause : Frame → Cause
  | .list => .listCommaExpected
  | .object => .objectCommaExpected

/-- What stands before a value in a frame: a key and its colon in an object. -/
def Frame.skipKey (frame : Frame) (input : List UInt8) : Except Fault (List UInt8) :=
  match frame with
  | .list => .ok input
  | .object =>
    match skipSpace input with
    | [] => .error (.next .endInObject [])
    | b :: rest =>
      if b = Byte.quote then do
        let rest ← skipString rest
        readColon rest
      else .error (.next .keyNotString (b :: rest))

mutual

/-- Skips a value inside the open frames, and goes on until they are closed. -/
def skipInside : (fuel : Nat) → (frames : List Frame) → List UInt8 → Except Fault (List UInt8)
  | 0, _, _ => .error (.next .endInValue [])
  | fuel + 1, frames, input =>
    match skipSpace input with
    | [] => .error (.next .endInValue [])
    | b :: rest =>
      if b = Byte.letterN then do
        let rest ← readWord [0x75, 0x6C, 0x6C] rest
        skipBehind fuel frames true rest
      else if b = Byte.letterT then do
        let rest ← readWord [0x72, 0x75, 0x65] rest
        skipBehind fuel frames true rest
      else if b = Byte.letterF then do
        let rest ← readWord [0x61, 0x6C, 0x73, 0x65] rest
        skipBehind fuel frames true rest
      else if b = Byte.quote then do
        let rest ← skipString rest
        skipBehind fuel frames true rest
      else if b = Byte.minus || isDigit b then do
        let (_, rest) ← scanNumber .invalidNumber (b :: rest)
        skipBehind fuel frames true rest
      else if b = Byte.openBracket then skipBehind fuel (.list :: frames) false rest
      else if b = Byte.openBrace then skipBehind fuel (.object :: frames) false rest
      else .error (.next .valueExpected (b :: rest))

/-- Goes on behind a value, or behind the bracket that opened the innermost frame. -/
def skipBehind :
    (fuel : Nat) → (frames : List Frame) → (afterValue : Bool) → List UInt8 →
      Except Fault (List UInt8)
  | 0, _, _, _ => .error (.next .endInValue [])
  | _ + 1, [], _, input => .ok input
  | fuel + 1, frame :: outer, afterValue, input =>
    match skipSpace input with
    | [] => .error (.next frame.endCause [])
    | b :: rest =>
      if b = frame.closing then skipBehind fuel outer true rest
      else if afterValue then
        if b = Byte.comma then do
          let rest ← frame.skipKey rest
          skipInside fuel (frame :: outer) rest
        else .error (.next frame.commaCause (b :: rest))
      else do
        let rest ← frame.skipKey (b :: rest)
        skipInside fuel (frame :: outer) rest

end

/-- The text behind a value of any kind. -/
def skipValue (input : List UInt8) : Except Fault (List UInt8) :=
  skipInside (2 * input.length + 2) [] input

end LiveTopology.Json
