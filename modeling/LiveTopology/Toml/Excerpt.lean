import LiveTopology.Toml.Item

/-!
# Showing where a document is wrong

A message about a document names line and column, shows the line, and marks the part of it that is
meant. Columns count characters; before a character from outside ASCII they count bytes, and so
does the width of the mark.
-/

namespace LiveTopology.Toml

/-- The number of bytes of a text. -/
def byteCount (text : List Char) : Nat := text.foldl (fun count c => count + c.utf8Size) 0

/-- A place in a text, both counted from zero. -/
structure Position where
  line : Nat
  column : Nat
  deriving DecidableEq, Repr

/-- The part of the last line of a text. -/
def lastLine (text : List Char) : List Char := (text.reverse.takeWhile (· ≠ '\n')).reverse

/-- The place of the character with a given index. The place behind the text counts on from its
last character. -/
def positionOf (text : List Char) (index : Nat) : Position :=
  if text.isEmpty then ⟨0, index⟩
  else
    let last := min index (text.length - 1)
    let before := text.take last
    let line := lastLine before
    -- A place that is followed by text is that of the first byte of its character.
    let whole := last < index || (text[last]?.all fun c => c.toNat < 0x80)
    ⟨before.count '\n', (if whole then line.length else byteCount line) + (index - last)⟩

/-- The line of a text with a given number. -/
def lineOf : List Char → Nat → List Char
  | text, 0 => text.takeWhile (· ≠ '\n')
  | text, line + 1 => lineOf ((text.dropWhile (· ≠ '\n')).drop 1) line

/-- A run of one character. -/
def run (c : Char) (count : Nat) : String := String.ofList (List.replicate count c)

/-- A message with the part of the text that it is about. -/
def excerpt (text : List Char) (span : Option Span) (message : String) : String :=
  match span with
  | none => message ++ "\n"
  | some span =>
    let place := positionOf text span.first
    let number := toString (place.line + 1)
    let line := lineOf text place.line
    let gutter := run ' ' (number.length + 1) ++ "|"
    let marked := byteCount ((text.drop span.first).take (span.last - span.first))
    let width := max 1 (min marked (byteCount line - place.column))
    "TOML parse error at line " ++ number ++ ", column " ++ toString (place.column + 1) ++ "\n" ++
      gutter ++ "\n" ++
      number ++ " | " ++ String.ofList line ++ "\n" ++
      gutter ++ run ' ' (place.column + 1) ++ run '^' width ++ "\n" ++
      message ++ "\n"

end LiveTopology.Toml
