import LiveTopology.Text.Digit
import LiveTopology.Toml.Item

/-!
# Names, strings and blanks in TOML

A reader starts at a cursor and returns what it read with the cursor behind it. A fault says where
reading stopped, what was being read, what could have stood there, and, for a value that was read
and then refused, why. A fault that is not final leaves room for another reading of the same text.
-/

namespace LiveTopology.Toml

open Text (isDigit isHexDigit numeral)

/-- A place in a text with what follows it. -/
structure Cursor where
  /-- The number of characters before the place. -/
  index : Nat
  rest : List Char

/-- The cursor behind the next `count` characters. -/
def Cursor.skip (c : Cursor) (count : Nat) : Cursor := ⟨c.index + count, c.rest.drop count⟩

/-- The leading characters of a class. -/
def Cursor.leading (c : Cursor) (p : Char → Bool) : List Char := c.rest.takeWhile p

/-- The cursor behind the leading characters of a class. -/
def Cursor.skipWhile (c : Cursor) (p : Char → Bool) : Cursor := c.skip (c.leading p).length

/-- Whether the text goes on with the given characters. -/
def Cursor.startsWith (c : Cursor) (text : List Char) : Bool := text.isPrefixOf c.rest

/-- Why reading stopped. -/
structure Fault where
  /-- The place, in characters. -/
  index : Nat
  /-- What was being read. -/
  label : Option String
  /-- What could have stood at the place. -/
  expected : List String
  /-- Why a value was refused. -/
  reason : Option String
  /-- Whether no other reading is possible. -/
  final : Bool

/-- The wording of a fault: a line each for what was read, what was expected and the reason. -/
def Fault.message (f : Fault) : String :=
  let label := f.label.toList.map fun label => "invalid " ++ label
  let expected := if f.expected.isEmpty then []
    else ["expected " ++ String.intercalate ", " f.expected]
  String.intercalate "\n" (label ++ expected ++ f.reason.toList)

/-- Takes a value off the text at a cursor. -/
abbrev Reader (α : Type) := Cursor → Except Fault (α × Cursor)

/-- A fault that leaves room for another reading. -/
def Cursor.mismatch (c : Cursor) : Fault := ⟨c.index, none, [], none, false⟩

/-- A fault that is final. -/
def Cursor.fault (c : Cursor) : Fault := ⟨c.index, none, [], none, true⟩

/-- A final fault of a value that was read at the cursor. -/
def Cursor.refusal (c : Cursor) (reason : String) : Fault := ⟨c.index, none, [], some reason, true⟩

/-- The fault with what was being read, unless something inside it is named already. -/
def Fault.labelled (label : String) (f : Fault) : Fault :=
  { f with label := f.label.or (some label) }

/-- The fault with more that could have stood at its place. -/
def Fault.expecting (expected : List String) (f : Fault) : Fault :=
  { f with expected := f.expected ++ expected }

/-- The fault without room for another reading. -/
def Fault.sealed (f : Fault) : Fault := { f with final := true }

/-- A character in a message. -/
def shown (c : Char) : String := "`" ++ String.singleton c ++ "`"

/-! ## Blanks -/

/-- Blanks inside a line. -/
def isBlank (c : Char) : Bool := c = ' ' || c = '\t'

/-- Characters from outside ASCII. -/
def isOther (c : Char) : Bool := 0x80 ≤ c.toNat

/-- Characters of a comment. -/
def inComment (c : Char) : Bool := c = '\t' || (0x20 ≤ c.toNat && c.toNat ≤ 0x7E) || isOther c

/-- The cursor behind blanks. -/
def Cursor.skipBlanks (c : Cursor) : Cursor := c.skipWhile isBlank

/-- The cursor behind a comment, if there is one. -/
def Cursor.skipComment (c : Cursor) : Cursor :=
  if c.startsWith ['#'] then (c.skip 1).skipWhile inComment else c

/-- The cursor behind a line break. -/
def Cursor.lineBreak? (c : Cursor) : Option Cursor :=
  if c.startsWith ['\n'] then some (c.skip 1)
  else if c.startsWith ['\r', '\n'] then some (c.skip 2)
  else none

/-- The cursor behind the end of a line or at the end of the text. -/
def endOfLine (c : Cursor) : Except Fault Cursor :=
  match c.lineBreak? with
  | some next => .ok next
  | none => if c.rest.isEmpty then .ok c else .error c.fault

/-- The cursor behind what may stand between an item and the end of its line. -/
def restOfLine (c : Cursor) : Except Fault Cursor :=
  (endOfLine c.skipBlanks.skipComment).mapError (Fault.expecting ["newline", shown '#'])

/-- The cursor behind blanks, comments and line breaks; `fuel` bounds the number of lines. -/
def skipLines : (fuel : Nat) → Cursor → Cursor
  | 0, c => c.skipBlanks
  | fuel + 1, c =>
    let c := c.skipBlanks
    match c.skipComment.lineBreak? with
    | some next => skipLines fuel next
    | none => c

/-- The cursor behind blanks, comments and line breaks. -/
def Cursor.skipLines (c : Cursor) : Cursor := Toml.skipLines c.rest.length c

/-! ## Strings -/

/-- Characters that stand for themselves between double quotes. -/
def inBasic (c : Char) : Bool :=
  c = ' ' || c = '\t' || c.toNat = 0x21 || (0x23 ≤ c.toNat && c.toNat ≤ 0x5B) ||
    (0x5D ≤ c.toNat && c.toNat ≤ 0x7E) || isOther c

/-- Characters that stand for themselves between single quotes. -/
def inLiteral (c : Char) : Bool :=
  c = '\t' || (0x20 ≤ c.toNat && c.toNat ≤ 0x26) || (0x28 ≤ c.toNat && c.toNat ≤ 0x7E) || isOther c

/-- A character given by the number that `width` hexadecimal digits write. -/
def codePoint (width : Nat) : Reader Char := fun c =>
  let digits := (c.rest.take width).takeWhile isHexDigit
  let label := "unicode " ++ toString width ++ "-digit hex code"
  let code := numeral 16 digits
  if digits.length ≠ width then .error (c.fault.labelled label)
  else if code.isValidChar then .ok (Char.ofNat code, c.skip width)
  else .error ((c.refusal "value is out of range").labelled label)

/-- What may stand behind a backslash. -/
def escapes : List String := ['b', 'f', 'n', 'r', 't', 'u', 'U', '\\', '\x22'].map shown

/-- An escaped character behind its backslash. -/
def escaped : Reader Char := fun c =>
  match c.rest with
  | [] => .error c.mismatch
  | 'b' :: _ => .ok ('\x08', c.skip 1)
  | 'f' :: _ => .ok ('\x0c', c.skip 1)
  | 'n' :: _ => .ok ('\n', c.skip 1)
  | 'r' :: _ => .ok ('\r', c.skip 1)
  | 't' :: _ => .ok ('\t', c.skip 1)
  | 'u' :: _ => codePoint 4 (c.skip 1)
  | 'U' :: _ => codePoint 8 (c.skip 1)
  | '\\' :: _ => .ok ('\\', c.skip 1)
  | '\x22' :: _ => .ok ('\x22', c.skip 1)
  | _ :: _ => .error (((c.skip 1).fault.labelled "escape sequence").expecting escapes)

/-- The rest of a string of one line in double quotes; `fuel` bounds its length. -/
def basicBody : (fuel : Nat) → (read : List Char) → Reader String
  | 0, _, c => .error c.fault
  | fuel + 1, read, c =>
    match c.rest with
    | '\x22' :: _ => .ok (String.ofList read.reverse, c.skip 1)
    | '\\' :: _ =>
      match escaped (c.skip 1) with
      | .ok (char, c) => basicBody fuel (char :: read) c
      | .error fault => .error (if fault.final then fault else c.fault.labelled "basic string")
    | char :: _ =>
      if inBasic char then basicBody fuel (char :: read) (c.skip 1)
      else .error (c.fault.labelled "basic string")
    | [] => .error (c.fault.labelled "basic string")

/-- A string of one line in double quotes. -/
def basicString : Reader String := fun c => basicBody c.rest.length [] (c.skip 1)

/-- A string of one line in single quotes. -/
def literalString : Reader String := fun c =>
  let start := c.skip 1
  let content := start.leading inLiteral
  let stop := start.skip content.length
  if stop.startsWith ['\x27'] then .ok (String.ofList content, stop.skip 1)
  else .error (stop.fault.labelled "literal string")

/-- The cursor behind a line break, if there is one at the start of a string of many lines. -/
def Cursor.skipLineBreak (c : Cursor) : Cursor := c.lineBreak?.getD c

/-- Blanks and line breaks. -/
def skipBlankLines : (fuel : Nat) → Cursor → Cursor
  | 0, c => c
  | fuel + 1, c =>
    match c.rest with
    | [] => c
    | char :: _ =>
      if isBlank char then skipBlankLines fuel (c.skip 1)
      else match c.lineBreak? with
        | some next => skipBlankLines fuel next
        | none => c

/-- The cursor behind a backslash at the end of a line and all blanks and line breaks after it. -/
def Cursor.joinedLine? (c : Cursor) : Option Cursor :=
  ((c.skip 1).skipBlanks.lineBreak?).map fun next => skipBlankLines next.rest.length next

/-- The quotes that end a string of many lines: up to two more belong to the content. -/
def closingQuotes (quote : Char) (c : Cursor) : Option (List Char × Cursor) :=
  let count := (c.leading (· = quote)).length
  if 3 ≤ count then
    let inside := min (count - 3) 2
    some (List.replicate inside quote, c.skip (inside + 3))
  else none

/-- Whether content of a string of many lines stands at the cursor. -/
def hasContent (inside : Char → Bool) (c : Cursor) : Bool :=
  match c.rest with
  | [] => false
  | char :: _ => inside char || c.lineBreak?.isSome

/-- The rest of a string of many lines in double quotes. -/
def longBasicBody : (fuel : Nat) → (read : List Char) → Reader String
  | 0, _, c => .error c.fault
  | fuel + 1, read, c =>
    let broken : Fault := c.fault.labelled "multiline basic string"
    match c.rest with
    | [] => .error broken
    | '\x22' :: _ =>
      match closingQuotes '\x22' c with
      | some (last, c) => .ok (String.ofList (read.reverse ++ last), c)
      | none =>
        let quotes := c.leading (· = '\x22')
        let next := c.skip quotes.length
        if next.startsWith ['\\'] || hasContent inBasic next then
          longBasicBody fuel (quotes ++ read) next
        else .error broken
    | '\\' :: _ =>
      match c.joinedLine? with
      | some next => longBasicBody fuel read next
      | none =>
        match escaped (c.skip 1) with
        | .ok (char, c) => longBasicBody fuel (char :: read) c
        | .error fault => .error (if fault.final then fault else broken)
    | char :: _ =>
      if inBasic char then longBasicBody fuel (char :: read) (c.skip 1)
      else match c.lineBreak? with
        | some next => longBasicBody fuel ('\n' :: read) next
        | none => .error broken

/-- The rest of a string of many lines in single quotes. -/
def longLiteralBody : (fuel : Nat) → (read : List Char) → Reader String
  | 0, _, c => .error c.fault
  | fuel + 1, read, c =>
    let broken : Fault := c.fault.labelled "multiline literal string"
    match c.rest with
    | [] => .error broken
    | '\x27' :: _ =>
      match closingQuotes '\x27' c with
      | some (last, c) => .ok (String.ofList (read.reverse ++ last), c)
      | none =>
        let quotes := c.leading (· = '\x27')
        let next := c.skip quotes.length
        if hasContent inLiteral next then longLiteralBody fuel (quotes ++ read) next
        else .error broken
    | char :: _ =>
      if inLiteral char then longLiteralBody fuel (char :: read) (c.skip 1)
      else match c.lineBreak? with
        | some next => longLiteralBody fuel ('\n' :: read) next
        | none => .error broken

/-- A string of any form. -/
def anyString : Reader String := fun c =>
  if c.startsWith ['\x22', '\x22', '\x22'] then
    (longBasicBody (c.rest.length + 1) [] (c.skip 3).skipLineBreak).mapError
      (Fault.labelled "multiline basic string")
  else if c.startsWith ['\x27', '\x27', '\x27'] then
    longLiteralBody (c.rest.length + 1) [] (c.skip 3).skipLineBreak
  else if c.startsWith ['\x22'] then basicString c
  else literalString c

/-! ## Names -/

/-- Characters of a bare name. -/
def inBareKey (c : Char) : Bool :=
  ('A' ≤ c && c ≤ 'Z') || ('a' ≤ c && c ≤ 'z') || isDigit c || c = '-' || c = '_'

/-- A name without dots. -/
def simpleKey : Reader Key := fun c => do
  let (name, next) ←
    if c.startsWith ['\x22'] then basicString c
    else if c.startsWith ['\x27'] then literalString c
    else
      let name := c.leading inBareKey
      if name.isEmpty then .error c.mismatch
      else .ok (String.ofList name, c.skip name.length)
  pure (⟨name, c.index, next.index⟩, next)

/-- Further parts of a dotted name; `fuel` bounds their number. -/
def furtherKeys : (fuel : Nat) → Reader (List Key)
  | 0, c => .ok ([], c)
  | fuel + 1, c =>
    if c.startsWith ['.'] then
      match simpleKey (c.skip 1).skipBlanks with
      | .ok (key, next) => do
        let (keys, next) ← furtherKeys fuel next.skipBlanks
        pure (key :: keys, next)
      | .error fault => if fault.final then .error fault else .ok ([], c)
    else .ok ([], c)

/-- How deep names and values may nest. -/
def nestingLimit : Nat := 80

/-- A dotted name with the blanks around it: its parts but the last, and the last. -/
def dottedKey : Reader (List Key × Key) := fun c =>
  let parts : Except Fault ((Key × List Key) × Cursor) := do
    let (first, next) ← simpleKey c.skipBlanks
    let (further, next) ← furtherKeys next.rest.length next.skipBlanks
    pure ((first, further), next)
  match parts with
  | .error fault => .error (fault.labelled "key")
  | .ok ((first, further), next) =>
    if nestingLimit ≤ further.length + 1 then
      .error { c.refusal "recursion limit exceeded" with final := false }
    else
      match further.getLast? with
      | none => .ok (([], first), next)
      | some last => .ok ((first :: further.dropLast, last), next)

end LiveTopology.Toml
