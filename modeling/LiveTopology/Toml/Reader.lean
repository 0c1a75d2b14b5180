import LiveTopology.Toml.Number

/-!
# Reading TOML

`value` reads the values, `document` the lines of a whole text. A text is a document or it has a
syntax error with one place and a wording.
-/

namespace LiveTopology.Toml

open Text (isDigit)

/-- What may start where a value is expected and none of the other forms does. -/
def stringExpected (f : Fault) : Fault :=
  (f.labelled "string").expecting [shown '\x22', shown '\x27']

/-- A word that stands for a value. -/
def word (letters : String) (item : Span → Item) : Reader Item := fun c =>
  if c.startsWith letters.toList then
    let next := c.skip letters.length
    .ok (item ⟨c.index, next.index⟩, next)
  else .error (stringExpected c.fault)

/-- The items of an array behind its opening bracket; `fuel` bounds their number. -/
def arrayItems (value : Reader Item) : (fuel : Nat) → Reader (List Item)
  | 0, c => .ok ([], c)
  | fuel + 1, c =>
    match value c.skipLines with
    | .error fault => if fault.final then .error fault else .ok ([], c)
    | .ok (item, next) =>
      let next := next.skipLines
      if next.startsWith [','] then do
        let (items, after) ← arrayItems value fuel (next.skip 1)
        if items.isEmpty then pure ([item], next) else pure (item :: items, after)
      else .ok ([item], next)

/-- An array. -/
def array (value : Reader Item) : Reader Item := fun c => do
  let start := c.skip 1
  let (items, next) ← arrayItems value start.rest.length start
  let next := if items.isEmpty then next else
    if next.startsWith [','] then next.skip 1 else next
  let next := next.skipLines
  if next.startsWith [']'] then
    pure (.array items ⟨c.index, next.index + 1⟩, next.skip 1)
  else .error ((next.fault.labelled "array").expecting [shown ']'])

/-- The equals sign between a name and its value. -/
def equals (c : Cursor) : Except Fault Cursor :=
  if c.startsWith ['='] then .ok (c.skip 1)
  else .error (c.fault.expecting [shown '.', shown '='])

/-- A name with its value inside braces. -/
def inlinePair (value : Reader Item) : Reader (List Key × Key × Item) := fun c => do
  let ((path, key), next) ← dottedKey c
  let rest : Except Fault (Item × Cursor) := do
    let next ← equals next
    let (item, next) ← value next.skipBlanks
    pure (item, next.skipBlanks)
  let (item, next) ← rest.mapError Fault.sealed
  pure ((path, key, item), next)

/-- The pairs of a table in braces, behind the opening one; `fuel` bounds their number. -/
def inlinePairs (value : Reader Item) : (fuel : Nat) → Reader (List (List Key × Key × Item))
  | 0, c => .ok ([], c)
  | fuel + 1, c =>
    match inlinePair value c with
    | .error fault => if fault.final then .error fault else .ok ([], c)
    | .ok (pair, next) =>
      if next.startsWith [','] then do
        let (pairs, after) ← inlinePairs value fuel (next.skip 1)
        if pairs.isEmpty then pure ([pair], next) else pure (pair :: pairs, after)
      else .ok ([pair], next)

/-- A table in braces. -/
def inlineTable (value : Reader Item) : Reader Item := fun c => do
  let start := c.skip 1
  let (pairs, next) ← inlinePairs value start.rest.length start
  let next := next.skipBlanks
  match inlineEntries pairs [] with
  | .error conflict => .error (start.refusal conflict.text)
  | .ok entries =>
    if next.startsWith ['\x7d'] then
      pure (.table .inline entries (some ⟨c.index, next.index + 1⟩), next.skip 1)
    else .error ((next.fault.labelled "inline table").expecting [shown '\x7d'])

/-- A value in which arrays and tables in braces nest less than `depth` deep. -/
def value (depth : Nat) (c : Cursor) : Except Fault (Item × Cursor) :=
  match c.rest with
  | [] => .error c.mismatch
  | char :: _ =>
    if char = '\x22' || char = '\x27' then
      (anyString c).map fun (text, next) => (.string text ⟨c.index, next.index⟩, next)
    else if char = '[' then
      match depth with
      | 0 => .error (c.refusal "recursion limit exceeded")
      | depth + 1 => array (value depth) c
    else if char = '\x7b' then
      match depth with
      | 0 => .error (c.refusal "recursion limit exceeded")
      | depth + 1 => inlineTable (value depth) c
    else if char = '+' || char = '-' || isDigit char then numeric c
    else if char = '_' then (integer c).mapError (Fault.expecting ["leading digit"])
    else if char = '.' then (float c).mapError (Fault.expecting ["leading digit"])
    else if char = 't' then word "true" (.boolean true) c
    else if char = 'f' then word "false" (.boolean false) c
    else if char = 'i' then word "inf" (.float (1 / 0)) c
    else if char = 'n' then word "nan" (.float (0 / 0)) c
    else .error (stringExpected c.mismatch)

/-! ## Documents -/

/-- A line that gives an item its value. -/
def keyValue (draft : Draft) : Reader Draft := fun c => do
  let ((path, key), next) ← (dottedKey c).mapError Fault.sealed
  let next ← equals next
  let (item, next) ← (value (nestingLimit - 1) next.skipBlanks).mapError Fault.sealed
  let next ← restOfLine next
  match draft.add path key item with
  | .ok draft => pure (draft, next)
  | .error conflict => .error (c.refusal conflict.text)

/-- A line with the header of a table. -/
def tableHeader (draft : Draft) : Reader Draft := fun c =>
  let read : Except Fault (Draft × Cursor) := do
    let element := c.startsWith ['[', '[']
    let start := c.skip (if element then 2 else 1)
    if c.rest.length < 2 then .error c.fault
    else
      let ((path, key), next) ← (dottedKey start).mapError Fault.sealed
      let closing := if element then [']', ']'] else [']']
      if !next.startsWith closing then
        .error (next.fault.expecting [shown '.', "`" ++ String.ofList closing ++ "`"])
      else
        let stop := next.skip closing.length
        let after ← restOfLine stop
        let span : Span := ⟨c.index, stop.index⟩
        match if element then draft.startElement path key span
          else draft.startTable path key span with
        | .ok draft => pure (draft, after)
        | .error conflict => .error (c.refusal conflict.text)
  read.mapError (Fault.labelled "table header")

/-- The lines of a document; `fuel` bounds their number. -/
def lines : (fuel : Nat) → Draft → Cursor → Except Fault Draft
  | 0, _, c => .error c.fault
  | fuel + 1, draft, c =>
    match c.rest with
    | [] => .ok draft
    | char :: _ =>
      if char = '#' then do
        let next ← endOfLine c.skipComment
        lines fuel draft next.skipBlanks
      else if char = '[' then do
        let (draft, next) ← tableHeader draft c
        lines fuel draft next.skipBlanks
      else if char = '\n' || char = '\r' then
        match c.lineBreak? with
        | some next => lines fuel draft next.skipBlanks
        | none => .error c.fault
      else do
        let (draft, next) ← keyValue draft c
        lines fuel draft next.skipBlanks

/-- A text that is no document. -/
structure SyntaxError where
  message : String
  /-- Where it went wrong, if that is known. -/
  span : Option Span

/-- The document that a text is. A mark of the byte order may stand before it. -/
def parse (text : List Char) : Except SyntaxError Item :=
  let start : Cursor := ⟨0, text⟩
  let start := if start.startsWith [Char.ofNat 0xFEFF] then start.skip 1 else start
  match lines (text.length + 1) .empty start.skipBlanks with
  | .error fault => .error ⟨fault.message, some ⟨fault.index, fault.index + 1⟩⟩
  | .ok draft =>
    match draft.document with
    | .error conflict => .error ⟨conflict.text, none⟩
    | .ok item => .ok item

end LiveTopology.Toml
