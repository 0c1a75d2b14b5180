/-!
# TOML documents

A document is a table of named items. Every item keeps the part of the text that it was written in,
so that what is wrong with it can be shown there; a table that only a longer name implies was not
written anywhere. How a table came about decides what may still be added to it.
-/

namespace LiveTopology.Toml

/-- A part of a text, in characters; `last` is the first character behind it. -/
structure Span where
  first : Nat
  last : Nat
  deriving DecidableEq, Repr

/-- A name with the place where it is written. -/
structure Key where
  name : String
  span : Span
  deriving DecidableEq, Repr

/-- How a table came about. -/
inductive Origin where
  /-- By a header of its own, as an element of an array of tables, or as the document itself. -/
  | header
  /-- By a longer header. -/
  | implied
  /-- By a dotted name. -/
  | dotted
  /-- As a value in braces. -/
  | inline
  deriving DecidableEq, Repr

/-- An item of a document. -/
inductive Item where
  | string (value : String) (span : Span)
  | integer (value : Int) (span : Span)
  | float (value : Float) (span : Span)
  | boolean (value : Bool) (span : Span)
  | datetime (span : Span)
  | array (items : List Item) (span : Span)
  /-- An array whose elements are tables with headers. -/
  | tables (elements : List Item) (span : Option Span)
  /-- A table with its entries in the order in which they came about. -/
  | table (origin : Origin) (entries : List (Key × Item)) (span : Option Span)

/-- The part of the text in which an item is written. -/
def Item.span? : Item → Option Span
  | .string _ span => some span
  | .integer _ span => some span
  | .float _ span => some span
  | .boolean _ span => some span
  | .datetime span => some span
  | .array _ span => some span
  | .tables _ span => span
  | .table _ _ span => span

/-- The kind of a value in a message. -/
def Item.kindName : Item → String
  | .string .. => "string"
  | .integer .. => "integer"
  | .float .. => "float"
  | .boolean .. => "boolean"
  | .datetime .. => "datetime"
  | .array .. => "array"
  | .tables .. => "array of tables"
  | .table .inline .. => "inline table"
  | .table .. => "table"

/-- The entries of a table. -/
abbrev Entries := List (Key × Item)

/-- The item under a name. -/
def Entries.get? (name : String) (entries : Entries) : Option Item :=
  (entries.find? fun entry => entry.1.name = name).map Prod.snd

/-- The entries without a name. -/
def Entries.erase (name : String) (entries : Entries) : Entries :=
  entries.filter fun entry => entry.1.name ≠ name

/-- The entries with the item under a name changed in its place, or added at the end. -/
def Entries.alter {ε : Type} (key : Key) (change : Option Item → Except ε Item) :
    Entries → Except ε Entries
  | [] => do
    let item ← change none
    pure [(key, item)]
  | (other, item) :: rest =>
    if other.name = key.name then do
      let item ← change (some item)
      pure ((other, item) :: rest)
    else do
      let rest ← alter key change rest
      pure ((other, item) :: rest)

/-! ## Building tables -/

/-- Why a name cannot be given an item. -/
inductive Conflict where
  /-- The name is taken, in the table with the given name if it is known. -/
  | duplicate (name : String) (table : Option (List String))
  /-- A name on the way leads to a value that is no table. -/
  | extendsValue (path : List String) (kind : String)

/-- The wording of a conflict. -/
def Conflict.text : Conflict → String
  | .duplicate name none => "duplicate key `" ++ name ++ "`"
  | .duplicate name (some []) => "duplicate key `" ++ name ++ "` in document root"
  | .duplicate name (some table) =>
    "duplicate key `" ++ name ++ "` in table `" ++ String.intercalate "." table ++ "`"
  | .extendsValue path kind =>
    "dotted key `" ++ String.intercalate "." path ++ "` attempted to extend non-table type (" ++
      kind ++ ")"

/-- The names of a path. -/
def names (path : List Key) : List String := path.map Key.name

/-- Changes the table that a path leads to from a table with the given origin and entries. Missing
tables on the way come about, by a dotted name or by a header. `walked` is the path so far. -/
def descend (dotted : Bool) (change : Origin → Entries → Except Conflict Entries) :
    (walked path : List Key) → Origin → Entries → Except Conflict Entries
  | _, [], origin, entries => change origin entries
  | walked, key :: path, _, entries =>
    entries.alter key fun found =>
      let walked := walked ++ [key]
      match found with
      | none => do
        let origin := if dotted then Origin.dotted else Origin.implied
        let entries ← descend dotted change walked path origin []
        pure (.table origin entries none)
      | some (.table .inline _ _) => .error (.extendsValue (names walked) "inline table")
      | some (.table origin entries span) =>
        if dotted && origin == .header then .error (.duplicate key.name none)
        else do
          let entries ← descend dotted change walked path origin entries
          pure (.table origin entries span)
      | some (.tables elements span) =>
        match elements.reverse with
        | .table origin entries tableSpan :: earlier => do
          let entries ← descend dotted change walked path origin entries
          pure (.tables (earlier.reverse ++ [.table origin entries tableSpan]) span)
        | _ => .error (.duplicate key.name none)
      | some other => .error (.extendsValue (names walked) other.kindName)

/-- Changes the table that a dotted name leads to inside a table in braces. -/
def descendInline (change : Origin → Entries → Except Conflict Entries) :
    (walked path : List Key) → Origin → Entries → Except Conflict Entries
  | _, [], origin, entries => change origin entries
  | walked, key :: path, _, entries =>
    entries.alter key fun found =>
      let walked := walked ++ [key]
      match found with
      | none => do
        let entries ← descendInline change walked path .dotted []
        pure (.table .dotted entries none)
      | some (.table .dotted entries span) => do
        let entries ← descendInline change walked path .dotted entries
        pure (.table .dotted entries span)
      | some (.table _ _ _) => .error (.duplicate key.name none)
      | some other => .error (.extendsValue (names walked) other.kindName)

/-- Adds an item under a new name. A dotted name only adds to tables made by dotted names, an
undotted one only to others. -/
def addEntry (table : Option (List String)) (dotted : Bool) (key : Key) (item : Item)
    (origin : Origin) (entries : Entries) : Except Conflict Entries :=
  if (origin == .dotted) != dotted then .error (.duplicate key.name none)
  else entries.alter key fun found =>
    match found with
    | none => .ok item
    | some _ => .error (.duplicate key.name table)

/-- The entries of a table in braces, from its pairs of dotted name and item. -/
def inlineEntries : List (List Key × Key × Item) → Entries → Except Conflict Entries
  | [], entries => .ok entries
  | (path, key, item) :: rest, entries => do
    let entries ← descendInline (addEntry none (!path.isEmpty) key item) [] path .inline entries
    inlineEntries rest entries

/-- A document that is being built: the finished tables and the one under the latest header. -/
structure Draft where
  root : Entries
  /-- The name of the latest header; empty before the first. -/
  path : List Key
  /-- Whether the latest header is that of an element of an array of tables. -/
  isElement : Bool
  /-- The entries under the latest header. -/
  entries : Entries
  /-- The part of the text from the header to the end of its latest item. -/
  span : Option Span
  /-- The part of the text of the document's own items. -/
  rootSpan : Option Span

/-- The start of a document. -/
def Draft.empty : Draft := ⟨[], [], false, [], some ⟨0, 0⟩, some ⟨0, 0⟩⟩

/-- The span of an array of tables. -/
def spanOfTables (elements : List Item) : Option Span :=
  match elements.head?.bind Item.span?, elements.getLast?.bind Item.span? with
  | some first, some last => some ⟨first.first, last.last⟩
  | _, _ => none

/-- The document with the latest table put in its place. -/
def Draft.finish (d : Draft) : Except Conflict Draft :=
  match d.path.getLast? with
  | none => .ok { d with root := d.entries, rootSpan := d.span, entries := [], span := none }
  | some key =>
    let outer := d.path.dropLast
    let taken : Conflict := .duplicate key.name (some (names outer))
    let placed (found : Option Item) : Except Conflict Item :=
      if d.isElement then
        match found with
        | none =>
          let elements := [Item.table .header d.entries d.span]
          .ok (.tables elements (spanOfTables elements))
        | some (.tables earlier _) =>
          let elements := earlier ++ [Item.table .header d.entries d.span]
          .ok (.tables elements (spanOfTables elements))
        | some _ => .error taken
      else
        match found with
        | none => .ok (.table .header d.entries d.span)
        | some _ => .error taken
    do
      let root ← descend false (fun _ entries => entries.alter key placed) [] outer .header d.root
      pure { d with root := root, path := [], isElement := false, entries := [], span := none }

/-- Adds an item under a dotted name to the latest table. -/
def Draft.add (d : Draft) (path : List Key) (key : Key) (item : Item) : Except Conflict Draft := do
  let span := match d.span, item.span? with
    | some table, some value => some ⟨table.first, value.last⟩
    | span, _ => span
  let change := addEntry (some (names d.path)) (!path.isEmpty) key item
  let entries ← descend true change [] path .header d.entries
  pure { d with entries := entries, span := span }

/-- Starts the table of a header. A table that longer headers implied is taken up again. -/
def Draft.startTable (d : Draft) (path : List Key) (key : Key) (span : Span) :
    Except Conflict Draft := do
  let d ← d.finish
  let taken : Conflict := .duplicate key.name (some (names path))
  -- The path leads to one table; what it holds under the key is looked at and then taken out.
  let held (entries : Entries) : Except Conflict Entries :=
    match entries.get? key.name with
    | none => .ok []
    | some (.table .implied inner _) => .ok inner
    | some _ => .error taken
  let kept ← lookAt path d.root held
  let root ← descend false (fun _ entries => .ok (entries.erase key.name)) [] path .header d.root
  pure { d with root := root, path := path ++ [key], isElement := false, entries := kept,
                span := some span }
where
  /-- What is found in the table that a path leads to. -/
  lookAt (path : List Key) (root : Entries) (look : Entries → Except Conflict Entries) :
      Except Conflict Entries :=
    match path with
    | [] => look root
    | step :: rest =>
      match root.get? step.name with
      | some (.table .inline _ _) => .ok []
      | some (.table _ entries _) => lookAt rest entries look
      | some (.tables elements _) =>
        match elements.getLast? with
        | some (.table _ entries _) => lookAt rest entries look
        | _ => .ok []
      | _ => .ok []

/-- Starts an element of the array of tables of a header. -/
def Draft.startElement (d : Draft) (path : List Key) (key : Key) (span : Span) :
    Except Conflict Draft := do
  let d ← d.finish
  let reserve (found : Option Item) : Except Conflict Item :=
    match found with
    | none => .ok (.tables [] none)
    | some (.tables elements known) => .ok (.tables elements known)
    | some _ => .error (.duplicate key.name (some (names path)))
  let root ← descend false (fun _ entries => entries.alter key reserve) [] path .header d.root
  pure { d with root := root, path := path ++ [key], isElement := true, entries := [],
                span := some span }

/-- The finished document as a table. -/
def Draft.document (d : Draft) : Except Conflict Item := do
  let d ← d.finish
  pure (.table .header d.root d.rootSpan)

end LiveTopology.Toml
