import LiveTopology.Json.Typed
import LiveTopology.Node.Command

/-!
# Node records

What is known of a live node: its id, the command that started it, the topic it belongs to and all
other fields of the message that announced it. A record is written as one flat object, its own
fields first; a snapshot wraps each record in an object with the single field `data`.
-/

namespace LiveTopology.Node

open LiveTopology Json

/-- A live node. -/
structure Record where
  id : String
  command : Command
  topic : String
  /-- The other fields of the announcement, ascending by name. -/
  extra : List (String × Value)

/-- A record in a snapshot. -/
structure Entry where
  data : Record

/-- The JSON text of a record. -/
def Record.text (r : Record) : String :=
  "\x7b\"id\":" ++ quote r.id ++ ",\"cmd\":" ++ quote r.command.word ++ ",\"topic\":" ++
    quote r.topic ++ furtherMembersText r.extra ++ "\x7d"

/-- The JSON text of a record in a snapshot. -/
def Entry.text (e : Entry) : String := "\x7b\"data\":" ++ e.data.text ++ "\x7d"

/-- The entries of a snapshot after the first, each after a comma. -/
def furtherEntriesText : List Entry → String
  | [] => ""
  | entry :: rest => "," ++ (entry.text ++ furtherEntriesText rest)

/-- The JSON text of a snapshot. -/
def snapshotText : List Entry → String
  | [] => "[]"
  | entry :: rest => "[" ++ (entry.text ++ furtherEntriesText rest) ++ "]"

/-! ## Reading -/

/-- The fields of a record that have been read. -/
structure Draft where
  id : Option String
  command : Option String
  topic : Option String
  extra : List (String × Value)

/-- A field that a record has once. -/
def once (name : String) (known : Option String) (input : List UInt8) :
    Except Fault (String × List UInt8) :=
  if known.isSome then .error (.pending (.duplicateField name) input)
  else do
    let rest ← readColon input
    plainString rest

/-- Takes a field of a record into the draft. -/
def draftMember (depth : Nat) (key : String) (draft : Draft) : Reader Draft := fun input =>
  if key = "id" then do
    let (id, rest) ← once key draft.id input
    pure ({ draft with id := some id }, rest)
  else if key = "cmd" then do
    let (word, rest) ← once key draft.command input
    pure ({ draft with command := some word }, rest)
  else if key = "topic" then do
    let (topic, rest) ← once key draft.topic input
    pure ({ draft with topic := some topic }, rest)
  else do
    let (extra, rest) ← valueMember (value depth) key draft.extra input
    pure ({ draft with extra := extra }, rest)

/-- The record of a draft, if no field is missing. -/
def Draft.record (draft : Draft) : Except Cause Record :=
  match draft.id, draft.command, draft.topic with
  | none, _, _ => .error (.missingField "id")
  | _, none, _ => .error (.missingField "cmd")
  | _, _, none => .error (.missingField "topic")
  | some id, some word, some topic => .ok ⟨id, .ofWord word, topic, draft.extra⟩

/-- A record. -/
def record (depth : Nat) : Reader Record :=
  typedObject "struct NodeRecord" depth fun depth =>
    members (draftMember depth) ⟨none, none, none, []⟩ Draft.record

/-- Takes a member of an entry; only `data` counts. -/
def entryMember (depth : Nat) (key : String) (known : Option Record) : Reader (Option Record) :=
  fun input =>
  if key = "data" then
    if known.isSome then .error (.pending (.duplicateField key) input)
    else do
      let rest ← readColon input
      let (data, rest) ← record depth rest
      pure (some data, rest)
  else do
    let rest ← readColon input
    let rest ← skipValue rest
    pure (known, rest)

/-- An entry written as an array with the record as its only item. -/
def entryItem (depth : Nat) : Reader Entry := fun input =>
  match skipSpace input with
  | [] => .error (.next .endInList [])
  | b :: rest =>
    if b = Byte.closeBracket then
      .error (.here (.wrongLength 0 "struct NodeEntry with 1 element") rest)
    else do
      let (data, rest) ← record depth (b :: rest)
      let rest ← endArray rest
      pure (⟨data⟩, rest)

/-- An entry of a snapshot. -/
def entry (depth : Nat) : Reader Entry := fun input =>
  match skipSpace input with
  | [] => .error (.next .endInValue [])
  | b :: rest =>
    if b = Byte.openBracket then
      match depth with
      | 0 => .error (.next .tooDeep (b :: rest))
      | depth + 1 => entryItem depth rest
    else
      typedObject "struct NodeEntry" depth (fun depth =>
        members (entryMember depth) none fun data =>
          match data with
          | none => .error (.missingField "data")
          | some data => .ok ⟨data⟩) (b :: rest)

/-- The record that a text denotes. -/
def Record.parse (text : List UInt8) : Except ReadError Record :=
  document (record depthLimit) text

/-- The entry that a text denotes. -/
def Entry.parse (text : List UInt8) : Except ReadError Entry := document (entry depthLimit) text

/-- The snapshot that a text denotes. -/
def parseSnapshot (text : List UInt8) : Except ReadError (List Entry) :=
  document (typedArray depthLimit entry) text

/-- The command that a text denotes: a string with its word. -/
def Command.parse (text : List UInt8) : Except ReadError Command :=
  (document plainString text).map Command.ofWord

end LiveTopology.Node
