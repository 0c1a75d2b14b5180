import LiveTopology.Node.Record

/-!
# Lifecycle messages

A message of the bus is a topic and a payload. The payload is an event if it is a JSON object with
the strings `id` and `cmd`; the first thing that is wrong with it decides the error. A topic inside
the payload is part of the record but never of the event's own topic.
-/

namespace LiveTopology.Node

open LiveTopology Json

/-- A lifecycle message that has been understood. -/
structure Event where
  id : String
  command : Command
  /-- The topic on which the message arrived. -/
  topic : String
  /-- The field `topic` of the payload, if it is a string. -/
  payloadTopic : Option String
  /-- All other fields of the payload, ascending by name. -/
  fields : List (String × Value)

/-- Why a message was not understood. -/
inductive EventError where
  | notJson (error : ReadError)
  | notObject
  | missingField (name : String)
  | notString (name : String)

/-- The wording of an event error. -/
def EventError.message : EventError → String
  | .notJson error => "payload is not valid JSON: " ++ error.message
  | .notObject => "payload is not a JSON object"
  | .missingField name => "required field '" ++ name ++ "' is missing"
  | .notString name => "field '" ++ name ++ "' is not a string"

/-- The string under a name. -/
def requiredString (name : String) (fields : List (String × Value)) : Except EventError String :=
  match Fields.get? name fields with
  | none => .error (.missingField name)
  | some (.string text) => .ok text
  | some _ => .error (.notString name)

/-- The event that an object's members make up. -/
def Event.ofFields (topic : String) (fields : List (String × Value)) : Except EventError Event := do
  let id ← requiredString "id" fields
  let word ← requiredString "cmd" fields
  let others := Fields.erase "cmd" (Fields.erase "id" fields)
  pure <| match Fields.get? "topic" others with
    | some (.string payloadTopic) =>
      ⟨id, .ofWord word, topic, some payloadTopic, Fields.erase "topic" others⟩
    | _ => ⟨id, .ofWord word, topic, none, others⟩

/-- The event of a payload that arrived on a topic. -/
def normalize (topic : String) (payload : List UInt8) : Except EventError Event :=
  match Json.parse payload with
  | .error error => .error (.notJson error)
  | .ok (.object fields) => Event.ofFields topic fields
  | .ok _ => .error .notObject

/-- The topic of the record: the payload's own, in its JSON text if it is no string, else the one
of arrival. -/
def Event.recordTopic (e : Event) : String :=
  match e.payloadTopic, Fields.get? "topic" e.fields with
  | some topic, _ => topic
  | none, none => e.topic
  | none, some .null => e.topic
  | none, some other => other.text

/-- The record of the node that an event announces. -/
def Event.record (e : Event) : Record :=
  ⟨e.id, e.command, e.recordTopic, Fields.erase "topic" e.fields⟩

/-- The kind of an event's command. -/
def Event.kind (e : Event) : Kind := e.command.kind

end LiveTopology.Node
