/-!
# Requests to the message bus

A component asks the bus to subscribe, to unsubscribe or to publish, and learns at once whether the
request was taken. `Bus` is all that it sees: each request may be taken or refused and leaves the
bus in some state. An error names the topic that it is about, `*` when that is every topic.
-/

namespace LiveTopology.Bus

/-- A request to the bus. -/
inductive Request where
  | subscribe (topic : String)
  | unsubscribe (topic : String)
  | unsubscribeAll
  | publish (topic message : String)
  deriving DecidableEq, Repr

/-- The topic that a request is about. -/
def Request.topic : Request → String
  | .subscribe topic => topic
  | .unsubscribe topic => topic
  | .unsubscribeAll => "*"
  | .publish topic _ => topic

/-- Why a request was not taken. -/
inductive ErrorKind where
  /-- The client has been closed. -/
  | closed
  /-- The client could not take the request. -/
  | rejected
  deriving DecidableEq, Repr

/-- The word for a kind of error. -/
def ErrorKind.text : ErrorKind → String
  | .closed => "closed"
  | .rejected => "rejected"

/-- A request that was not taken. -/
structure Error where
  kind : ErrorKind
  topic : String
  message : String
  deriving DecidableEq, Repr

/-- The wording of a bus error. -/
def Error.text (e : Error) : String := e.topic ++ ": " ++ e.message

/-- The wording of a bus error with its kind in front. -/
def Error.detailed (e : Error) : String := "[" ++ e.kind.text ++ "] " ++ e.text

/-- What happened to a request. -/
abbrev Outcome := Except Error Unit

/-- The error of a closed client. -/
def closedError (topic : String) : Error := ⟨.closed, topic, "bus client is closed"⟩

end LiveTopology.Bus

namespace LiveTopology

/-- A bus in a state of type `β`. -/
class Bus (β : Type) where
  /-- Hands a request to the bus. -/
  send : Bus.Request → β → Bus.Outcome × β

end LiveTopology
