import LiveTopology.Bus.Request

/-!
# A bus that records its requests

The recorder keeps every request in the order of arrival, also those that it then refuses. Which
ones it refuses is set from outside: all, or those about some topics.
-/

namespace LiveTopology.Bus

/-- Which requests are refused, and how. -/
structure Failing where
  kind : ErrorKind
  /-- The topics concerned, or all of them. -/
  topics : Option (List String)
  deriving DecidableEq, Repr

/-- Whether a request about a topic is refused. -/
def Failing.concerns (f : Failing) (topic : String) : Bool :=
  match f.topics with
  | none => true
  | some topics => topics.contains topic

/-- The error with which a request about a topic is refused. -/
def Failing.error (f : Failing) (topic : String) : Error :=
  match f.kind with
  | .closed => closedError topic
  | .rejected => ⟨.rejected, topic, "queue full"⟩

/-- A recording bus. -/
structure Recorder where
  /-- The requests received, in order. -/
  received : List Request
  /-- The refusals in force, if any. -/
  failing : Option Failing
  deriving DecidableEq, Repr

/-- Records a request and answers it. -/
def Recorder.send (request : Request) (r : Recorder) : Outcome × Recorder :=
  let r := { r with received := r.received ++ [request] }
  match r.failing with
  | none => (.ok (), r)
  | some f =>
    if f.concerns request.topic then (.error (f.error request.topic), r) else (.ok (), r)

instance : Bus Recorder := ⟨Recorder.send⟩

end LiveTopology.Bus
