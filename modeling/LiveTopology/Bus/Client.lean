import LiveTopology.Bus.Request
import LiveTopology.Bus.TopicSet

/-!
# The bus client

Requests go into a queue of bounded size, from which the connection to the broker takes them in
order. The client tracks the topics to which it is subscribed: a topic is tracked once its
subscription is queued and no longer tracked once its end is queued. After a reconnect the broker
remembers nothing, so `resubscribe` queues all tracked topics again, in batches that take few
places of the queue. A closed client takes no more requests.
-/

namespace LiveTopology.Bus

/-- A topic filter with the quality of service that is asked for. -/
structure Filter where
  topic : String
  qos : Nat
  deriving DecidableEq, Repr

/-- A request in the client's queue. -/
inductive Packet where
  | publish (topic message : String) (qos : Nat) (retain : Bool)
  | subscribe (filters : List Filter)
  | unsubscribe (topics : List String)
  | disconnect
  deriving DecidableEq, Repr

/-- The state of a client. -/
structure Client where
  /-- How many requests the queue holds. -/
  capacity : Nat
  /-- The requests that wait to be sent, oldest first. -/
  queue : List Packet
  /-- The topics to which the client is subscribed. -/
  tracked : TopicSet
  /-- Whether the client has been closed. -/
  closed : Bool
  /-- Whether nothing takes requests off the queue any more. -/
  severed : Bool

namespace Client

/-- A client that is to be subscribed to some topics once it is connected. -/
def connect (capacity : Nat) (initial : List String) : Client :=
  ⟨capacity, [], .ofList initial, false, false⟩

/-- How many more requests the queue can take. -/
def room (c : Client) : Nat := if c.severed then 0 else c.capacity - c.queue.length

/-- The client with a request appended to its queue, if it can take one. -/
def enqueue? (c : Client) (packet : Packet) : Option Client :=
  if c.room = 0 then none else some { c with queue := c.queue ++ [packet] }

/-- The error of a request that the queue did not take. -/
def rejection (topic : String) : Error :=
  ⟨.rejected, topic, "Failed to send mqtt requests to eventloop"⟩

/-- Messages are only published to one topic, not to a pattern of topics. -/
def isPattern (topic : String) : Bool := topic.contains '+' || topic.contains '#'

/-- Subscribes to a topic. -/
def subscribe (c : Client) (topic : String) : Outcome × Client :=
  if c.closed then (.error (closedError topic), c)
  else match c.enqueue? (.subscribe [⟨topic, 0⟩]) with
    | none => (.error (rejection topic), c)
    | some c => (.ok (), { c with tracked := c.tracked.insert topic })

/-- Ends the subscription to a topic. -/
def unsubscribe (c : Client) (topic : String) : Outcome × Client :=
  if c.closed then (.error (closedError topic), c)
  else match c.enqueue? (.unsubscribe [topic]) with
    | none => (.error (rejection topic), c)
    | some c => (.ok (), { c with tracked := c.tracked.erase topic })

/-- Ends the subscriptions to the listed topics, of which none is tracked at the start. A topic
that does not fit into the queue is tracked again; the first one is the one reported. -/
def unsubscribeEach : List String → Client → Outcome × Client
  | [], c => (.ok (), c)
  | topic :: rest, c =>
    match c.enqueue? (.unsubscribe [topic]) with
    | some c => unsubscribeEach rest c
    | none =>
      let (_, c) := unsubscribeEach rest { c with tracked := c.tracked.insert topic }
      (.error (rejection topic), c)

/-- Ends all subscriptions. -/
def unsubscribeAll (c : Client) : Outcome × Client :=
  if c.closed then (.error (closedError "*"), c)
  else unsubscribeEach c.tracked.toList { c with tracked := .empty }

/-- Publishes a message. -/
def publish (c : Client) (topic message : String) : Outcome × Client :=
  if c.closed then (.error (closedError topic), c)
  else if isPattern topic then (.error (rejection topic), c)
  else match c.enqueue? (.publish topic message 0 false) with
    | none => (.error (rejection topic), c)
    | some c => (.ok (), c)

/-- Handles a request. -/
def send : Request → Client → Outcome × Client
  | .subscribe topic, c => c.subscribe topic
  | .unsubscribe topic, c => c.unsubscribe topic
  | .unsubscribeAll, c => c.unsubscribeAll
  | .publish topic message, c => c.publish topic message

instance : Bus Client := ⟨send⟩

/-- How many topics are subscribed again in one request. -/
def batchSize : Nat := 32

/-- A list cut into batches, all but the last of them full. -/
def batches (topics : List String) : List (List String) :=
  (List.range ((topics.length + batchSize - 1) / batchSize)).map fun i =>
    (topics.drop (batchSize * i)).take batchSize

/-- Queues each batch that fits, and counts them. -/
def enqueueBatches : List (List String) → Client → Nat × Client
  | [], c => (0, c)
  | batch :: rest, c =>
    match c.enqueue? (.subscribe (batch.map fun topic => ⟨topic, 0⟩)) with
    | none => enqueueBatches rest c
    | some c =>
      let (sent, c) := enqueueBatches rest c
      (sent + 1, c)

/-- Subscribes again to all tracked topics, and counts the requests that were queued. -/
def resubscribe (c : Client) : Nat × Client := enqueueBatches (batches c.tracked.toList) c

/-- Closes the client. The first time, a disconnect is queued if it fits. -/
def close (c : Client) : Client :=
  if c.closed then c
  else
    let c := { c with closed := true }
    (c.enqueue? .disconnect).getD c

/-- Takes all requests off the queue. -/
def drain (c : Client) : List Packet × Client := (c.queue, { c with queue := [] })

/-- Takes all requests off the queue for the last time. -/
def sever (c : Client) : List Packet × Client :=
  (c.queue, { c with queue := [], severed := true })

end Client

end LiveTopology.Bus
