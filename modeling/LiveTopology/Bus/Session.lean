import LiveTopology.Bus.Client

/-!
# Client and broker

The broker keeps a set of subscriptions for the session of a connected client and forgets it when
the connection breaks. Requests change the set in the order in which they were queued. When a new
session starts, the client subscribes again before anything that was still queued is delivered.
-/

namespace LiveTopology.Bus

/-- What a request does to a set of subscriptions. -/
def Packet.apply : Packet → TopicSet → TopicSet
  | .subscribe filters, s => filters.foldl (fun s filter => s.insert filter.topic) s
  | .unsubscribe topics, s => topics.foldl (fun s topic => s.erase topic) s
  | .publish _ _ _ _, s => s
  | .disconnect, s => s

/-- What requests do to a set of subscriptions, one after the other. -/
def replay (packets : List Packet) (s : TopicSet) : TopicSet :=
  packets.foldl (fun s packet => packet.apply s) s

/-- A session at the broker. -/
structure Session where
  /-- The subscriptions of the session. -/
  topics : TopicSet
  /-- Whether all batches of the renewed subscriptions fitted into the client's queue. -/
  renewed : Bool
  deriving DecidableEq

/-- A client with its session at the broker, if it is connected. -/
structure Link where
  client : Client
  session : Option Session

/-- What can happen to a client and its broker. -/
inductive LinkStep where
  /-- A request is made. -/
  | request (request : Request)
  /-- The oldest request in the queue reaches the broker. -/
  | deliver
  /-- The connection breaks, and some of the oldest requests in the queue are lost. -/
  | interrupt (lost : Nat)
  /-- A session starts. -/
  | establish
  deriving DecidableEq, Repr

/-- The link after a step. -/
def Link.after (link : Link) : LinkStep → Link
  | .request request => { link with client := (send request link.client).2 }
  | .deliver =>
    match link.session, link.client.queue with
    | some session, packet :: rest =>
      { client := { link.client with queue := rest }
        session := some { session with topics := packet.apply session.topics } }
    | _, _ => link
  | .interrupt lost =>
    { client := { link.client with queue := link.client.queue.drop lost }, session := none }
  | .establish =>
    let (sent, client) := link.client.resubscribe
    ⟨client, some ⟨.empty, sent = (Client.batches link.client.tracked.toList).length⟩⟩

/-- The link after steps. -/
def Link.run (link : Link) (steps : List LinkStep) : Link := steps.foldl Link.after link

end LiveTopology.Bus
