import LiveTopology.Bus.Request
import LiveTopology.Node.Event

/-!
# Following runtimes

A runtime publishes about its nodes on a topic of its own below the one on which it announced
itself. So the announcement of a runtime calls for a subscription and, if the policy says so, its
stop for the end of that subscription. The plan depends on the event and the policy alone.
-/

namespace LiveTopology

open Bus Node

/-- What to do when a runtime stops. -/
structure Policy where
  /-- Whether the runtime's own topic is then unsubscribed. -/
  unsubscribeOnStop : Bool
  deriving DecidableEq, Repr

/-- A change of subscriptions that an event calls for. -/
inductive Expansion where
  | subscribe (topic : String)
  | unsubscribe (topic : String)
  deriving DecidableEq, Repr

/-- The topic of a runtime that announced itself on `topic`. -/
def childTopic (topic id : String) : String := topic ++ "/" ++ id

/-- The change that an event calls for. -/
def Policy.plan (p : Policy) (e : Event) : Option Expansion :=
  match e.command with
  | .start .runtime => some (.subscribe (childTopic e.topic e.id))
  | .stop .runtime =>
    if p.unsubscribeOnStop then some (.unsubscribe (childTopic e.topic e.id)) else none
  | _ => none

/-- The request that makes a change. -/
def Expansion.request : Expansion → Request
  | .subscribe topic => .subscribe topic
  | .unsubscribe topic => .unsubscribe topic

/-- Sends the request of a change. Whether it is taken makes no difference. -/
def dispatch {β : Type} [Bus β] (expansion : Expansion) (bus : β) : β :=
  (send expansion.request bus).2

end LiveTopology
