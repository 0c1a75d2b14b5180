import LiveTopology.Expander
import LiveTopology.Registry

/-!
# Ingesting lifecycle messages

Each message is normalized, applied to the registry, and then the change of subscriptions that it
calls for is sent to the bus. The change is planned from the event alone and sent whatever the
registry made of the message; the registry never depends on the bus.
-/

namespace LiveTopology

open Bus Node

/-- What became of a message. -/
inductive IngestOutcome where
  | inserted
  | removed
  /-- A start of a node that is already live. -/
  | duplicateIgnored
  /-- A stop of a node that is not live. -/
  | absentRemoveIgnored
  | unknownCommandIgnored
  /-- A message that is no event. -/
  | dropped (cause : EventError)

/-- Whether the message changed the registry. -/
def IngestOutcome.isApplied : IngestOutcome → Bool
  | .inserted => true
  | .removed => true
  | _ => false

/-- Applies an event to the registry. -/
def Registry.apply (r : Registry) (e : Event) : IngestOutcome × Registry :=
  match e.kind with
  | .start =>
    let (inserted, r) := r.insert e.record
    (if inserted then .inserted else .duplicateIgnored, r)
  | .stop =>
    let (removed, r) := r.remove e.id
    (if removed then .removed else .absentRemoveIgnored, r)
  | .unknown => (.unknownCommandIgnored, r)

/-- The registry with the bus to which its changes of subscriptions go. -/
structure Ingest (β : Type) where
  policy : Policy
  registry : Registry
  bus : β

variable {β : Type} [Bus β]

/-- Handles one message. -/
def Ingest.handle (s : Ingest β) (topic : String) (payload : List UInt8) :
    IngestOutcome × Ingest β :=
  match normalize topic payload with
  | .error cause => (.dropped cause, s)
  | .ok event =>
    let (outcome, registry) := s.registry.apply event
    let bus := match s.policy.plan event with
      | none => s.bus
      | some expansion => dispatch expansion s.bus
    (outcome, { s with registry := registry, bus := bus })

/-- All nodes as they are served. -/
def Ingest.fetchAll (s : Ingest β) : List Entry := s.registry.snapshot

/-- Forgets all nodes. -/
def Ingest.resetAll (s : Ingest β) : Ingest β := { s with registry := s.registry.clear }

end LiveTopology
