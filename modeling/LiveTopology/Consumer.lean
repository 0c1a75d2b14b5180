import LiveTopology.Bus.Client
import LiveTopology.Ingest

/-!
# The consumer of the bus

One consumer takes what the connection to the broker yields. Every message goes to the handler, in
order, and each new session renews the subscriptions. Faults of the connection end nothing: it is
tried again. When the consumer is told to stop it closes the client and waits until the disconnect
has left or the connection is gone; what arrives meanwhile is dropped.
-/

namespace LiveTopology

open Bus

/-- What the connection to the broker yields. -/
inductive LinkEvent where
  /-- A session has started. -/
  | connected
  | message (topic : String) (payload : List UInt8)
  /-- A disconnect has left. -/
  | disconnectSent
  /-- Anything else. -/
  | other
  /-- The connection failed. -/
  | failed
  deriving DecidableEq, Repr

/-- What the consumer reacts to. -/
inductive Signal where
  | event (event : LinkEvent)
  /-- The order to stop is seen. -/
  | stop
  /-- Waiting for the disconnect took too long. -/
  | timeout
  deriving DecidableEq, Repr

/-- What works for the consumer, in a state of type `σ`. -/
class Handler (σ : Type) where
  /-- Handles a message. -/
  onMessage : String → List UInt8 → σ → σ
  /-- Renews the subscriptions. -/
  resubscribe : σ → σ
  /-- Closes the client. -/
  close : σ → σ

/-- The registry with its client handles messages by taking them in. -/
instance : Handler (Ingest Client) where
  onMessage topic payload s := (s.handle topic payload).2
  resubscribe s := { s with bus := s.bus.resubscribe.2 }
  close s := { s with bus := s.bus.close }

/-- How far the consumer is. -/
inductive Phase where
  | running
  | draining
  | finished
  deriving DecidableEq, Repr

/-- The consumer with its handler. -/
structure Consumer (σ : Type) where
  phase : Phase
  handler : σ

variable {σ : Type} [Handler σ]

/-- The consumer after a signal. -/
def Consumer.after (c : Consumer σ) : Signal → Consumer σ
  | .event event =>
    match c.phase, event with
    | .running, .connected => { c with handler := Handler.resubscribe c.handler }
    | .running, .message topic payload =>
      { c with handler := Handler.onMessage topic payload c.handler }
    | .running, _ => c
    | .draining, .disconnectSent => { c with phase := .finished }
    | .draining, .failed => { c with phase := .finished }
    | .draining, _ => c
    | .finished, _ => c
  | .stop =>
    match c.phase with
    | .running => ⟨.draining, Handler.close c.handler⟩
    | _ => c
  | .timeout =>
    match c.phase with
    | .draining => { c with phase := .finished }
    | _ => c

/-- The consumer after signals. -/
def Consumer.run (c : Consumer σ) (signals : List Signal) : Consumer σ :=
  signals.foldl Consumer.after c

/-- A consumer that begins. -/
def Consumer.start (handler : σ) : Consumer σ := ⟨.running, handler⟩

/-! ## The calls that a consumer makes -/

/-- A call to the handler. -/
inductive Call where
  | onMessage (topic : String) (payload : List UInt8)
  | resubscribe
  | close
  deriving DecidableEq, Repr

/-- A handler that records its calls. -/
instance : Handler (List Call) where
  onMessage topic payload calls := calls ++ [.onMessage topic payload]
  resubscribe calls := calls ++ [.resubscribe]
  close calls := calls ++ [.close]

/-- Makes a call. -/
def Call.make : Call → σ → σ
  | .onMessage topic payload => Handler.onMessage topic payload
  | .resubscribe => Handler.resubscribe
  | .close => Handler.close

end LiveTopology
