import LiveTopology.Consumer
import LiveTopology.Proofs.Bus.Ledger
import LiveTopology.Proofs.Ingest.Requests
import LiveTopology.Proofs.Registry.History

/-!
# Messages and their client

While viewers make no requests, messages alone make requests of the client. Besides that, sessions
start and renew the subscriptions, requests leave the queue, and the client may be closed or lose
its connection. A run of such steps has a ledger of all requests that the queue took, each with the
step that made it.
-/

namespace LiveTopology

open Bus

namespace Bus.Client

/-- A client has changed, but what is tracked has not, and nothing was queued that ends a
subscription. -/
structure Spares (before after : Client) : Prop where
  tracked : after.tracked = before.tracked
  ended : ∀ packet ∈ added before after, packet.ended = []

/-- Requests that only leave the queue spare all subscriptions. -/
theorem Spares.of_suffix {before after : Client} (hq : after.queue <:+ before.queue)
    (ht : after.tracked = before.tracked) : Spares before after where
  tracked := ht
  ended packet hp := by
    rw [added_of_suffix hq] at hp
    cases hp

/-- A renewal spares all subscriptions. -/
theorem spares_resubscribe (c : Client) : Spares c c.resubscribe.2 where
  tracked := by rw [resubscribe_eq]
  ended packet hp := by
    rw [added_of_appends (resubscribe_appends c)] at hp
    obtain ⟨batch, -, rfl⟩ := List.mem_map.mp hp
    rfl

/-- A closing spares all subscriptions: at most a disconnect is queued. -/
theorem spares_close (c : Client) : Spares c c.close := by
  rw [close_eq]
  split_ifs
  · exact .of_suffix List.suffix_rfl rfl
  · exact .of_suffix List.suffix_rfl rfl
  · refine ⟨rfl, fun packet hp => ?_⟩
    rw [added, List.drop_left] at hp
    rw [List.mem_singleton.mp hp]
    rfl

end Bus.Client

/-- What can happen to a registry and its client while viewers make no requests. -/
inductive FeedStep where
  | message (topic : String) (payload : List UInt8)
  /-- A session starts, and the subscriptions are renewed. -/
  | connected
  | close
  /-- Requests leave the queue for the broker, the oldest first. -/
  | sent (count : ℕ)
  /-- The connection is given up for good; what was queued is lost with it. -/
  | sever
  /-- From here on the queue holds another number of requests. With it any request can be refused
  or taken, whatever the queue holds. -/
  | limit (capacity : ℕ)
  deriving DecidableEq, Repr

/-- The request that a step makes. -/
def FeedStep.request? (policy : Policy) : FeedStep → Option Request
  | .message topic payload => policy.request? topic payload
  | .connected | .close | .sent _ | .sever | .limit _ => none

/-- The request of a step is a single one. -/
theorem FeedStep.exists_packet {policy : Policy} {step : FeedStep} {request : Request}
    (h : step.request? policy = some request) : ∃ packet, request.packet? = some packet := by
  cases step with
  | message topic payload =>
    refine Request.exists_packet fun he => ?_
    subst he
    exact request?_ne_unsubscribeAll policy topic payload h
  | connected | close | sent | sever | limit => cases h

/-- What the message in a step tells the registry. -/
def FeedStep.notice? : FeedStep → Option Notice
  | .message topic payload => Notice.ofMessage topic payload
  | .connected | .close | .sent _ | .sever | .limit _ => none

namespace Ingest

/-- The registry and its client after a step. -/
def fed (s : Ingest Client) : FeedStep → Ingest Client
  | .message topic payload => (s.handle topic payload).2
  | .connected => Handler.resubscribe s
  | .close => Handler.close s
  | .sent count => { s with bus := { s.bus with queue := s.bus.queue.drop count } }
  | .sever => { s with bus := s.bus.sever.2 }
  | .limit capacity => { s with bus := { s.bus with capacity := capacity } }

/-- The registry and its client after steps. -/
def feed (s : Ingest Client) (steps : List FeedStep) : Ingest Client := steps.foldl fed s

/-- Every request that the queue takes in the course of steps, in order, with the step that made
it. -/
def ledger (s : Ingest Client) : List FeedStep → List (FeedStep × Packet)
  | [] => []
  | step :: rest => (Client.added s.bus (s.fed step).bus).map (step, ·) ++ (s.fed step).ledger rest

theorem feed_cons (s : Ingest Client) (step : FeedStep) (rest : List FeedStep) :
    s.feed (step :: rest) = (s.fed step).feed rest := rfl

theorem feed_append (s : Ingest Client) (older newer : List FeedStep) :
    s.feed (older ++ newer) = (s.feed older).feed newer := List.foldl_append

/-- No step changes the policy. -/
theorem policy_fed (s : Ingest Client) (step : FeedStep) : (s.fed step).policy = s.policy := by
  cases step with
  | message topic payload => exact handle_policy s topic payload
  | connected | close | sent | sever | limit => rfl

/-- The registry follows the messages, whatever happens to its client. -/
theorem registry_fed (s : Ingest Client) (step : FeedStep) :
    (s.fed step).registry = step.notice?.elim s.registry s.registry.heed := by
  cases step with
  | message topic payload => exact registry_after s (.message topic payload)
  | connected | close | sent | sever | limit => rfl

/-- What feeds the registry are the notices among the steps, in order. -/
theorem registry_feed (s : Ingest Client) (steps : List FeedStep) :
    (s.feed steps).registry =
      (steps.filterMap FeedStep.notice?).foldl Registry.heed s.registry := by
  induction steps generalizing s with
  | nil => rfl
  | cons step rest ih =>
    rw [feed_cons, ih, registry_fed, List.filterMap_cons]
    cases step.notice? <;> rfl

/-- What is in the ledger was queued by its step, in the state in which this step was taken. -/
theorem exists_of_mem_ledger {s : Ingest Client} {steps : List FeedStep} {step : FeedStep}
    {packet : Packet} (h : (step, packet) ∈ s.ledger steps) :
    ∃ older, older ++ [step] <+: steps ∧
      packet ∈ Client.added (s.feed older).bus ((s.feed older).fed step).bus := by
  induction steps generalizing s with
  | nil => cases h
  | cons first rest ih =>
    rw [ledger, List.mem_append] at h
    rcases h with h | h
    · obtain ⟨other, ho, he⟩ := List.mem_map.mp h
      cases he
      exact ⟨[], ⟨rest, rfl⟩, ho⟩
    · obtain ⟨older, hs, hp⟩ := ih h
      exact ⟨first :: older, List.cons_prefix_cons.mpr ⟨rfl, hs⟩, hp⟩

/-- A step that makes a request sends it. -/
theorem bus_fed_of_request {s : Ingest Client} {step : FeedStep} {request : Request}
    (h : step.request? s.policy = some request) : (s.fed step).bus = (send request s.bus).2 := by
  cases step with
  | message topic payload =>
    have hr : s.policy.request? topic payload = some request := h
    change (s.handle topic payload).2.bus = _
    rw [handle_bus, hr]
    rfl
  | connected | close | sent | sever | limit => cases h

/-- A step that makes no request spares all subscriptions. -/
theorem spares_fed_of_none {s : Ingest Client} {step : FeedStep}
    (h : step.request? s.policy = none) : Client.Spares s.bus (s.fed step).bus := by
  cases step with
  | message topic payload =>
    have hr : s.policy.request? topic payload = none := h
    have hb : (s.handle topic payload).2.bus = s.bus := by
      rw [handle_bus, hr]
      rfl
    change Client.Spares s.bus (s.handle topic payload).2.bus
    rw [hb]
    exact .of_suffix List.suffix_rfl rfl
  | connected => exact Client.spares_resubscribe s.bus
  | close => exact Client.spares_close s.bus
  | sent count => exact .of_suffix (List.drop_suffix count s.bus.queue) rfl
  | sever => exact .of_suffix List.nil_suffix rfl
  | limit capacity => exact .of_suffix List.suffix_rfl rfl

/-- What a message queues is the packet of its request. -/
theorem exists_request_of_added {s : Ingest Client} {topic : String} {payload : List UInt8}
    {packet : Packet} (h : packet ∈ Client.added s.bus (s.fed (.message topic payload)).bus) :
    ∃ request, s.policy.request? topic payload = some request ∧ request.packet? = some packet := by
  cases hr : s.policy.request? topic payload with
  | none =>
    change packet ∈ Client.added s.bus (s.handle topic payload).2.bus at h
    rw [handle_bus, hr, Option.elim_none, Client.added_of_suffix List.suffix_rfl] at h
    cases h
  | some request =>
    have hs : (FeedStep.message topic payload).request? s.policy = some request := hr
    obtain ⟨other, ho⟩ := FeedStep.exists_packet hs
    rw [bus_fed_of_request hs] at h
    exact ⟨request, rfl, Client.mem_added_send ho h ▸ ho⟩

end Ingest

end LiveTopology
