import LiveTopology.Ingest
import LiveTopology.Proofs.Steps

/-!
# The requests that messages call for

Whatever the bus, a message makes at most one request of it. Which one is decided by the policy and
by the event that the message holds, on the topic on which the message arrived.
-/

namespace LiveTopology

open Bus Node

/-- An event keeps the topic on which its message arrived, whatever topic is in the payload. -/
theorem ofFields_topic {topic : String} {fields : List (String × Json.Value)} {event : Event}
    (h : Event.ofFields topic fields = .ok event) : event.topic = topic := by
  obtain ⟨id, -, h⟩ := exists_of_bind_eq_ok h
  obtain ⟨word, -, h⟩ := exists_of_bind_eq_ok h
  injection h with h
  subst h
  split <;> rfl

/-- An event has the topic on which its message arrived. -/
theorem normalize_topic {topic : String} {payload : List UInt8} {event : Event}
    (h : normalize topic payload = .ok event) : event.topic = topic := by
  rw [Node.normalize] at h
  split at h
  · cases h
  · exact ofFields_topic h
  · cases h

/-- The request that a message calls for. -/
def Policy.request? (policy : Policy) (topic : String) (payload : List UInt8) : Option Request :=
  match normalize topic payload with
  | .error _ => none
  | .ok event => (policy.plan event).map Expansion.request

/-- Whether a message announces the runtime whose own topic is `child`. -/
def Announces (child topic : String) (payload : List UInt8) : Prop :=
  ∃ event, normalize topic payload = .ok event ∧ event.command = .start .runtime ∧
    childTopic topic event.id = child

/-- Whether a message is about the stop of the runtime whose own topic is `child`. -/
def Retires (child topic : String) (payload : List UInt8) : Prop :=
  ∃ event, normalize topic payload = .ok event ∧ event.command = .stop .runtime ∧
    childTopic topic event.id = child

/-- What a message asks of the bus: the subscription of a runtime that it announces, or the end of
that of a runtime that stops, if the policy follows stops. -/
theorem request?_eq_some {policy : Policy} {topic : String} {payload : List UInt8}
    {request : Request} (h : policy.request? topic payload = some request) :
    (∃ child, request = .subscribe child ∧ Announces child topic payload) ∨
      ∃ child, request = .unsubscribe child ∧ policy.unsubscribeOnStop = true ∧
        Retires child topic payload := by
  rw [Policy.request?] at h
  cases hn : normalize topic payload with
  | error cause => rw [hn] at h; cases h
  | ok event =>
    rw [hn] at h
    dsimp only at h
    rw [Policy.plan, normalize_topic hn] at h
    split at h
    · rename_i hc
      cases h
      exact .inl ⟨_, rfl, event, hn, hc, rfl⟩
    · rename_i hc
      split at h
      · rename_i hp
        cases h
        exact .inr ⟨_, rfl, hp, event, hn, hc, rfl⟩
      · cases h
    · cases h

/-- A subscription is asked for exactly by the announcement of the runtime whose own topic it is. -/
theorem request?_eq_subscribe_iff {policy : Policy} {child topic : String}
    {payload : List UInt8} :
    policy.request? topic payload = some (.subscribe child) ↔ Announces child topic payload := by
  constructor
  · intro h
    rcases request?_eq_some h with ⟨other, hr, ha⟩ | ⟨other, hr, -⟩
    · cases hr
      exact ha
    · cases hr
  · rintro ⟨event, hn, hc, rfl⟩
    rw [Policy.request?, hn]
    dsimp only
    rw [Policy.plan, hc, normalize_topic hn]
    rfl

/-- A message ends a subscription only if it holds the stop of a runtime whose own topic that is,
and only under a policy that asks for it. -/
theorem request?_eq_unsubscribe_iff {policy : Policy} {child topic : String}
    {payload : List UInt8} :
    policy.request? topic payload = some (.unsubscribe child) ↔
      policy.unsubscribeOnStop = true ∧ Retires child topic payload := by
  constructor
  · intro h
    rcases request?_eq_some h with ⟨other, hr, -⟩ | ⟨other, hr, hs⟩
    · cases hr
    · cases hr
      exact hs
  · rintro ⟨hp, event, hn, hc, rfl⟩
    rw [Policy.request?, hn]
    dsimp only
    rw [Policy.plan, hc, normalize_topic hn]
    dsimp only
    rw [if_pos hp]
    rfl

/-- A message never ends all subscriptions. -/
theorem request?_ne_unsubscribeAll (policy : Policy) (topic : String) (payload : List UInt8) :
    policy.request? topic payload ≠ some .unsubscribeAll := by
  intro h
  rcases request?_eq_some h with ⟨child, hr, -⟩ | ⟨child, hr, -⟩ <;> cases hr

variable {β : Type} [Bus β]

/-- Handling a message leaves the policy alone. -/
theorem handle_policy (s : Ingest β) (topic : String) (payload : List UInt8) :
    (s.handle topic payload).2.policy = s.policy := by
  rw [Ingest.handle]
  split <;> rfl

/-- Handling a message sends its request, and leaves the bus alone if there is none. -/
theorem handle_bus (s : Ingest β) (topic : String) (payload : List UInt8) :
    (s.handle topic payload).2.bus =
      (s.policy.request? topic payload).elim s.bus fun request => (send request s.bus).2 := by
  rw [Ingest.handle, Policy.request?]
  cases hn : normalize topic payload with
  | error cause => rfl
  | ok event =>
    dsimp only
    cases hp : s.policy.plan event <;> rfl

end LiveTopology
