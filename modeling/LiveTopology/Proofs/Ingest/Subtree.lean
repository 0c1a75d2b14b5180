import LiveTopology.Proofs.Ingest.Feed

/-!
# The subtree below the topic of announcements

A client that is subscribed to one topic only hears what is published there or, once runtimes have
announced themselves, on their topics further below. Whatever the messages hold, they lead neither
out of the subtree of this topic nor to the end of its own subscription: the topic of a runtime is
that of its message, made longer.
-/

namespace LiveTopology

open Bus

/-- A topic below another: it starts with the other and a separator. -/
def Below (root topic : String) : Prop := ∃ rest, topic = root ++ "/" ++ rest

/-- A topic of a subtree: its root or a topic below. -/
def Within (root topic : String) : Prop := topic = root ∨ Below root topic

/-- A topic below a root is another topic. -/
theorem Below.ne {root topic : String} (h : Below root topic) : topic ≠ root := by
  obtain ⟨rest, rfl⟩ := h
  intro he
  have hl := congrArg String.length he
  rw [String.length_append, String.length_append] at hl
  have hs : "/".length = 1 := rfl
  omega

/-- The topic of a runtime that announced itself in a subtree is below its root. -/
theorem below_childTopic {root topic : String} (h : Within root topic) (id : String) :
    Below root (childTopic topic id) := by
  rcases h with rfl | ⟨rest, rfl⟩
  · exact ⟨id, rfl⟩
  · refine ⟨rest ++ "/" ++ id, ?_⟩
    simp only [childTopic, String.append_assoc]

/-- A message that arrives in a subtree asks for nothing but changes below its root. -/
theorem exists_below_of_request? {root topic : String} (h : Within root topic) {policy : Policy}
    {payload : List UInt8} {request : Request}
    (hr : policy.request? topic payload = some request) :
    ∃ child, Below root child ∧ (request = .subscribe child ∨ request = .unsubscribe child) := by
  rcases request?_eq_some hr with ⟨child, hc, event, -, -, rfl⟩ | ⟨child, hc, -, event, -, -, rfl⟩
  · exact ⟨_, below_childTopic h event.id, .inl hc⟩
  · exact ⟨_, below_childTopic h event.id, .inr hc⟩

/-- A step whose message, if it is one, arrives in a subtree. -/
def FeedStep.ArrivesIn (root : String) (step : FeedStep) : Prop :=
  ∀ topic payload, step = .message topic payload → Within root topic

/-- A message that arrives within a subtree asks for nothing but a topic below its root. -/
theorem FeedStep.ArrivesIn.exists_below {root : String} {step : FeedStep}
    (h : step.ArrivesIn root) {policy : Policy} {request : Request}
    (hr : step.request? policy = some request) :
    ∃ child, Below root child ∧ (request = .subscribe child ∨ request = .unsubscribe child) := by
  cases step with
  | message topic payload => exact exists_below_of_request? (h topic payload rfl) hr
  | connected | close | sent | sever | limit => cases hr

/-- What is tracked is the root of a subtree and topics below it. -/
structure Confined (root : String) (tracked : TopicSet) : Prop where
  kept : root ∈ tracked
  within : ∀ topic ∈ tracked, Within root topic

/-- A client that starts with the root alone is confined to its subtree. -/
theorem confined_ofList (root : String) : Confined root (.ofList [root]) where
  kept := TopicSet.mem_ofList.mpr (List.mem_singleton_self root)
  within _ ht := .inl (List.mem_singleton.mp (TopicSet.mem_ofList.mp ht))

/-- A request about a topic below the root leaves the root, and adds no topic but this one. -/
theorem Confined.send {root child : String} {c : Client} (h : Confined root c.tracked)
    (hb : Below root child) {request : Request}
    (hr : request = .subscribe child ∨ request = .unsubscribe child) :
    Confined root (Bus.send request c).2.tracked := by
  have hp : ∃ packet, request.packet? = some packet ∧ (∀ topic ∈ packet.subscribed, topic = child) ∧
      ∀ topic ∈ packet.ended, topic = child := by
    rcases hr with rfl | rfl
    · exact ⟨_, rfl, fun _ => List.mem_singleton.mp, nofun⟩
    · exact ⟨_, rfl, nofun, fun _ => List.mem_singleton.mp⟩
  obtain ⟨packet, hp, hs, he⟩ := hp
  rcases Client.send_single hp c with ⟨error, ho⟩ | ho
  · rwa [ho]
  · rw [ho]
    refine ⟨mem_apply.mpr (.inr ⟨fun hm => hb.ne (he root hm).symm, h.kept⟩), fun topic ht => ?_⟩
    rcases mem_apply.mp ht with ht | ht
    · exact .inr (hs topic ht ▸ hb)
    · exact h.within topic ht.2

namespace Ingest

/-- A step whose message arrives within the subtree keeps the client confined to it. -/
theorem confined_fed {root : String} {s : Ingest Client} {step : FeedStep}
    (h : Confined root s.bus.tracked) (ha : step.ArrivesIn root) :
    Confined root (s.fed step).bus.tracked := by
  cases hr : step.request? s.policy with
  | none =>
    rw [(spares_fed_of_none hr).tracked]
    exact h
  | some request =>
    obtain ⟨child, hb, hc⟩ := ha.exists_below hr
    rw [bus_fed_of_request hr]
    exact h.send hb hc

/-- Steps whose messages arrive within the subtree keep the client confined to it. -/
theorem confined_feed {root : String} {s : Ingest Client} {steps : List FeedStep}
    (h : Confined root s.bus.tracked) (ha : ∀ step ∈ steps, step.ArrivesIn root) :
    Confined root (s.feed steps).bus.tracked := by
  induction steps generalizing s with
  | nil => exact h
  | cons step rest ih =>
    rw [List.forall_mem_cons] at ha
    exact ih (confined_fed h ha.1) ha.2

/-- What a message in a subtree queues is a single change below the root. -/
theorem exists_below_of_added {root topic : String} (h : Within root topic) {s : Ingest Client}
    {payload : List UInt8} {packet : Packet}
    (hp : packet ∈ Client.added s.bus (s.fed (.message topic payload)).bus) :
    ∃ child, Below root child ∧
      (packet = .subscribe [⟨child, 0⟩] ∨ packet = .unsubscribe [child]) := by
  obtain ⟨request, hr, hp⟩ := exists_request_of_added hp
  obtain ⟨child, hb, rfl | rfl⟩ := exists_below_of_request? h hr
  · cases hp
    exact ⟨child, hb, .inl rfl⟩
  · cases hp
    exact ⟨child, hb, .inr rfl⟩

/-- No step in a subtree queues the end of the subscription to its root. -/
theorem root_not_mem_ended {root : String} {s : Ingest Client} {step : FeedStep}
    (ha : step.ArrivesIn root) {packet : Packet}
    (hp : packet ∈ Client.added s.bus (s.fed step).bus) : root ∉ packet.ended := by
  cases hr : step.request? s.policy with
  | none =>
    rw [(spares_fed_of_none hr).ended packet hp]
    exact List.not_mem_nil
  | some request =>
    rw [bus_fed_of_request hr] at hp
    obtain ⟨child, hb, rfl | rfl⟩ := ha.exists_below hr
    · rw [Client.mem_added_send rfl hp]
      exact List.not_mem_nil
    · rw [Client.mem_added_send rfl hp]
      exact fun hm => hb.ne (List.mem_singleton.mp hm).symm

/-- A client that starts with the root of a subtree as its only topic, and that hears nothing but
messages from this subtree, always tracks the root and never a topic outside the subtree. Messages
queue nothing but changes below the root, and the end of the subscription to the root is never
queued. This holds whatever the queue refuses and whatever becomes of the connection. -/
theorem feed_stays_within (root : String) (capacity : ℕ) (policy : Policy) (steps : List FeedStep)
    (arrivals : ∀ topic payload, .message topic payload ∈ steps → Within root topic) :
    let first := Ingest.mk policy .empty (Client.connect capacity [root])
    let s := first.feed steps
    root ∈ s.bus.tracked ∧ (∀ topic ∈ s.bus.tracked, Within root topic) ∧
    (∀ topic payload packet, (.message topic payload, packet) ∈ first.ledger steps →
      ∃ child, Below root child ∧
        (packet = .subscribe [⟨child, 0⟩] ∨ packet = .unsubscribe [child])) ∧
    ∀ step packet, (step, packet) ∈ first.ledger steps → root ∉ packet.ended := by
  intro first s
  have ha : ∀ step ∈ steps, step.ArrivesIn root := by
    rintro step hs topic payload rfl
    exact arrivals topic payload hs
  have hc : Confined root s.bus.tracked := confined_feed (confined_ofList root) ha
  refine ⟨hc.kept, hc.within, fun topic payload packet hp => ?_, fun step packet hp => ?_⟩
  · obtain ⟨older, hs, hp⟩ := exists_of_mem_ledger hp
    have hm := hs.subset (List.mem_append_right older (List.mem_singleton_self _))
    exact exists_below_of_added (arrivals topic payload hm) hp
  · obtain ⟨older, hs, hp⟩ := exists_of_mem_ledger hp
    have hm := hs.subset (List.mem_append_right older (List.mem_singleton_self _))
    exact root_not_mem_ended (ha step hm) hp

/-- Slashes and wildcards in an id do not lead out of the subtree. -/
theorem feed_stays_within_after_odd_ids :
    let start := Text.bytes "\x7b\"id\":\"/#\",\"cmd\":\"rt-start\",\"topic\":\"x\"\x7d"
    let stop := Text.bytes "\x7b\"id\":\"\",\"cmd\":\"rt-stop\"\x7d"
    let steps : List FeedStep := [.message "realm/proc" start, .limit 1, .message "realm/proc" stop,
      .connected, .sent 1, .message "realm/proc//#" stop, .sever, .close]
    let s := (Ingest.mk ⟨true⟩ .empty (Client.connect 4 ["realm/proc"])).feed steps
    (∀ topic payload, .message topic payload ∈ steps → Within "realm/proc" topic) ∧
      "realm/proc" ∈ s.bus.tracked ∧ ∀ topic ∈ s.bus.tracked, Within "realm/proc" topic := by
  intro start stop steps s
  have ha : ∀ topic payload, .message topic payload ∈ steps → Within "realm/proc" topic := by
    intro topic payload hm
    simp only [steps, List.mem_cons, FeedStep.message.injEq, reduceCtorEq, List.not_mem_nil,
      false_or, or_false] at hm
    rcases hm with ⟨rfl, -⟩ | ⟨rfl, -⟩ | ⟨rfl, -⟩
    · exact .inl rfl
    · exact .inl rfl
    · exact .inr ⟨"/#", rfl⟩
  have h := feed_stays_within "realm/proc" 4 ⟨true⟩ steps ha
  exact ⟨ha, h.1, h.2.1⟩

end Ingest

end LiveTopology
