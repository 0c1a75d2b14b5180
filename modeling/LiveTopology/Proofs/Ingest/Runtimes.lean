import LiveTopology.Proofs.Ingest.Feed
import LiveTopology.Proofs.Ingest.Outcomes
import Mathlib.Data.List.Infix

/-!
# Live runtimes and their own topics

A runtime that is live was announced, so its own topic was subscribed. The registry knows it by its
id and the client by that topic, and the two may part: the topic does not tell where the topic of
arrival ends and the id begins. Another runtime, whose id is a part of the one or has it as a part,
can spell the same topic, and its stop ends the one subscription of both. Nothing else does.
-/

namespace LiveTopology

open Bus Node

/-- Two runtimes with the same topic of their own have the same id, or the id of one ends with that
of the other behind a separator. -/
theorem exists_path_of_childTopic_eq {topic other id name : String}
    (h : childTopic topic id = childTopic other name) (hn : id ≠ name) :
    ∃ path, id = path ++ "/" ++ name ∨ name = path ++ "/" ++ id := by
  -- The two topics are cut at different separators, and the longer id reaches over the later cut.
  have hl : topic.toList ++ '/' :: id.toList = other.toList ++ '/' :: name.toList := by
    have ht := congrArg String.toList h
    simpa [childTopic] using ht
  rcases List.append_eq_append_iff.mp hl with ⟨between, -, hb⟩ | ⟨between, -, hb⟩
  · cases between with
    | nil =>
      have hi : id.toList = name.toList := (List.cons.inj hb).2
      exact absurd (String.toList_inj.mp hi) hn
    | cons first path =>
      obtain ⟨-, hi⟩ := List.cons.inj hb
      refine ⟨.ofList path, .inl (String.toList_inj.mp ?_)⟩
      simpa using hi
  · cases between with
    | nil =>
      have hi : name.toList = id.toList := (List.cons.inj hb).2
      exact absurd (String.toList_inj.mp hi).symm hn
    | cons first path =>
      obtain ⟨-, hi⟩ := List.cons.inj hb
      refine ⟨.ofList path, .inr (String.toList_inj.mp ?_)⟩
      simpa using hi

/-! ## A client that takes every request -/

namespace Ingest

/-- The client takes the request of a step, if there is one. -/
def Takes (s : Ingest Client) (step : FeedStep) : Prop :=
  ∀ request, step.request? s.policy = some request → (send request s.bus).1 = .ok ()

/-- The client takes every request in the course of steps. -/
def TakesAll (s : Ingest Client) : List FeedStep → Prop
  | [] => True
  | step :: rest => s.Takes step ∧ (s.fed step).TakesAll rest

/-- A request that is taken leaves the topic to which it subscribes, and of the others those whose
subscription it does not end. -/
theorem mem_tracked_fed {s : Ingest Client} {step : FeedStep} {topic : String} (h : s.Takes step) :
    topic ∈ (s.fed step).bus.tracked ↔
      step.request? s.policy = some (.subscribe topic) ∨
        step.request? s.policy ≠ some (.unsubscribe topic) ∧ topic ∈ s.bus.tracked := by
  cases hr : step.request? s.policy with
  | none =>
    rw [(spares_fed_of_none hr).tracked]
    simp
  | some request =>
    obtain ⟨packet, hp⟩ := FeedStep.exists_packet hr
    have ht := h request hr
    rw [bus_fed_of_request hr]
    rcases Client.send_single hp s.bus with ⟨error, ho⟩ | ho
    -- The request was taken, so it did not fail.
    · rw [ho] at ht
      cases ht
    · rw [ho, mem_apply]
      cases request with
      | subscribe other =>
        cases hp
        simp [Packet.subscribed, Packet.ended, eq_comm]
      | unsubscribe other =>
        cases hp
        simp [Packet.subscribed, Packet.ended, eq_comm]
      | publish other message =>
        cases hp
        simp [Packet.subscribed, Packet.ended]
      | unsubscribeAll => cases hp

/-- What is tracked after steps whose requests were all taken: the topics that were there or were
subscribed to, if every end of their subscription is followed by another subscription. -/
theorem mem_tracked_feed {s : Ingest Client} {steps : List FeedStep} {topic : String}
    (h : s.TakesAll steps) :
    topic ∈ (s.feed steps).bus.tracked ↔
      (topic ∈ s.bus.tracked ∨ ∃ step ∈ steps, step.request? s.policy = some (.subscribe topic)) ∧
        ∀ step rest, step :: rest <:+ steps →
          step.request? s.policy = some (.unsubscribe topic) →
            ∃ later ∈ rest, later.request? s.policy = some (.subscribe topic) := by
  have hr : topic ∈ (s.feed steps).bus.tracked ↔
      HoldsAfter (fun step => step.request? s.policy = some (.subscribe topic))
        (fun step => step.request? s.policy = some (.unsubscribe topic))
        (topic ∈ s.bus.tracked) steps := by
    induction steps generalizing s with
    | nil => rfl
    | cons step rest ih =>
      rw [feed_cons, ih h.2, policy_fed, mem_tracked_fed h.1, holdsAfter_cons]
  rw [hr, holdsAfter_iff]
  intro step hs he
  cases hs.symm.trans he

end Ingest

/-! ## Announcements and stops among steps -/

/-- A step asks for a subscription exactly if it is a message that announces the runtime. -/
theorem FeedStep.request?_eq_subscribe_iff {policy : Policy} {step : FeedStep} {child : String} :
    step.request? policy = some (.subscribe child) ↔
      ∃ topic payload, step = .message topic payload ∧ Announces child topic payload := by
  cases step with
  | message topic payload =>
    rw [request?, LiveTopology.request?_eq_subscribe_iff]
    constructor
    · exact fun h => ⟨topic, payload, rfl, h⟩
    · rintro ⟨_, _, ⟨⟩, h⟩
      exact h
  | connected | close | sent | sever | limit => exact iff_of_false nofun nofun

/-- A step asks for the end of a subscription exactly if it is a message that retires the runtime
and the policy follows stops. -/
theorem FeedStep.request?_eq_unsubscribe_iff {policy : Policy} {step : FeedStep} {child : String} :
    step.request? policy = some (.unsubscribe child) ↔
      policy.unsubscribeOnStop = true ∧
        ∃ topic payload, step = .message topic payload ∧ Retires child topic payload := by
  cases step with
  | message topic payload =>
    rw [request?, LiveTopology.request?_eq_unsubscribe_iff]
    constructor
    · exact fun h => ⟨h.1, topic, payload, rfl, h.2⟩
    · rintro ⟨hp, _, _, ⟨⟩, h⟩
      exact ⟨hp, h⟩
  | connected | close | sent | sever | limit => exact iff_of_false nofun nofun

/-- Whether a message reports the stop of the runtime with an id. -/
def StopsRuntime (id topic : String) (payload : List UInt8) : Prop :=
  ∃ event, normalize topic payload = .ok event ∧ event.command = .stop .runtime ∧ event.id = id

/-- A message that retires a topic reports the stop of a runtime whose own topic it is. -/
theorem Retires.exists_id {child topic : String} {payload : List UInt8}
    (h : Retires child topic payload) :
    ∃ id, StopsRuntime id topic payload ∧ childTopic topic id = child := by
  obtain ⟨event, hn, hc, ht⟩ := h
  exact ⟨event.id, ⟨event, hn, hc, rfl⟩, ht⟩

namespace Ingest

/-- A topic that is tracked stays so while the client takes every request, unless the policy follows
stops and the stop of a runtime with this topic is not followed by another announcement for it. -/
theorem mem_tracked_feed_of_mem {s : Ingest Client} {steps : List FeedStep} {child : String}
    (h : s.TakesAll steps) (hm : child ∈ s.bus.tracked) :
    child ∈ (s.feed steps).bus.tracked ↔ (s.policy.unsubscribeOnStop = true →
      ∀ topic payload rest, .message topic payload :: rest <:+ steps →
        Retires child topic payload →
          ∃ other again, .message other again ∈ rest ∧ Announces child other again) := by
  refine (mem_tracked_feed h).trans ((and_iff_right (.inl hm)).trans ?_)
  constructor
  · intro he hp topic payload rest hs hr
    have hu : (FeedStep.message topic payload).request? s.policy = some (.unsubscribe child) :=
      FeedStep.request?_eq_unsubscribe_iff.mpr ⟨hp, topic, payload, rfl, hr⟩
    obtain ⟨later, hl, hc⟩ := he _ rest hs hu
    obtain ⟨other, again, rfl, ha⟩ := FeedStep.request?_eq_subscribe_iff.mp hc
    exact ⟨other, again, hl, ha⟩
  · intro he step rest hs hu
    obtain ⟨hp, topic, payload, rfl, hr⟩ := FeedStep.request?_eq_unsubscribe_iff.mp hu
    obtain ⟨other, again, hl, ha⟩ := he hp topic payload rest hs hr
    exact ⟨_, hl, FeedStep.request?_eq_subscribe_iff.mpr ⟨other, again, rfl, ha⟩⟩

end Ingest

/-! ## Runtimes that stay live -/

/-- In a state a message announces a runtime and inserts its record, which has been there ever
since, whatever steps came after it. -/
structure LiveSince (s : Ingest Client) (topic : String) (payload : List UInt8) (event : Event)
    (newer : List FeedStep) : Prop where
  normalized : normalize topic payload = .ok event
  runtime : event.command = .start .runtime
  inserted : (s.handle topic payload).1 = .inserted
  live : ∀ since, since <+: newer →
    (s.feed (.message topic payload :: since)).registry.contains event.id = true

namespace LiveSince

variable {s : Ingest Client} {topic : String} {payload : List UInt8} {event : Event}
  {newer : List FeedStep}

/-- On an empty registry it is enough that the id of the runtime stands after each step. -/
theorem of_standing {policy : Policy} {bus : Client} (hn : normalize topic payload = .ok event)
    (hc : event.command = .start .runtime)
    (h : ∀ since ∈ newer.inits, (standing? event.id
      ((.message topic payload :: since).filterMap FeedStep.notice?)).isSome) :
    LiveSince ⟨policy, .empty, bus⟩ topic payload event newer where
  normalized := hn
  runtime := hc
  inserted := by
    have he : Registry.empty.contains event.id = false := Std.HashMap.contains_empty
    have hk : event.kind = .start := congrArg Command.kind hc
    rw [Ingest.handle_fst hn, he, hk]
    rfl
  live since hp := by
    rw [Ingest.registry_feed, Registry.contains_foldl_heed_eq]
    exact h since ((List.mem_inits since newer).mpr hp)

/-- While a runtime is live its own stop does not arrive. -/
theorem id_ne_of_stop (h : LiveSince s topic payload event newer) {other id : String}
    {text : List UInt8} (hm : .message other text ∈ newer) (hs : StopsRuntime id other text) :
    id ≠ event.id := by
  rintro rfl
  obtain ⟨stop, hn, hc, hi⟩ := hs
  obtain ⟨before, later, rfl⟩ := List.append_of_mem hm
  have hl := h.live (before ++ [.message other text]) ⟨later, by simp⟩
  have hr : (FeedStep.message other text).notice? = some (.stop stop.id) := by
    rw [FeedStep.notice?, Notice.ofMessage, hn]
    dsimp only [Event.kind]
    rw [hc]
    rfl
  rw [← List.cons_append, Ingest.feed_append, Ingest.feed_cons, Ingest.registry_feed,
    Ingest.registry_fed, hr] at hl
  simp [Registry.contains_heed, Notice.starts, Notice.ends, hi] at hl

/-- A stop that spells the own topic of a live runtime names another id, and one of the two ids ends
with the other behind a separator. -/
theorem exists_path_of_stop (h : LiveSince s topic payload event newer) {other id : String}
    {text : List UInt8} (hm : .message other text ∈ newer) (hs : StopsRuntime id other text)
    (hc : childTopic other id = childTopic topic event.id) :
    id ≠ event.id ∧ ∃ path, event.id = path ++ "/" ++ id ∨ id = path ++ "/" ++ event.id := by
  have hn : id ≠ event.id := h.id_ne_of_stop hm hs
  exact ⟨hn, exists_path_of_childTopic_eq hc.symm hn.symm⟩

/-- The announcement of a runtime subscribes to its own topic. -/
theorem own_topic_tracked (h : LiveSince s topic payload event newer)
    (ht : s.Takes (.message topic payload)) :
    childTopic topic event.id ∈ (s.fed (.message topic payload)).bus.tracked := by
  refine (Ingest.mem_tracked_fed ht).mpr (.inl ?_)
  exact LiveTopology.request?_eq_subscribe_iff.mpr ⟨event, h.normalized, h.runtime, rfl⟩

end LiveSince

namespace Ingest

/-- While a runtime is live and the client has taken every request since its announcement, its own
topic is tracked, unless the policy follows stops and the stop of a runtime with this topic was not
followed by another announcement for it. Such a stop names another id, and one of the two ids ends
with the other behind a separator. So the topic is tracked if no id has a separator. -/
theorem own_topic_tracked_iff (s : Ingest Client) (topic : String) (payload : List UInt8)
    (event : Event) (newer : List FeedStep) (live : LiveSince s topic payload event newer)
    (taken : s.TakesAll (.message topic payload :: newer)) :
    let tracked := (s.feed (.message topic payload :: newer)).bus.tracked
    let child := childTopic topic event.id
    (child ∈ tracked ↔ (s.policy.unsubscribeOnStop = true →
      ∀ other text rest, .message other text :: rest <:+ newer → Retires child other text →
        ∃ third again, .message third again ∈ rest ∧ Announces child third again)) ∧
    (∀ other text id, .message other text ∈ newer → StopsRuntime id other text →
      childTopic other id = child →
        id ≠ event.id ∧ ∃ path, event.id = path ++ "/" ++ id ∨ id = path ++ "/" ++ event.id) ∧
    ('/' ∉ event.id.toList →
      (∀ other text id, .message other text ∈ newer → StopsRuntime id other text →
        '/' ∉ id.toList) →
      child ∈ tracked) := by
  intro tracked child
  have hi : child ∈ (s.fed (.message topic payload)).bus.tracked := live.own_topic_tracked taken.1
  have hiff := mem_tracked_feed_of_mem taken.2 hi
  rw [policy_fed] at hiff
  refine ⟨hiff, fun other text id hm hs hc => live.exists_path_of_stop hm hs hc, fun he hs => ?_⟩
  refine hiff.mpr fun _ other text rest hm hr => ?_
  -- No such stop arrives: one of the two ids would hold the separator.
  have hm : .message other text ∈ newer := hm.subset List.mem_cons_self
  obtain ⟨id, hi, hc⟩ := hr.exists_id
  obtain ⟨-, path, hp | hp⟩ := live.exists_path_of_stop hm hi hc
  · exact absurd (by simp [hp]) he
  · exact absurd (by simp [hp]) (hs other text id hm hi)

/-- The own topic of a runtime is still tracked when another one has stopped. -/
theorem own_topic_tracked_beside_other_runtime :
    let start := Text.bytes "\x7b\"id\":\"r1\",\"cmd\":\"rt-start\"\x7d"
    let stop := Text.bytes "\x7b\"id\":\"r2\",\"cmd\":\"rt-stop\"\x7d"
    let event : Event := ⟨"r1", .start .runtime, "realm/proc", none, []⟩
    let s := Ingest.mk ⟨true⟩ .empty (Client.connect 8 ["realm/proc"])
    let newer : List FeedStep := [.message "realm/proc" stop, .sent 1, .message "realm/proc" start]
    (LiveSince s "realm/proc" start event newer ∧
      s.TakesAll (.message "realm/proc" start :: newer)) ∧
      "realm/proc/r1" ∈ (s.feed (.message "realm/proc" start :: newer)).bus.tracked := by
  intro start stop event s newer
  have hn : normalize "realm/proc" start = .ok event := rfl
  have hs : normalize "realm/proc" stop =
      .ok ⟨"r2", .stop .runtime, "realm/proc", none, []⟩ := rfl
  have ht : s.TakesAll (.message "realm/proc" start :: newer) := by
    refine ⟨fun request hr => ?_, fun request hr => ?_, nofun, fun request hr => ?_, trivial⟩
    all_goals
      cases hr
      rfl
  have live : LiveSince s "realm/proc" start event newer := .of_standing hn rfl (by decide)
  have h := own_topic_tracked_iff s "realm/proc" start event newer live ht
  refine ⟨⟨live, ht⟩, h.2.2 (by decide) ?_⟩
  rintro other text id hm ⟨stopped, hr, hk, rfl⟩
  simp only [newer, List.mem_cons, FeedStep.message.injEq, reduceCtorEq, List.not_mem_nil,
    false_or, or_false] at hm
  rcases hm with ⟨rfl, rfl⟩ | ⟨rfl, rfl⟩
  · cases hs.symm.trans hr
    decide
  · cases hn.symm.trans hr
    cases hk

/-- The stop of another runtime, on a topic further below, ends the subscription of a live one. -/
theorem own_topic_untracked_after_stop_of_other :
    let start := Text.bytes "\x7b\"id\":\"b/c\",\"cmd\":\"rt-start\"\x7d"
    let stop := Text.bytes "\x7b\"id\":\"c\",\"cmd\":\"rt-stop\"\x7d"
    let s := Ingest.mk ⟨true⟩ .empty (Client.connect 8 [])
    let steps : List FeedStep := [.message "a" start, .message "a/b" stop]
    s.TakesAll steps ∧ (s.handle "a" start).1 = .inserted ∧
      (s.feed steps).registry.contains "b/c" = true ∧
      "a/b/c" ∉ (s.feed steps).bus.tracked := by
  intro start stop s steps
  have ht : s.TakesAll steps := by
    refine ⟨fun request hr => ?_, fun request hr => ?_, trivial⟩
    all_goals
      cases hr
      rfl
  have live : LiveSince s "a" start ⟨"b/c", .start .runtime, "a", none, []⟩
      [.message "a/b" stop] := .of_standing rfl rfl (by decide)
  have hn : "a/b/c" ∉ (s.feed steps).bus.tracked.toList := by decide
  exact ⟨ht, live.inserted, live.live _ List.prefix_rfl, mt TopicSet.mem_toList.mpr hn⟩

end Ingest

end LiveTopology
