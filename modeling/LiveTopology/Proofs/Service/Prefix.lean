import LiveTopology.Proofs.Service.Wiring

/-!
# The prefix in renewed subscriptions

The service starts with the topic under which runtimes announce themselves as the only one that is
tracked, and renews the tracked topics with every session. Nothing sets the prefix apart from other
topics: it is renewed until its subscription is ended, which a viewer does who unsubscribes from
everything, and a stopped runtime whose own topic is the prefix, if the policy follows stops.
-/

namespace LiveTopology

open Bus Node

/-- Whether an input asks for the end of the subscription to the prefix. -/
def Service.Input.dropsPrefix (config : Config) : Service.Input → Prop
  | .frame (.text content) => RelayCommand.parse content = .ok .unsubscribeAll
  | .signal (.event (.message topic payload)) =>
    config.runtime.unsubscribeOnStop = true ∧ ∃ event, normalize topic payload = .ok event ∧
      event.command = .stop .runtime ∧ childTopic topic event.id = config.runtime.topicPrefix
  | _ => False

/-- The subscriptions of batches are for the topics of the batches, in order. -/
theorem flatMap_subscribed (batches : List (List String)) :
    (batches.map Client.subscription).flatMap Packet.subscribed = batches.flatten := by
  induction batches with
  | nil => rfl
  | cons batch rest ih =>
    have hb : (Client.subscription batch).subscribed = batch := by
      simp [Client.subscription, Packet.subscribed, Function.comp_def]
    rw [List.map_cons, List.flatMap_cons, hb, ih, List.flatten_cons]

namespace Service

/-- The service after the start of a session. -/
def connected (s : Service) : Service := s.after (.signal (.event .connected))

/-- The topics of the subscriptions that the start of a session queues. -/
def renewed (s : Service) : List String :=
  (Client.added s.state.bus s.connected.state.bus).flatMap Packet.subscribed

/-- The start of a session renews the subscriptions and does nothing else to the client. -/
theorem Serving.connected_bus {s : Service} {config : Config} (h : Serving s config) :
    s.connected.state.bus = s.state.bus.resubscribe.2 := by
  obtain ⟨_, _, _, phase, handler⟩ := s
  obtain ⟨rfl, -⟩ := h
  rw [connected, bus_after]
  rfl

/-- If the queue has room for all batches, all tracked topics are renewed and no others. -/
theorem Serving.renewed_eq {s : Service} {config : Config} (h : Serving s config)
    (room : (Client.batches s.state.bus.tracked.toList).length ≤ s.state.bus.room) :
    s.renewed = s.state.bus.tracked.toList := by
  have ha := Client.resubscribe_appends s.state.bus
  rw [← h.connected_bus] at ha
  rw [renewed, Client.added_of_appends ha, List.take_of_length_le room, flatMap_subscribed,
    Client.flatten_batches]

/-- The request of an input that does not drop the prefix is a single one and leaves the
subscription to the prefix alone. -/
theorem Serving.request_keeps {s : Service} {config : Config} (h : Serving s config)
    {input : Input} {request : Request} (hd : ¬ input.dropsPrefix config)
    (hr : s.step? input = some (.request request)) :
    ∃ packet, request.packet? = some packet ∧ config.runtime.topicPrefix ∉ packet.ended := by
  -- Only the command of a viewer and the message of a runtime make requests. The one ends all
  -- subscriptions or none, the other that of a single topic at most.
  cases input with
  | http | sent => cases hr
  | frame frame =>
    obtain ⟨other, ho, he⟩ := Option.map_eq_some_iff.mp hr
    cases he
    cases frame with
    | text content =>
      rw [Viewer.Frame.request?] at ho
      split at ho
      · cases ho
      · rename_i command hc
        cases ho
        cases command with
        | publish | subscribe => exact ⟨_, rfl, List.not_mem_nil⟩
        | unsubscribeAll => exact absurd hc hd
    | binary | ping | pong | close | broken => cases ho
  | signal signal =>
    obtain ⟨_, _, _, phase, handler⟩ := s
    obtain ⟨rfl, hp⟩ := h
    cases signal with
    | event event =>
      cases event with
      | message topic payload =>
        obtain ⟨other, ho, he⟩ := Option.map_eq_some_iff.mp hr
        cases he
        rw [hp] at ho
        cases request with
        | publish | subscribe => exact ⟨_, rfl, List.not_mem_nil⟩
        | unsubscribeAll => exact absurd ho (request?_ne_unsubscribeAll _ _ _)
        | unsubscribe other =>
          refine ⟨_, rfl, fun hm => hd ?_⟩
          have hn : config.runtime.topicPrefix = other := List.mem_singleton.mp hm
          subst hn
          exact request?_eq_unsubscribe_iff.mp ho
      | connected | disconnectSent | other | failed => cases hr
    | stop | timeout => cases hr

/-- An input that does not drop the prefix leaves it tracked. -/
theorem Serving.mem_tracked_after {s : Service} {config : Config} (h : Serving s config)
    {input : Input} (hd : ¬ input.dropsPrefix config)
    (hp : config.runtime.topicPrefix ∈ s.state.bus.tracked) :
    config.runtime.topicPrefix ∈ (s.after input).state.bus.tracked := by
  rw [bus_after]
  cases hs : s.step? input with
  | none => exact hp
  | some step =>
    cases step with
    | request request =>
      obtain ⟨packet, hr, he⟩ := h.request_keeps hd hs
      exact Client.mem_tracked_send hp hr he
    | resubscribe =>
      change _ ∈ s.state.bus.resubscribe.2.tracked
      rwa [Client.resubscribe_eq]
    | close =>
      change _ ∈ s.state.bus.close.tracked
      rw [Client.close_eq]
      split_ifs <;> exact hp
    | sent | sever => exact hp

/-- The prefix stays tracked in the course of inputs that do not drop it. -/
theorem Serving.mem_tracked_run {s : Service} {config : Config} (h : Serving s config)
    {inputs : List Input} (hi : .signal .stop ∉ inputs)
    (hd : ∀ input ∈ inputs, ¬ input.dropsPrefix config)
    (hp : config.runtime.topicPrefix ∈ s.state.bus.tracked) :
    config.runtime.topicPrefix ∈ (s.run inputs).state.bus.tracked := by
  induction inputs generalizing s with
  | nil => exact hp
  | cons input rest ih =>
    rw [List.mem_cons, not_or] at hi
    rw [List.forall_mem_cons] at hd
    exact ih (h.after (Ne.symm hi.1)) hi.2 hd.2 (h.mem_tracked_after hd.1 hp)

/-- A topic that is tracked at first is tracked after inputs exactly if every end of its subscription
in the ledger is followed by another subscription. -/
theorem mem_tracked_run_iff {first : Service} {topic : String}
    (h : topic ∈ first.state.bus.tracked) (inputs : List Input) :
    topic ∈ (first.run inputs).state.bus.tracked ↔
      ∀ packet newer, packet :: newer <:+ first.state.bus.accepted (first.steps inputs) →
        topic ∈ packet.ended → topic ∈ newer.flatMap Packet.subscribed := by
  rw [bus_run, Client.tracked_run, mem_replay]
  exact and_iff_right (.inl h)

/-- What a session that starts behind inputs renews of the topics, and of the prefix among them. -/
structure RenewsPrefix (first : Service) (config : Config) (inputs : List Input) : Prop where
  all : (first.run inputs).renewed = (first.run inputs).state.bus.tracked.toList
  mem_iff : config.runtime.topicPrefix ∈ (first.run inputs).renewed ↔
    ∀ packet newer, packet :: newer <:+ first.state.bus.accepted (first.steps inputs) →
      config.runtime.topicPrefix ∈ packet.ended →
      config.runtime.topicPrefix ∈ newer.flatMap Packet.subscribed
  of_kept : (∀ input ∈ inputs, ¬ input.dropsPrefix config) →
    config.runtime.topicPrefix ∈ (first.run inputs).renewed

/-- A service that serves and tracks the prefix renews it in this way behind any inputs, if there is
room for all batches. -/
theorem Serving.renewsPrefix {first : Service} {config : Config} (h : Serving first config)
    (tracked : config.runtime.topicPrefix ∈ first.state.bus.tracked) {inputs : List Input}
    (serving : .signal .stop ∉ inputs)
    (room : (Client.batches (first.run inputs).state.bus.tracked.toList).length ≤
      (first.run inputs).state.bus.room) : RenewsPrefix first config inputs := by
  have hr := (h.run serving).renewed_eq room
  refine ⟨hr, ?_, fun hd => ?_⟩
  · rw [hr, ← TopicSet.mem_toList]
    exact mem_tracked_run_iff tracked inputs
  · rw [hr]
    exact h.mem_tracked_run serving hd tracked

/-- The prefix is tracked from the beginning. -/
theorem mem_tracked_launched (config : Config) (broker : BrokerAddress)
    (listener : Network.SocketAddress) :
    config.runtime.topicPrefix ∈ (launched config broker listener).state.bus.tracked :=
  TopicSet.mem_ofList.mpr (List.mem_singleton_self _)

/-- Every service that was started renews its prefix in this way, whatever file its configuration was
read from and wherever it listens. -/
theorem renewsPrefix_of_start {host : Network.Host} {arguments : CommandLine.ServeArguments}
    {found : Except FileError (List UInt8)} {first : Service}
    (h : start host arguments found = .ok first) {inputs : List Input}
    (serving : .signal .stop ∉ inputs)
    (room : (Client.batches (first.run inputs).state.bus.tracked.toList).length ≤
      (first.run inputs).state.bus.room) : RenewsPrefix first first.config inputs := by
  have hp : first.config.runtime.topicPrefix ∈ first.state.bus.tracked := by
    rw [eq_launched_of_start h]
    exact mem_tracked_launched first.config first.broker first.listener
  exact (serving_of_start h).renewsPrefix hp serving room

/-- A session that starts while the queue has room for all batches renews exactly the tracked
topics. The prefix is among them exactly if every end of its subscription in the ledger is followed
by another subscription, and it is among them whenever no input has dropped it. -/
theorem prefix_renewed_iff (config : Config) (broker : BrokerAddress)
    (listener : Network.SocketAddress) (inputs : List Input) (serving : .signal .stop ∉ inputs)
    (room : let client := ((launched config broker listener).run inputs).state.bus
      (Client.batches client.tracked.toList).length ≤ client.room) :
    let first := launched config broker listener
    let s := first.run inputs
    let ledger := first.state.bus.accepted (first.steps inputs)
    let topic := config.runtime.topicPrefix
    s.renewed = s.state.bus.tracked.toList ∧
      (topic ∈ s.renewed ↔ ∀ packet newer, packet :: newer <:+ ledger → topic ∈ packet.ended →
        topic ∈ newer.flatMap Packet.subscribed) ∧
      ((∀ input ∈ inputs, ¬ input.dropsPrefix config) → topic ∈ s.renewed) := by
  intro first s ledger topic
  have hs : Serving first config := serving_launched config broker listener
  have hp : topic ∈ first.state.bus.tracked := mem_tracked_launched config broker listener
  obtain ⟨all, mem_iff, of_kept⟩ := hs.renewsPrefix hp serving room
  exact ⟨all, mem_iff, of_kept⟩

/-- The prefix is renewed together with a topic to which a viewer has subscribed. -/
theorem prefix_renewed_with_subscription :
    let config : Config := ⟨"0.0.0.0", 5000, .standard, ⟨"realm/proc", false⟩⟩
    let inputs : List Input := [.signal (.event .connected), .sent 1,
      .frame (.text "\x7b\"action\":\"subscribe\",\"topic\":\"realm/proc/r1\"\x7d")]
    let s := (launched config ⟨"localhost", 1883⟩ ⟨.v4 0, 5000⟩).run inputs
    (.signal .stop ∉ inputs ∧
      (Client.batches s.state.bus.tracked.toList).length ≤ s.state.bus.room) ∧
      s.renewed = ["realm/proc", "realm/proc/r1"] ∧ "realm/proc" ∈ s.renewed := by
  intro config inputs s
  have hi : .signal .stop ∉ inputs := by simp [inputs]
  have room : (Client.batches s.state.bus.tracked.toList).length ≤ s.state.bus.room := by decide
  have hd : ∀ input ∈ inputs, ¬ input.dropsPrefix config := by
    simp only [inputs, List.forall_mem_cons]
    refine ⟨id, id, ?_, nofun⟩
    intro h
    cases h
  have ht : s.state.bus.tracked.toList = ["realm/proc", "realm/proc/r1"] := by decide
  have h := prefix_renewed_iff config ⟨"localhost", 1883⟩ ⟨.v4 0, 5000⟩ inputs hi room
  exact ⟨⟨hi, room⟩, h.1.trans ht, h.2.2 hd⟩

/-- A viewer who unsubscribes from everything also ends the subscription to the prefix. -/
theorem prefix_not_renewed_after_unsubscribeAll :
    let config : Config := ⟨"0.0.0.0", 5000, .standard, ⟨"realm/proc", false⟩⟩
    let s := (launched config ⟨"localhost", 1883⟩ ⟨.v4 0, 5000⟩).run
      [.frame (.text "\x7b\"action\":\"unsubscribe_all\"\x7d")]
    (Client.batches s.state.bus.tracked.toList).length ≤ s.state.bus.room ∧
      "realm/proc" ∉ s.renewed := by
  decide

end Service

end LiveTopology
