import LiveTopology.Proofs.Bus.Subscriptions

/-!
# What each operation of the client queues

An operation makes its requests one by one and the room of the queue decides how many are taken:
always the first ones. Each operation therefore has one equation for all fill levels, in which
`take` and `drop` cut its requests at the room. From these equations every operation is seen to
append requests and to track exactly what they do.
-/

namespace LiveTopology.Bus

/-- The packet that a request queues, if it is a single one. -/
def Request.packet? : Request → Option Packet
  | .subscribe topic => some (.subscribe [⟨topic, 0⟩])
  | .unsubscribe topic => some (.unsubscribe [topic])
  | .unsubscribeAll => none
  | .publish topic message => some (.publish topic message 0 false)

/-- Whether a request is a message for a pattern of topics, which is never queued. -/
def Request.patterned : Request → Bool
  | .publish topic _ => Client.isPattern topic
  | .subscribe _ | .unsubscribe _ | .unsubscribeAll => false

/-- All requests but the end of all subscriptions are single ones. -/
theorem Request.exists_packet {request : Request} (h : request ≠ .unsubscribeAll) :
    ∃ packet, request.packet? = some packet := by
  cases request with
  | subscribe | unsubscribe | publish => exact ⟨_, rfl⟩
  | unsubscribeAll => exact absurd rfl h

namespace Client

/-- A full queue takes nothing. -/
theorem enqueue?_of_full {c : Client} (h : c.room = 0) (packet : Packet) :
    c.enqueue? packet = none := by
  rw [enqueue?, if_pos h]

/-- A queue with room takes a request behind all others. -/
theorem enqueue?_of_room {c : Client} (h : c.room ≠ 0) (packet : Packet) :
    c.enqueue? packet = some { c with queue := c.queue ++ [packet] } := by
  rw [enqueue?, if_neg h]

/-- A queued request takes one place, if the queue had any. -/
theorem room_push (c : Client) (packet : Packet) :
    room { c with queue := c.queue ++ [packet] } = c.room - 1 := by
  simp only [room, List.length_append, List.length_singleton]
  split <;> omega

/-! ## One request -/

/-- A subscription is refused by a closed client and by a full queue. Otherwise it is queued and its
topic tracked. -/
theorem subscribe_eq (c : Client) (topic : String) :
    c.subscribe topic =
      if c.closed then (.error (closedError topic), c)
      else if c.room = 0 then (.error (rejection topic), c)
      else (.ok (), { c with queue := c.queue ++ [.subscribe [⟨topic, 0⟩]]
                             tracked := c.tracked.insert topic }) := by
  rw [subscribe]
  by_cases hr : c.room = 0
  · rw [enqueue?_of_full hr, if_pos hr]
  · rw [enqueue?_of_room hr, if_neg hr]

/-- The end of a subscription is refused by a closed client and by a full queue. Otherwise it is
queued and its topic no longer tracked. -/
theorem unsubscribe_eq (c : Client) (topic : String) :
    c.unsubscribe topic =
      if c.closed then (.error (closedError topic), c)
      else if c.room = 0 then (.error (rejection topic), c)
      else (.ok (), { c with queue := c.queue ++ [.unsubscribe [topic]]
                             tracked := c.tracked.erase topic }) := by
  rw [unsubscribe]
  by_cases hr : c.room = 0
  · rw [enqueue?_of_full hr, if_pos hr]
  · rw [enqueue?_of_room hr, if_neg hr]

/-- A message is refused by a closed client, for a pattern of topics and by a full queue. Otherwise
it is queued. -/
theorem publish_eq (c : Client) (topic message : String) :
    c.publish topic message =
      if c.closed then (.error (closedError topic), c)
      else if isPattern topic then (.error (rejection topic), c)
      else if c.room = 0 then (.error (rejection topic), c)
      else (.ok (), { c with queue := c.queue ++ [.publish topic message 0 false] }) := by
  rw [publish]
  by_cases hr : c.room = 0
  · rw [enqueue?_of_full hr, if_pos hr]
  · rw [enqueue?_of_room hr, if_neg hr]

/-- A single request is refused or queues its packet, and tracks what that does. -/
theorem send_eq {request : Request} {packet : Packet} (hp : request.packet? = some packet)
    (c : Client) :
    Bus.send request c =
      if c.closed then (.error (closedError request.topic), c)
      else if request.patterned ∨ c.room = 0 then (.error (rejection request.topic), c)
      else (.ok (), { c with queue := c.queue ++ [packet]
                             tracked := packet.apply c.tracked }) := by
  cases request with
  | subscribe topic =>
    cases hp
    simp only [Request.patterned, Bool.false_eq_true, false_or]
    exact subscribe_eq c topic
  | unsubscribe topic =>
    cases hp
    simp only [Request.patterned, Bool.false_eq_true, false_or]
    exact unsubscribe_eq c topic
  | unsubscribeAll => cases hp
  | publish topic message =>
    cases hp
    rw [ite_or]
    exact publish_eq c topic message

/-- A closing closes the client and, the first time, queues a disconnect if there is room. -/
theorem close_eq (c : Client) :
    c.close =
      if c.closed then c
      else if c.room = 0 then { c with closed := true }
      else { c with closed := true, queue := c.queue ++ [.disconnect] } := by
  rw [close]
  dsimp only
  by_cases hr : c.room = 0
  · rw [if_pos hr, enqueue?_of_full (c := { c with closed := true }) hr]
    rfl
  · rw [if_neg hr, enqueue?_of_room (c := { c with closed := true }) hr]
    rfl

/-! ## Many requests -/

/-- The requests that end the subscriptions to topics, one by one. -/
def endings (topics : List String) : List Packet := topics.map fun topic => .unsubscribe [topic]

/-- Ending subscriptions one by one ends the first ones, as many as there is room for. The others
are tracked again, and the first of them is the one reported. -/
theorem unsubscribeEach_eq (topics : List String) (c : Client) :
    unsubscribeEach topics c =
      ((topics[c.room]?).elim (.ok ()) fun topic => .error (rejection topic),
        { c with
          queue := c.queue ++ endings (topics.take c.room)
          tracked := (topics.drop c.room).foldl (fun s topic => s.insert topic) c.tracked }) := by
  induction topics generalizing c with
  | nil => simp [unsubscribeEach, endings]
  | cons topic rest ih =>
    rw [unsubscribeEach]
    by_cases hr : c.room = 0
    · -- What is tracked takes no room, so the rest of the topics finds the queue full as well.
      have hk : room { c with tracked := c.tracked.insert topic } = 0 := hr
      rw [enqueue?_of_full hr]
      dsimp only
      rw [ih, hk, hr]
      rfl
    · obtain ⟨k, hk⟩ := Nat.exists_eq_succ_of_ne_zero hr
      rw [enqueue?_of_room hr]
      dsimp only
      rw [ih, room_push, hk]
      simp [endings]

/-- The end of all subscriptions is queued for as many topics as there is room for, in order. The
others stay tracked, and the first of them is reported. -/
theorem unsubscribeAll_eq (c : Client) :
    c.unsubscribeAll =
      if c.closed then (.error (closedError "*"), c)
      else
        ((c.tracked.toList[c.room]?).elim (.ok ()) fun topic => .error (rejection topic),
          { c with
            queue := c.queue ++ endings (c.tracked.toList.take c.room)
            tracked := .ofList (c.tracked.toList.drop c.room) }) := by
  rw [unsubscribeAll, unsubscribeEach_eq]
  rfl

/-- The request that subscribes to the topics of a batch. -/
def subscription (batch : List String) : Packet := .subscribe (batch.map fun topic => ⟨topic, 0⟩)

/-- Queueing batches queues the first ones, as many as there is room for. -/
theorem enqueueBatches_eq (batches : List (List String)) (c : Client) :
    enqueueBatches batches c =
      (min batches.length c.room,
        { c with queue := c.queue ++ (batches.take c.room).map subscription }) := by
  induction batches generalizing c with
  | nil => simp [enqueueBatches]
  | cons batch rest ih =>
    rw [enqueueBatches]
    by_cases hr : c.room = 0
    · rw [enqueue?_of_full hr]
      dsimp only
      rw [ih, hr]
      simp
    · obtain ⟨k, hk⟩ := Nat.exists_eq_succ_of_ne_zero hr
      rw [enqueue?_of_room hr]
      dsimp only
      rw [ih, room_push, hk]
      simp [subscription, Nat.succ_min_succ]

/-- A renewal queues as many batches as there is room for, the first ones, and counts them. -/
theorem resubscribe_eq (c : Client) :
    c.resubscribe =
      (min (batches c.tracked.toList).length c.room,
        { c with
          queue := c.queue ++ ((batches c.tracked.toList).take c.room).map subscription }) :=
  enqueueBatches_eq _ _

/-- The first batches hold the first topics. -/
theorem flatten_map_range (topics : List String) (k : ℕ) :
    ((List.range k).map fun i => (topics.drop (batchSize * i)).take batchSize).flatten =
      topics.take (batchSize * k) := by
  induction k with
  | zero => rfl
  | succ k ih =>
    rw [List.range_succ, List.map_append, List.flatten_append, ih, Nat.mul_succ, List.take_add]
    simp only [List.map_cons, List.map_nil, List.flatten_cons, List.flatten_nil, List.append_nil]

/-- The first batches hold the first topics, each once and in order. -/
theorem flatten_take_batches (topics : List String) (k : ℕ) :
    ((batches topics).take k).flatten = topics.take (batchSize * k) := by
  rw [batches, ← List.map_take, List.take_range, flatten_map_range]
  by_cases hk : k ≤ (topics.length + batchSize - 1) / batchSize
  · rw [Nat.min_eq_left hk]
  · have hm : topics.length ≤ batchSize * ((topics.length + batchSize - 1) / batchSize) := by
      rw [batchSize]
      omega
    have hl : topics.length ≤ batchSize * k := hm.trans (Nat.mul_le_mul_left _ (by omega))
    rw [Nat.min_eq_right (by omega), List.take_of_length_le hm, List.take_of_length_le hl]

/-- All batches together hold all topics. -/
theorem flatten_batches (topics : List String) : (batches topics).flatten = topics := by
  have hf := flatten_map_range topics ((topics.length + batchSize - 1) / batchSize)
  rw [batches, hf, List.take_of_length_le]
  rw [batchSize]
  omega

/-! ## Requests and tracked topics -/

/-- The ends of subscriptions take their topics out of a set and no others. -/
theorem mem_replay_endings {topics : List String} {s : TopicSet} {other : String} :
    other ∈ replay (endings topics) s ↔ other ∉ topics ∧ other ∈ s := by
  induction topics generalizing s with
  | nil => simp only [endings, List.map_nil, replay_nil, List.not_mem_nil, not_false_eq_true,
      true_and]
  | cons topic rest ih =>
    rw [endings, List.map_cons, replay_cons, ← endings, ih, mem_apply_unsubscribe,
      List.mem_singleton, List.mem_cons]
    tauto

/-- The subscriptions of batches bring the topics of the batches into a set and no others. -/
theorem mem_replay_subscriptions {batches : List (List String)} {s : TopicSet} {other : String} :
    other ∈ replay (batches.map subscription) s ↔ other ∈ batches.flatten ∨ other ∈ s := by
  induction batches generalizing s with
  | nil => simp only [List.map_nil, replay_nil, List.flatten_nil, List.not_mem_nil, false_or]
  | cons batch rest ih =>
    rw [List.map_cons, replay_cons, ih, subscription, mem_apply_subscribe, List.map_map,
      List.flatten_cons, List.mem_append]
    simp only [Function.comp_def, List.map_id']
    tauto

/-- An operation appends requests to the queue and tracks exactly what they do. -/
structure Appends (before : Client) (packets : List Packet) (after : Client) : Prop where
  queue : after.queue = before.queue ++ packets
  tracked : after.tracked = replay packets before.tracked

/-- A client that stays as it is has appended nothing. -/
theorem Appends.refl (c : Client) : Appends c [] c := ⟨(List.append_nil _).symm, rfl⟩

/-- A single request fails and changes nothing, or it queues its packet and tracks what that
does. -/
theorem send_single {request : Request} {packet : Packet} (hp : request.packet? = some packet)
    (c : Client) :
    (∃ error, Bus.send request c = (.error error, c)) ∨
      Bus.send request c =
        (.ok (), { c with queue := c.queue ++ [packet], tracked := packet.apply c.tracked }) := by
  rw [send_eq hp]
  split_ifs
  · exact .inl ⟨_, rfl⟩
  · exact .inl ⟨_, rfl⟩
  · exact .inr rfl

/-- A cut through distinct topics has each of them on one side. -/
theorem mem_drop_iff {topics : List String} (hn : topics.Nodup) (k : ℕ) {topic : String} :
    topic ∈ topics.drop k ↔ topic ∉ topics.take k ∧ topic ∈ topics := by
  have hl := List.take_append_drop k topics
  rw [← hl, List.nodup_append] at hn
  constructor
  · intro h
    exact ⟨fun ht => hn.2.2 _ ht _ h rfl, List.mem_of_mem_drop h⟩
  · rintro ⟨ht, h⟩
    rw [← hl, List.mem_append] at h
    exact h.resolve_left ht

/-- The topics that are tracked again are those whose end was not queued. -/
theorem unsubscribeAll_appends (c : Client) : ∃ packets, Appends c packets c.unsubscribeAll.2 := by
  rw [unsubscribeAll_eq]
  split
  · exact ⟨[], .refl c⟩
  · refine ⟨_, rfl, TopicSet.ext fun topic => ?_⟩
    rw [mem_replay_endings, TopicSet.mem_ofList, TopicSet.mem_toList]
    exact mem_drop_iff c.tracked.nodup_toList c.room

/-- Every request to the client appends to its queue and tracks what it appends. -/
theorem send_appends (request : Request) (c : Client) :
    ∃ packets, Appends c packets (Bus.send request c).2 := by
  by_cases hr : request = .unsubscribeAll
  · subst hr
    exact unsubscribeAll_appends c
  · obtain ⟨packet, hp⟩ := Request.exists_packet hr
    rcases send_single hp c with ⟨error, he⟩ | he
    · rw [he]
      exact ⟨[], .refl c⟩
    · rw [he]
      exact ⟨[packet], rfl, rfl⟩

/-- Subscribing again queues topics that are tracked already, so it tracks nothing new. -/
theorem resubscribe_appends (c : Client) :
    Appends c (((batches c.tracked.toList).take c.room).map subscription) c.resubscribe.2 := by
  rw [resubscribe_eq]
  refine ⟨rfl, TopicSet.ext fun topic => ?_⟩
  rw [mem_replay_subscriptions, flatten_take_batches]
  exact (or_iff_right_of_imp List.mem_of_mem_take).symm

/-- A single request takes no topic from the tracked ones but those whose subscription it ends. -/
theorem mem_tracked_send {topic : String} {request : Request} {packet : Packet} {c : Client}
    (h : topic ∈ c.tracked) (hp : request.packet? = some packet) (he : topic ∉ packet.ended) :
    topic ∈ (Bus.send request c).2.tracked := by
  rcases send_single hp c with ⟨error, hs⟩ | hs
  · rwa [hs]
  · rw [hs]
    exact mem_apply.mpr (.inr ⟨he, h⟩)

/-- A closing appends what it queues and tracks no more than that does. -/
theorem close_appends (c : Client) : ∃ packets, Appends c packets c.close := by
  rw [close_eq]
  split
  · exact ⟨[], .refl c⟩
  · split
    · exact ⟨[], (List.append_nil _).symm, rfl⟩
    · exact ⟨_, rfl, rfl⟩

end Client

end LiveTopology.Bus
