import LiveTopology.Proofs.Bus.Requests

/-!
# Agreement of client and broker after a reconnect

While a session is up whose renewal fitted into the queue, the queued requests turn the broker's
subscriptions into the tracked topics. A session starts from nothing with an old queue, and what the
old queue does on its own must not bring back a topic that is no longer tracked. Hence the second,
weaker invariant, which needs no session: whatever end of the queue is replayed from the empty set,
only tracked topics come out.
-/

namespace LiveTopology.Bus

/-- Every end of the queue, replayed from the empty set, stays within the tracked topics. -/
def Client.Bounded (c : Client) : Prop :=
  ∀ older newer, c.queue = older ++ newer → replay newer .empty ⊆ c.tracked

namespace Client

/-- The whole queue of a bounded client stays within its tracked topics. -/
theorem Bounded.queue {c : Client} (h : Bounded c) : replay c.queue .empty ⊆ c.tracked :=
  h [] c.queue rfl

/-- Appended requests keep the bound: an end of the longer queue is an end of the shorter one with
the new requests behind it, or an end of the new requests alone. -/
theorem Bounded.appends {before after : Client} {packets : List Packet} (h : Bounded before)
    (ha : Appends before packets after) : Bounded after := by
  intro older newer hq
  rw [ha.queue, List.append_eq_append_iff] at hq
  rw [ha.tracked]
  rcases hq with ⟨middle, -, hp⟩ | ⟨middle, hm, hn⟩
  · rw [hp, replay_append]
    exact replay_subset_replay newer (TopicSet.empty_subset _)
  · rw [hn, replay_append]
    exact replay_subset_replay packets (h older middle hm)

/-- Requests that leave at the front of the queue keep the bound. -/
theorem Bounded.drop {c : Client} (h : Bounded c) (count : ℕ) :
    Bounded { c with queue := c.queue.drop count } := by
  intro older newer hq
  change c.queue.drop count = older ++ newer at hq
  refine h (c.queue.take count ++ older) newer ?_
  rw [List.append_assoc, ← hq, List.take_append_drop]

/-- All batches were queued exactly if there was room for all. -/
theorem sent_eq_length_iff (c : Client) :
    c.resubscribe.1 = (batches c.tracked.toList).length ↔
      (batches c.tracked.toList).length ≤ c.room := by
  rw [resubscribe_eq]
  exact inf_eq_left

/-- A queue that stays within the tracked topics, followed by a complete renewal, makes exactly the
tracked topics out of nothing. -/
theorem replay_resubscribe {c : Client} (h : Bounded c)
    (hr : (batches c.tracked.toList).length ≤ c.room) :
    replay c.resubscribe.2.queue .empty = c.resubscribe.2.tracked := by
  rw [resubscribe_eq]
  dsimp only
  rw [List.take_of_length_le hr, replay_append]
  refine TopicSet.ext fun topic => ?_
  rw [mem_replay_subscriptions, flatten_batches]
  exact or_iff_left_of_imp (h.queue topic)

end Client

namespace Link

/-- A client that has not yet been connected. -/
def start (capacity : ℕ) (initial : List String) : Link := ⟨.connect capacity initial, none⟩

/-- The state of a link that all its steps keep. -/
structure Consistent (link : Link) : Prop where
  bounded : link.client.Bounded
  agrees : ∀ session, link.session = some session → session.renewed = true →
    replay link.client.queue session.topics = link.client.tracked

/-- A link is consistent before anything has happened. -/
theorem consistent_start (capacity : ℕ) (initial : List String) :
    (start capacity initial).Consistent where
  bounded older newer hq := by
    obtain ⟨-, rfl⟩ := List.append_eq_nil_iff.mp hq.symm
    exact TopicSet.empty_subset _
  agrees session hs := by cases hs

/-- A request keeps a link consistent. -/
theorem Consistent.request {link : Link} (h : link.Consistent) (request : Request) :
    (link.after (.request request)).Consistent := by
  obtain ⟨packets, ha⟩ := Client.send_appends request link.client
  refine ⟨h.bounded.appends ha, fun session hs hr => ?_⟩
  change replay (send request link.client).2.queue session.topics =
    (send request link.client).2.tracked
  rw [ha.queue, ha.tracked, replay_append, h.agrees session hs hr]

/-- A delivered request acts on the broker's subscriptions instead of waiting to do so. -/
theorem Consistent.deliver {link : Link} (h : link.Consistent) :
    (link.after .deliver).Consistent := by
  rw [after]
  split
  · rename_i session packet rest hs hq
    refine ⟨?_, fun other ho hr => ?_⟩
    · have hd := h.bounded.drop 1
      rwa [hq] at hd
    · cases ho
      have ha := h.agrees session hs hr
      rwa [hq, replay_cons] at ha
  · exact h

/-- An interruption keeps a link consistent, however much of the queue is lost with it. -/
theorem Consistent.interrupt {link : Link} (h : link.Consistent) (lost : ℕ) :
    (link.after (.interrupt lost)).Consistent :=
  ⟨h.bounded.drop lost, fun _ hs => by cases hs⟩

/-- A new session keeps a link consistent. -/
theorem Consistent.establish {link : Link} (h : link.Consistent) :
    (link.after .establish).Consistent := by
  refine ⟨h.bounded.appends (Client.resubscribe_appends link.client), fun session hs hr => ?_⟩
  -- The new session has no subscriptions, so the agreement follows from the bound alone.
  cases hs
  have hc := (Client.sent_eq_length_iff link.client).mp (of_decide_eq_true hr)
  exact Client.replay_resubscribe h.bounded hc

/-- Every step keeps a link consistent. -/
theorem Consistent.after {link : Link} (h : link.Consistent) (step : LinkStep) :
    (link.after step).Consistent := by
  cases step with
  | request request => exact h.request request
  | deliver => exact h.deliver
  | interrupt lost => exact h.interrupt lost
  | establish => exact h.establish

/-- Every run keeps a link consistent. -/
theorem Consistent.run {link : Link} (h : link.Consistent) (steps : List LinkStep) :
    (link.run steps).Consistent := by
  induction steps generalizing link with
  | nil => exact h
  | cons step rest ih => exact ih (h.after step)

/-- In every session whose renewal the queue accepted in full, the requests that are still queued
turn the broker's subscriptions into the tracked topics. Once the queue is empty both are the
same: no subscription is lost and none is stale. -/
theorem broker_agrees_with_tracked (capacity : ℕ) (initial : List String) (steps : List LinkStep)
    (session : Session) (connected : ((start capacity initial).run steps).session = some session)
    (renewed : session.renewed = true) :
    let client := ((start capacity initial).run steps).client
    replay client.queue session.topics = client.tracked ∧
      (client.queue = [] → session.topics = client.tracked) := by
  have ha := ((consistent_start capacity initial).run steps).agrees session connected renewed
  refine ⟨ha, fun hq => ?_⟩
  rwa [hq, replay_nil] at ha

/-- A topic that was dropped while its renewal was still queued does not come back: the connection
breaks, the end of its subscription outlives the break, and a new session starts. -/
theorem broker_agrees_after_stale_renewal :
    let steps : List LinkStep := [.establish, .request (.unsubscribe "a"), .interrupt 1,
      .request (.subscribe "b"), .establish, .deliver]
    ((start 4 ["a"]).run steps).session = some ⟨.empty, true⟩ ∧
      replay ((start 4 ["a"]).run steps).client.queue .empty =
        ((start 4 ["a"]).run steps).client.tracked :=
  ⟨by decide, (broker_agrees_with_tracked 4 ["a"] _ ⟨.empty, true⟩ (by decide) rfl).1⟩

end Link

end LiveTopology.Bus
