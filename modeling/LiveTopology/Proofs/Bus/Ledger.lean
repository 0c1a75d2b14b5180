import LiveTopology.Proofs.Bus.Requests

/-!
# The ledger of accepted requests

A run of a client is any sequence of requests, renewals, closings and departures from the queue.
Its ledger lists every request that the queue accepted, whether it has left since or not. Replaying
the ledger on the topics of the start gives the tracked topics: what is tracked never drifts from
what was sent. A single request that fails leaves no trace at all.
-/

namespace LiveTopology.Bus

/-- What can happen to a client. -/
inductive ClientStep where
  | request (request : Request)
  | resubscribe
  | close
  /-- Requests leave the queue for the broker, the oldest first. -/
  | sent (count : ℕ)
  /-- The connection is given up for good; what was queued is lost with it. -/
  | sever
  deriving DecidableEq, Repr

namespace Client

/-- The client after a step. -/
def after (c : Client) : ClientStep → Client
  | .request request => (Bus.send request c).2
  | .resubscribe => c.resubscribe.2
  | .close => c.close
  | .sent count => { c with queue := c.queue.drop count }
  | .sever => c.sever.2

/-- The client after steps. -/
def run (c : Client) (steps : List ClientStep) : Client := steps.foldl after c

/-- The requests that were put into the queue between two states: those behind the earlier ones. -/
def added (before after : Client) : List Packet := after.queue.drop before.queue.length

/-- Every request that the queue accepts in the course of steps, in order. -/
def accepted (c : Client) : List ClientStep → List Packet
  | [] => []
  | step :: rest => added c (c.after step) ++ (c.after step).accepted rest

theorem run_cons (c : Client) (step : ClientStep) (rest : List ClientStep) :
    c.run (step :: rest) = (c.after step).run rest := rfl

theorem run_append (c : Client) (older newer : List ClientStep) :
    c.run (older ++ newer) = (c.run older).run newer := List.foldl_append

/-- What an operation appends is what it adds. -/
theorem added_of_appends {before after : Client} {packets : List Packet}
    (h : Appends before packets after) : added before after = packets := by
  rw [added, h.queue, List.drop_left]

/-- A step either appends requests and tracks what they do, or it takes requests off the queue and
tracks what it did before. -/
theorem after_cases (c : Client) (step : ClientStep) :
    (∃ packets, Appends c packets (c.after step)) ∨
      (c.after step).queue <:+ c.queue ∧ (c.after step).tracked = c.tracked := by
  cases step with
  | request request => exact .inl (send_appends request c)
  | resubscribe => exact .inl ⟨_, resubscribe_appends c⟩
  | close => exact .inl (close_appends c)
  | sent count => exact .inr ⟨List.drop_suffix count c.queue, rfl⟩
  | sever => exact .inr ⟨List.nil_suffix, rfl⟩

/-- Nothing is added when requests only leave the queue. -/
theorem added_of_suffix {before after : Client} (h : after.queue <:+ before.queue) :
    added before after = [] :=
  List.drop_eq_nil_of_le h.length_le

/-- A single request queues its packet or nothing. -/
theorem mem_added_send {request : Request} {packet other : Packet} {c : Client}
    (hp : request.packet? = some packet) (h : other ∈ added c (Bus.send request c).2) :
    other = packet := by
  rcases send_single hp c with ⟨error, hs⟩ | hs
  · rw [hs, added_of_suffix List.suffix_rfl] at h
    cases h
  · rw [hs, added, List.drop_left] at h
    exact List.mem_singleton.mp h

/-- After a step the tracked topics are what the requests added by it make of those before. -/
theorem tracked_after (c : Client) (step : ClientStep) :
    (c.after step).tracked = replay (added c (c.after step)) c.tracked := by
  rcases after_cases c step with ⟨packets, ha⟩ | ⟨hq, ht⟩
  · rw [added_of_appends ha, ha.tracked]
  · rw [added_of_suffix hq, ht, replay_nil]

/-- The queue holds the latest of the requests that it held or accepted. -/
theorem queue_after_suffix (c : Client) (step : ClientStep) :
    (c.after step).queue <:+ c.queue ++ added c (c.after step) := by
  rcases after_cases c step with ⟨packets, ha⟩ | ⟨hq, _⟩
  · exact ⟨[], by rw [List.nil_append, added_of_appends ha, ha.queue]⟩
  · rw [added_of_suffix hq, List.append_nil]
    exact hq

/-- After steps the tracked topics are what the ledger makes of those before. -/
theorem tracked_run (c : Client) (steps : List ClientStep) :
    (c.run steps).tracked = replay (c.accepted steps) c.tracked := by
  induction steps generalizing c with
  | nil => rfl
  | cons step rest ih => rw [run_cons, ih, tracked_after, accepted, replay_append]

/-- The queue holds the latest of the requests that it held at first or accepted since. -/
theorem queue_run_suffix (c : Client) (steps : List ClientStep) :
    (c.run steps).queue <:+ c.queue ++ c.accepted steps := by
  induction steps generalizing c with
  | nil => exact ⟨[], (List.append_nil c.queue).symm⟩
  | cons step rest ih =>
    rw [run_cons, accepted, ← List.append_assoc]
    obtain ⟨gone, hg⟩ := queue_after_suffix c step
    refine (ih (c.after step)).trans ⟨gone, ?_⟩
    rw [← List.append_assoc, hg]

/-- A single request that fails changes nothing. -/
theorem send_of_error {request : Request} {c : Client} {error : Error}
    (hr : request ≠ .unsubscribeAll) (he : (Bus.send request c).1 = .error error) :
    (Bus.send request c).2 = c := by
  obtain ⟨packet, hp⟩ := Request.exists_packet hr
  rcases send_single hp c with ⟨other, hs⟩ | hs
  · rw [hs]
  · rw [hs] at he
    cases he

/-- At every point of every run the tracked topics are what the ledger makes of the initial ones,
the queue holds the end of the ledger, and a request to subscribe, to unsubscribe or to publish
that fails leaves the client as it was. -/
theorem tracked_eq_replay_accepted (capacity : ℕ) (initial : List String)
    (steps : List ClientStep) :
    let c := (connect capacity initial).run steps
    let ledger := (connect capacity initial).accepted steps
    c.tracked = replay ledger (.ofList initial) ∧ c.queue <:+ ledger ∧
      ∀ request error, request ≠ .unsubscribeAll → (Bus.send request c).1 = .error error →
        (Bus.send request c).2 = c :=
  ⟨tracked_run _ steps, queue_run_suffix (connect capacity initial) steps,
    fun _ _ hr he => send_of_error hr he⟩

/-- A subscription that a full queue refuses leaves the client as it was. -/
theorem tracked_after_full_queue :
    let c := (connect 1 ["a"]).run [.request (.subscribe "a")]
    (Bus.send (.subscribe "b") c).1 = .error (rejection "b") ∧
      (Bus.send (.subscribe "b") c).2 = c :=
  ⟨rfl, (tracked_eq_replay_accepted 1 ["a"] _).2.2 _ (rejection "b") (by decide) rfl⟩

end Client

end LiveTopology.Bus
