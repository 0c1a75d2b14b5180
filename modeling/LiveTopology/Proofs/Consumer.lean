import LiveTopology.Consumer
import LiveTopology.Proofs.Bus.Requests
import LiveTopology.Proofs.Registry.History

/-!
# The calls of the consumer

Until the order to stop is seen, every event of the connection makes the consumer call its handler
once or not at all, in the order of the events. The order makes it close the client. From then on
no signal reaches the handler any more. So the calls are determined by the events before the order,
and the handler, whatever it is, is left as these calls leave it.
-/

namespace LiveTopology

open Bus

/-- The call that an event of the connection asks for. -/
def LinkEvent.call? : LinkEvent → Option Call
  | .connected => some .resubscribe
  | .message topic payload => some (.onMessage topic payload)
  | .disconnectSent | .other | .failed => none

/-- What an event of the connection brings to the registry. -/
def LinkEvent.step? : LinkEvent → Option IngestStep
  | .message topic payload => some (.message topic payload)
  | .connected | .disconnectSent | .other | .failed => none

section

variable {σ : Type} [Handler σ]

/-- Makes calls, one after the other. -/
def Call.makeAll (calls : List Call) (handler : σ) : σ :=
  calls.foldl (fun handler call => call.make handler) handler

/-- Calls are made one after the other, so those of a longer list follow those of its start. -/
theorem makeAll_append (older newer : List Call) (handler : σ) :
    Call.makeAll (older ++ newer) handler = Call.makeAll newer (Call.makeAll older handler) :=
  List.foldl_append

/-- A handler that records its calls has recorded the calls that were made. -/
theorem makeAll_recorded (calls earlier : List Call) :
    Call.makeAll calls earlier = earlier ++ calls := by
  induction calls generalizing earlier with
  | nil => exact (List.append_nil earlier).symm
  | cons call rest ih =>
    have hc : Call.make call earlier = earlier ++ [call] := by cases call <;> rfl
    change Call.makeAll rest (call.make earlier) = _
    rw [ih, hc, List.append_assoc, List.singleton_append]

namespace Consumer

theorem run_append (c : Consumer σ) (older newer : List Signal) :
    c.run (older ++ newer) = (c.run older).run newer := List.foldl_append

/-- A running consumer makes the call that an event asks for, and runs on. -/
theorem after_event (handler : σ) (event : LinkEvent) :
    Consumer.after ⟨.running, handler⟩ (.event event) =
      ⟨.running, event.call?.elim handler fun call => call.make handler⟩ := by
  cases event <;> rfl

/-- As long as only events come, the consumer runs on and makes the calls of these events. -/
theorem run_events (handler : σ) (events : List LinkEvent) :
    (Consumer.start handler).run (events.map Signal.event) =
      ⟨.running, Call.makeAll (events.filterMap LinkEvent.call?) handler⟩ := by
  induction events generalizing handler with
  | nil => rfl
  | cons event rest ih =>
    change (Consumer.after ⟨.running, handler⟩ (.event event)).run _ = _
    rw [after_event, List.filterMap_cons]
    cases event.call? with
    | none => exact ih handler
    | some call => exact ih (call.make handler)

/-- A consumer that runs no more leaves its handler alone, and never runs again. -/
theorem after_stopped {c : Consumer σ} (h : c.phase ≠ .running) (signal : Signal) :
    (c.after signal).handler = c.handler ∧ (c.after signal).phase ≠ .running := by
  obtain ⟨phase, handler⟩ := c
  cases phase with
  | running => exact absurd rfl h
  | draining =>
    cases signal with
    | event event => cases event <;> exact ⟨rfl, nofun⟩
    | stop | timeout => exact ⟨rfl, nofun⟩
  | finished => cases signal <;> exact ⟨rfl, nofun⟩

/-- A consumer that was told to stop makes no more calls, whatever comes, and does not run again. -/
theorem run_stopped {c : Consumer σ} (h : c.phase ≠ .running) (signals : List Signal) :
    (c.run signals).handler = c.handler ∧ (c.run signals).phase ≠ .running := by
  induction signals generalizing c with
  | nil => exact ⟨rfl, h⟩
  | cons signal rest ih =>
    obtain ⟨hh, hp⟩ := after_stopped h signal
    obtain ⟨hr, hq⟩ := ih hp
    exact ⟨hr.trans hh, hq⟩

/-- With the order to stop, the client is closed and the calls end. -/
theorem run_stop (handler : σ) (events : List LinkEvent) (later : List Signal) :
    let c := (Consumer.start handler).run (events.map Signal.event ++ .stop :: later)
    c.handler = Call.makeAll (events.filterMap LinkEvent.call? ++ [.close]) handler ∧
      c.phase ≠ .running := by
  intro c
  let made := Call.makeAll (events.filterMap LinkEvent.call?) handler
  have hc : c = Consumer.run ⟨.draining, Handler.close made⟩ later := by
    have hr := run_events handler events
    rw [show c = _ from run_append _ _ _, hr]
    rfl
  have hs : Phase.draining ≠ Phase.running := nofun
  rw [makeAll_append, hc]
  exact run_stopped hs later

end Consumer

end

/-! ## The registry with its client -/

/-- What becomes of the registry depends on nothing but the registry. -/
theorem registry_run_congr {s t : Ingest Client} (h : s.registry = t.registry)
    (steps : List IngestStep) : (s.run steps).registry = (t.run steps).registry := by
  rw [Ingest.registry_run, Ingest.registry_run, h]

/-- Of the calls, only the messages count for the registry. -/
theorem registry_makeAll (s : Ingest Client) (events : List LinkEvent) :
    (Call.makeAll (events.filterMap LinkEvent.call?) s).registry =
      (s.run (events.filterMap LinkEvent.step?)).registry := by
  induction events generalizing s with
  | nil => rfl
  | cons event rest ih =>
    cases event with
    | message topic payload => exact ih (s.handle topic payload).2
    | connected =>
      have hr : (Handler.resubscribe s).registry = s.registry := rfl
      exact (ih (Handler.resubscribe s)).trans (registry_run_congr hr _)
    | disconnectSent | other | failed => exact ih s

namespace Consumer

/-- Closing queues a disconnect or nothing. -/
theorem exists_disconnect (c : Client) :
    c.close.closed = true ∧
      ∃ packets, (packets = [] ∨ packets = [.disconnect]) ∧ c.close.queue = c.queue ++ packets := by
  rw [Client.close_eq]
  split_ifs with hc
  · exact ⟨hc, [], .inl rfl, (List.append_nil _).symm⟩
  · exact ⟨rfl, [], .inl rfl, (List.append_nil _).symm⟩
  · exact ⟨rfl, [.disconnect], .inr rfl, rfl⟩

/-- The calls of a consumer are those for which the events before the order to stop ask, in their
order and each once, and the closing of the client. Whatever the handler is, it is left as these
calls leave it, and whatever becomes of it afterwards, no further signal changes it. The registry
is left as the messages before the order leave it, the client is closed, and the order queues a
disconnect or nothing. -/
theorem calls_until_stop {σ : Type} [Handler σ] (handler : σ) (s : Ingest Client)
    (events : List LinkEvent) (later : List Signal) :
    let heard := events.map Signal.event
    let signals := heard ++ .stop :: later
    let calls := events.filterMap LinkEvent.call?
    let stopped := (Consumer.start handler).run signals
    let before := ((Consumer.start s).run heard).handler
    let final := ((Consumer.start s).run signals).handler
    (((Consumer.start ([] : List Call)).run heard).handler = calls ∧
      ((Consumer.start ([] : List Call)).run signals).handler = calls ++ [.close]) ∧
    (stopped.handler = Call.makeAll (calls ++ [.close]) handler ∧
      ∀ (changed : σ) (signal : Signal),
        (Consumer.after ⟨stopped.phase, changed⟩ signal).handler = changed) ∧
    final.registry = (s.run (events.filterMap LinkEvent.step?)).registry ∧
      final.bus.closed = true ∧
      ∃ packets, (packets = [] ∨ packets = [.disconnect]) ∧
        final.bus.queue = before.bus.queue ++ packets := by
  intro heard signals calls stopped before final
  have hbefore : before = Call.makeAll calls s := congrArg Consumer.handler (run_events s events)
  have hfinal : final = Handler.close before := by
    rw [hbefore]
    exact (run_stop s events later).1.trans (makeAll_append calls [.close] s)
  -- A handler that does nothing but record its calls shows which they are.
  have hrecorded (made : List Call) : Call.makeAll made ([] : List Call) = made :=
    makeAll_recorded made []
  refine ⟨⟨?_, ?_⟩, ⟨(run_stop handler events later).1, fun changed signal => ?_⟩, ?_, ?_⟩
  · rw [run_events]
    exact hrecorded calls
  · exact (run_stop [] events later).1.trans (hrecorded _)
  · have hs : (⟨stopped.phase, changed⟩ : Consumer σ).phase ≠ .running :=
      (run_stop handler events later).2
    exact (after_stopped hs signal).1
  · rw [hfinal, ← registry_makeAll, ← hbefore]
    rfl
  · rw [hfinal]
    exact exists_disconnect before.bus

end Consumer

end LiveTopology
