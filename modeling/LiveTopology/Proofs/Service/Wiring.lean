import LiveTopology.Proofs.Bus.Ledger
import LiveTopology.Proofs.Ingest.Requests
import LiveTopology.Service

/-!
# What inputs of the service do to its client

Messages of the bus and frames of viewers reach one client. An input makes at most one step of it:
a message the request that its event calls for, a frame the request of its command, the start of a
session the renewal of the subscriptions. The ledger of the client thus extends to the service.
-/

namespace LiveTopology

open Bus

/-- The request that a frame of a viewer makes. -/
def Viewer.Frame.request? : Viewer.Frame → Option Request
  | .text content =>
    match RelayCommand.parse content with
    | .error _ => none
    | .ok command => some command.request
  | _ => none

/-- A frame does to the bus what its request does, and nothing if it makes none. -/
theorem receive_bus {β : Type} [Bus β] (frame : Viewer.Frame) (bus : β) :
    (Viewer.receive frame bus).2 = frame.request?.elim bus fun request => (send request bus).2 := by
  cases frame with
  | text content =>
    rw [Viewer.receive, RelayCommand.handleText, Viewer.Frame.request?]
    cases hp : RelayCommand.parse content with
    | error error => rfl
    | ok command =>
      dsimp only [RelayCommand.forward]
      cases ho : (send command.request bus).1 <;> rfl
  | binary | ping | pong | close | broken => rfl

/-- A frame that ends the session makes no request. -/
theorem request?_of_ends {frame : Viewer.Frame} (h : frame.ends = true) :
    frame.request? = none := by
  cases frame with
  | close | broken => rfl
  | text | binary | ping | pong => cases h

namespace Service

/-- The service as it begins to serve. -/
def launched (config : Config) (broker : BrokerAddress) (listener : Network.SocketAddress) :
    Service :=
  ⟨config, broker, listener, .start (initial config)⟩

/-- Every service that starts begins in this way. -/
theorem eq_launched_of_start {host : Network.Host} {arguments : CommandLine.ServeArguments}
    {found : Except FileError (List UInt8)} {s : Service}
    (h : start host arguments found = .ok s) : s = launched s.config s.broker s.listener := by
  obtain ⟨config, -, h⟩ := exists_of_bind_eq_ok h
  obtain ⟨broker, -, h⟩ := exists_of_bind_eq_ok h
  obtain ⟨listener, -, h⟩ := exists_of_bind_eq_ok h
  injection h with h
  subst h
  rfl

/-- The step of the client that an input makes. -/
def step? (s : Service) : Input → Option ClientStep
  | .signal signal =>
    match s.consumer.phase, signal with
    | .running, .event .connected => some .resubscribe
    | .running, .event (.message topic payload) =>
      (s.state.policy.request? topic payload).map .request
    | .running, .stop => some .close
    | _, _ => none
  | .http _ => none
  | .frame frame => frame.request?.map .request
  | .sent count => some (.sent count)

/-- A signal does to the client what its step does, and nothing if it makes none. -/
theorem bus_after_signal (s : Service) (signal : Signal) :
    (s.after (.signal signal)).state.bus =
      (s.step? (.signal signal)).elim s.state.bus s.state.bus.after := by
  obtain ⟨config, broker, listener, phase, handler⟩ := s
  cases signal with
  | event event =>
    cases phase with
    | running =>
      cases event with
      | message topic payload =>
        change (handler.handle topic payload).2.bus =
          ((handler.policy.request? topic payload).map ClientStep.request).elim
            handler.bus handler.bus.after
        rw [handle_bus]
        cases handler.policy.request? topic payload <;> rfl
      | connected | disconnectSent | other | failed => rfl
    | draining => cases event <;> rfl
    | finished => rfl
  | stop => cases phase <;> rfl
  | timeout => cases phase <;> rfl

/-- An input does to the client what its step does, and nothing if it makes none. -/
theorem bus_after (s : Service) (input : Input) :
    (s.after input).state.bus = (s.step? input).elim s.state.bus s.state.bus.after := by
  cases input with
  | signal signal => exact bus_after_signal s signal
  | http request => rfl
  | sent count => rfl
  | frame frame =>
    rw [after, step?]
    split
    · rename_i he
      rw [request?_of_ends he]
      rfl
    · change (Viewer.receive frame s.state.bus).2 = _
      rw [receive_bus]
      cases frame.request? <;> rfl

/-- The steps of the client that inputs make, in order. -/
def steps (s : Service) : List Input → List ClientStep
  | [] => []
  | input :: rest => (s.step? input).toList ++ (s.after input).steps rest

theorem run_cons (s : Service) (input : Input) (rest : List Input) :
    s.run (input :: rest) = (s.after input).run rest := rfl

/-- The client of a service runs through the steps of the inputs. -/
theorem bus_run (s : Service) (inputs : List Input) :
    (s.run inputs).state.bus = s.state.bus.run (s.steps inputs) := by
  induction inputs generalizing s with
  | nil => rfl
  | cons input rest ih =>
    rw [run_cons, ih, bus_after, steps, Client.run_append]
    cases s.step? input <;> rfl

/-! ## Before the order to stop -/

/-- A service that has not been told to stop and follows the policy of its configuration. -/
structure Serving (s : Service) (config : Config) : Prop where
  running : s.consumer.phase = .running
  policy : s.state.policy = ⟨config.runtime.unsubscribeOnStop⟩

/-- A service serves from the beginning. -/
theorem serving_launched (config : Config) (broker : BrokerAddress)
    (listener : Network.SocketAddress) : Serving (launched config broker listener) config :=
  ⟨rfl, rfl⟩

/-- A service that was started serves with its configuration. -/
theorem serving_of_start {host : Network.Host} {arguments : CommandLine.ServeArguments}
    {found : Except FileError (List UInt8)} {s : Service}
    (h : start host arguments found = .ok s) : Serving s s.config := by
  rw [eq_launched_of_start h]
  exact serving_launched s.config s.broker s.listener

/-- A service goes on serving after every input but the order to stop. -/
theorem Serving.after {s : Service} {config : Config} (h : Serving s config) {input : Input}
    (hi : input ≠ .signal .stop) : Serving (s.after input) config := by
  cases input with
  | http request => exact ⟨h.running, h.policy⟩
  | sent count => exact ⟨h.running, h.policy⟩
  | frame frame =>
    rw [Service.after]
    split
    · exact h
    · exact ⟨h.running, h.policy⟩
  | signal signal =>
    obtain ⟨_, _, _, phase, handler⟩ := s
    obtain ⟨rfl, hp⟩ := h
    cases signal with
    | event event =>
      cases event with
      | message topic payload => exact ⟨rfl, (handle_policy handler topic payload).trans hp⟩
      | connected | disconnectSent | other | failed => exact ⟨rfl, hp⟩
    | stop => exact absurd rfl hi
    | timeout => exact ⟨rfl, hp⟩

/-- A service goes on serving as long as it is not told to stop. -/
theorem Serving.run {s : Service} {config : Config} (h : Serving s config) {inputs : List Input}
    (hi : .signal .stop ∉ inputs) : Serving (s.run inputs) config := by
  induction inputs generalizing s with
  | nil => exact h
  | cons input rest ih =>
    rw [List.mem_cons, not_or] at hi
    exact ih (h.after (Ne.symm hi.1)) hi.2

end Service

end LiveTopology
