import LiveTopology.CommandLine.Reader
import LiveTopology.Config.Basic
import LiveTopology.Consumer
import LiveTopology.Network.Listener
import LiveTopology.Viewer.Api
import LiveTopology.Viewer.Session

/-!
# The service

The service reads its configuration, prepares a client that is to be subscribed to the topic under
which runtimes announce themselves, and listens for viewers. From then on the consumer takes in
messages and viewers send requests and commands, all to one registry and one client.
-/

namespace LiveTopology

open Bus

/-- Why the service cannot start. -/
inductive StartError where
  | config (error : ConfigError)
  | bind (error : Network.BindError)

/-- The wording of a start error. -/
def StartError.message : StartError → String
  | .config error => error.message
  | .bind error => error.message

/-- The running service. -/
structure Service where
  config : Config
  broker : BrokerAddress
  /-- Where viewers reach the service. -/
  listener : Network.SocketAddress
  consumer : Consumer (Ingest Client)

namespace Service

/-- The registry and the client at the start: nothing is live and the prefix is to be subscribed. -/
def initial (config : Config) : Ingest Client where
  policy := ⟨config.runtime.unsubscribeOnStop⟩
  registry := .empty
  bus := .connect config.mqtt.requestCapacity.toNat [config.runtime.topicPrefix]

/-- Starts the service. `found` is what reading the file of the configuration gave. -/
def start (host : Network.Host) (arguments : CommandLine.ServeArguments)
    (found : Except FileError (List UInt8)) : Except StartError Service := do
  let config ← (Config.load arguments.config found).mapError .config
  let broker ← config.mqtt.broker.mapError .config
  let listener ← (host.bind [] (arguments.bind.getD config.bindAddress)).mapError .bind
  pure ⟨config, broker, listener, .start (initial config)⟩

/-- The registry and the client. -/
def state (s : Service) : Ingest Client := s.consumer.handler

/-- The service with another registry and client. -/
def withState (s : Service) (state : Ingest Client) : Service :=
  { s with consumer := { s.consumer with handler := state } }

/-- What the service reacts to. -/
inductive Input where
  /-- Something for the consumer. -/
  | signal (signal : Signal)
  /-- A request of a viewer. -/
  | http (request : Viewer.HttpRequest)
  /-- A frame of a viewer. -/
  | frame (frame : Viewer.Frame)
  /-- Requests leave the queue for the broker, the oldest first. -/
  | sent (count : Nat)

/-- The service after an input. -/
def after (s : Service) : Input → Service
  | .signal signal => { s with consumer := s.consumer.after signal }
  | .http request =>
    s.withState { s.state with registry := (Viewer.answer request s.state.registry).2 }
  | .frame frame =>
    if frame.ends then s
    else s.withState { s.state with bus := (Viewer.receive frame s.state.bus).2 }
  | .sent count =>
    let client := s.state.bus
    s.withState { s.state with bus := { client with queue := client.queue.drop count } }

/-- The service after inputs. -/
def run (s : Service) (inputs : List Input) : Service := inputs.foldl after s

end Service

/-! ## The program -/

/-- How the program ends at once. -/
structure Exit where
  code : UInt32
  output : String
  errors : String
  deriving DecidableEq, Repr

/-- What becomes of an invocation of the program. -/
inductive Launch where
  | exits (exit : Exit)
  | serves (service : Service)

/-- The end that a usage error makes. -/
def usageExit (environment : CommandLine.Environment) (error : CommandLine.UsageError) : Exit :=
  ⟨2, "", error.text environment⟩

/-- The end that a start error makes. -/
def startExit (error : StartError) : Exit := ⟨1, "", "net-state: " ++ error.message ++ "\n"⟩

/-- Launches the program with the command that serves. -/
def launchService (host : Network.Host) (arguments : CommandLine.ServeArguments)
    (found : Except FileError (List UInt8)) : Launch :=
  match Service.start host arguments found with
  | .ok service => .serves service
  | .error error => .exits (startExit error)

/-- Launches the program. `read` gives the contents of files. -/
def launch (host : Network.Host) (environment : CommandLine.Environment)
    (read : String → Except FileError (List UInt8)) (arguments : List String) : Launch :=
  match CommandLine.read environment arguments with
  | .error error => .exits (usageExit environment error)
  | .ok (.help topic) => .exits ⟨0, CommandLine.help environment topic, ""⟩
  | .ok (.serve arguments) => launchService host arguments (read arguments.config)

end LiveTopology
