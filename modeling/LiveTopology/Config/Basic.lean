import LiveTopology.Config.BrokerAddress
import LiveTopology.Files
import LiveTopology.Toml.Excerpt
import LiveTopology.Toml.Reader
import LiveTopology.Toml.Schema

/-!
# The configuration of the service

The configuration is a TOML document. Only the topic under which runtimes announce themselves must
be given; every other setting has a default that does not depend on the others.
-/

namespace LiveTopology

open Toml

/-- The settings of the connection to the broker. -/
structure MqttSection where
  /-- The address of the broker as it was written. -/
  serverAddress : String
  clientId : String
  keepaliveSeconds : UInt64
  /-- How many requests the client's queue holds. -/
  requestCapacity : UInt64
  deriving DecidableEq, Repr

/-- The settings of the connection to the broker where nothing is said about it. -/
def MqttSection.standard : MqttSection := ⟨"localhost:1883", "net-state", 60, 64⟩

/-- The settings about runtimes. -/
structure RuntimeSection where
  /-- The topic under which runtimes announce themselves. -/
  topicPrefix : String
  /-- Whether the topic of a runtime is unsubscribed when it stops. -/
  unsubscribeOnStop : Bool
  deriving DecidableEq, Repr

/-- All settings. -/
structure Config where
  apiHost : String
  apiPort : UInt16
  mqtt : MqttSection
  runtime : RuntimeSection
  deriving DecidableEq, Repr

/-! ## The forms of the sections -/

/-- An item as a number of 64 bits. -/
def asWord (kind : String) (item : Item) : Except DataError UInt64 :=
  (item.asNatural UInt64.size kind).map UInt64.ofNat

/-- The form of the section about the broker. -/
def MqttSection.schema : Schema MqttSection MqttSection where
  name := "MqttSection"
  start := .standard
  fields :=
    [⟨"server_address", fun item s => do
        let address ← item.asString
        pure { s with serverAddress := address }⟩,
      ⟨"client_id", fun item s => do
        let id ← item.asString
        pure { s with clientId := id }⟩,
      ⟨"keepalive_secs", fun item s => do
        let seconds ← asWord "u64" item
        pure { s with keepaliveSeconds := seconds }⟩,
      ⟨"request_capacity", fun item s => do
        let capacity ← asWord "usize" item
        pure { s with requestCapacity := capacity }⟩]
  finish := .ok

/-- What is known of the settings about runtimes: the topic may still be missing. -/
structure RuntimeDraft where
  topicPrefix : Option String
  unsubscribeOnStop : Bool

/-- The form of the section about runtimes. -/
def RuntimeSection.schema : Schema RuntimeDraft RuntimeSection where
  name := "RuntimeSection"
  start := ⟨none, false⟩
  fields :=
    [⟨"topic_prefix", fun item s => do
        let topic ← item.asString
        pure { s with topicPrefix := some topic }⟩,
      ⟨"unsubscribe_on_stop", fun item s => do
        let flag ← item.asBool
        pure { s with unsubscribeOnStop := flag }⟩]
  finish s :=
    match s.topicPrefix with
    | none => .error "topic_prefix"
    | some topic => .ok ⟨topic, s.unsubscribeOnStop⟩

/-- What is known of the settings: the section about runtimes may still be missing. -/
structure ConfigDraft where
  apiHost : String
  apiPort : UInt16
  mqtt : MqttSection
  runtime : Option RuntimeSection

/-- The form of the whole document. -/
def Config.schema : Schema ConfigDraft Config where
  name := "ServerConfig"
  start := ⟨"0.0.0.0", 5000, .standard, none⟩
  fields :=
    [⟨"api_host", fun item s => do
        let host ← item.asString
        pure { s with apiHost := host }⟩,
      ⟨"api_port", fun item s => do
        let port ← item.asNatural UInt16.size "u16"
        pure { s with apiPort := UInt16.ofNat port }⟩,
      ⟨"mqtt", fun item s => do
        let mqtt ← MqttSection.schema.read item
        pure { s with mqtt := mqtt }⟩,
      ⟨"runtime", fun item s => do
        let runtime ← RuntimeSection.schema.read item
        pure { s with runtime := some runtime }⟩]
  finish s :=
    match s.runtime with
    | none => .error "runtime"
    | some runtime => .ok ⟨s.apiHost, s.apiPort, s.mqtt, runtime⟩

/-! ## Reading -/

/-- Why a text is no configuration. -/
inductive DocumentError where
  /-- It is no TOML document. -/
  | malformed (error : SyntaxError)
  /-- An item of the document is not what it should be. -/
  | unfit (error : DataError)

/-- The wording of a document error with the part of the text that it is about. -/
def DocumentError.shown (text : String) : DocumentError → String
  | .malformed error => excerpt text.toList error.span error.message
  | .unfit error => excerpt text.toList error.span error.message

/-- Why there is no usable configuration. -/
inductive ConfigError where
  | unreadable (path : String) (error : FileError)
  | unparsable (path text : String) (error : DocumentError)
  | brokerAddress (address : String) (error : AddressError)

/-- What was being done when an error occurred. -/
def ConfigError.context : ConfigError → String
  | .unreadable _ _ => "read"
  | .unparsable _ _ _ => "parse"
  | .brokerAddress _ _ => "mqtt.server_address"

/-- What is wrong. -/
def ConfigError.detail : ConfigError → String
  | .unreadable path error => "'" ++ path ++ "': " ++ error.message
  | .unparsable path text error => "'" ++ path ++ "': " ++ error.shown text
  | .brokerAddress address error => "'" ++ address ++ "': " ++ error.message

/-- The wording of a configuration error. -/
def ConfigError.message (e : ConfigError) : String :=
  "config (" ++ e.context ++ "): " ++ e.detail

/-- The settings in an item that is a whole document. -/
def Config.ofItem (item : Item) : Except DataError Config := schema.read item

/-- The settings that a text writes. -/
def Config.parse (text : String) : Except DocumentError Config :=
  match Toml.parse text.toList with
  | .error error => .error (.malformed error)
  | .ok item => (ofItem item).mapError .unfit

/-- The settings in the file at a path, of which the content or a refusal was found. -/
def Config.load (path : String) (found : Except FileError (List UInt8)) :
    Except ConfigError Config :=
  match found.bind textOf with
  | .error error => .error (.unreadable path error)
  | .ok text => (parse text).mapError (.unparsable path text)

/-- The address on which the service is to listen. -/
def Config.bindAddress (c : Config) : String := c.apiHost ++ ":" ++ toString c.apiPort.toNat

/-- The address of the broker. -/
def MqttSection.broker (s : MqttSection) : Except ConfigError BrokerAddress :=
  (BrokerAddress.parse s.serverAddress).mapError (.brokerAddress s.serverAddress)

end LiveTopology
