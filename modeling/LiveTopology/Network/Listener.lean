import LiveTopology.Network.Address

/-!
# Listening on an address

An address is given as text. It is either the strict form of a socket address or a host, which may
have to be looked up, and a port. Port zero asks for any free port. What the host of the program
allows is given beforehand: which addresses are its own, and whether connections may be opened and
ports chosen.
-/

namespace LiveTopology.Network

/-- What the host of a program allows it. -/
structure Host where
  /-- Whether connections to others may be opened. -/
  connects : Bool
  /-- Whether a program may listen on a port of its choice. -/
  choosesPorts : Bool
  /-- The addresses of names. -/
  lookup : String → Option IpAddress

/-- The name by which a host knows itself. -/
def localNames (name : String) : Option IpAddress :=
  if name = "localhost" then some (.v4 (BitVec.ofNat 32 0x7F000001)) else none

/-- A host that opens no connections and leaves no choice of ports. -/
def Host.isolated : Host := ⟨false, false, localNames⟩

/-- A host without such limits. -/
def Host.unrestricted : Host := ⟨true, true, localNames⟩

/-- Whether an address belongs to every host: it is that of the host itself or stands for all of
its addresses. -/
def IpAddress.isOwn : IpAddress → Bool
  | .v4 value => value = 0 || value.toNat / 0x1000000 = 127
  | .v6 value => value = 0 || value = 1

/-- Why a program cannot listen. -/
inductive BindCause where
  | invalidAddress
  | invalidPort
  | unknownHost
  | accessDenied
  | addressInUse
  /-- The address belongs to another host. -/
  | foreignAddress
  deriving DecidableEq, Repr

/-- The wording of a cause. -/
def BindCause.message : BindCause → String
  | .invalidAddress => "invalid socket address"
  | .invalidPort => "invalid port value"
  | .unknownHost => "failed to lookup address information: Name or service not known"
  | .accessDenied => "Permission denied (os error 13)"
  | .addressInUse => "Address already in use (os error 98)"
  | .foreignAddress => "Cannot assign requested address (os error 99)"

/-- A text on which a program cannot listen. -/
structure BindError where
  address : String
  cause : BindCause
  deriving DecidableEq, Repr

/-- The wording of a bind error. -/
def BindError.message (e : BindError) : String :=
  "bind api " ++ e.address ++ ": " ++ e.cause.message

/-- The socket address that a text denotes. -/
def Host.resolve (host : Host) (text : String) : Except BindCause SocketAddress :=
  match SocketAddress.parse? text.toList with
  | some address => .ok address
  | none =>
    match splitPort? text.toList with
    | none => .error .invalidAddress
    | some (name, digits) =>
      match port? digits with
      | none => .error .invalidPort
      | some port =>
        match (hostAddress? name).or (host.lookup (String.ofList name)) with
        | none => .error .unknownHost
        | some ip => .ok ⟨ip, port⟩

/-- The ports that are given to those who leave the choice. -/
def freePorts : List UInt16 := (List.range' 32768 28232).map UInt16.ofNat

/-- The address on which a program listens, where some addresses are taken. -/
def Host.listen (host : Host) (taken : List SocketAddress) (address : SocketAddress) :
    Except BindCause SocketAddress :=
  if address.port = 0 then
    if address.ip.isOwn then
      match freePorts.find? fun port => taken.all fun other => other.port ≠ port with
      | some port => .ok { address with port := port }
      | none => .error .addressInUse
    else .error .foreignAddress
  else if !host.choosesPorts then .error .accessDenied
  else if !address.ip.isOwn then .error .foreignAddress
  else if taken.contains address then .error .addressInUse
  else .ok address

/-- Listens on the address that a text denotes. -/
def Host.bind (host : Host) (taken : List SocketAddress) (text : String) :
    Except BindError SocketAddress :=
  ((host.resolve text).bind (host.listen taken)).mapError fun cause => ⟨text, cause⟩

end LiveTopology.Network
