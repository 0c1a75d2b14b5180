/-!
# The address of the broker

An address is a host and a port with a colon between them. The host ends at the first colon and the
port is a decimal number of sixteen bits, before which a plus sign may stand. Faults are looked for
from left to right, so a port is too large as soon as its leading digits are.
-/

namespace LiveTopology

/-- Where the broker is reached. -/
structure BrokerAddress where
  host : String
  port : UInt16
  deriving DecidableEq, Repr

/-- Why a text is no port. -/
inductive PortError where
  | empty
  | invalidDigit
  | tooLarge
  deriving DecidableEq, Repr

/-- The wording of a port error. -/
def PortError.message : PortError → String
  | .empty => "cannot parse integer from empty string"
  | .invalidDigit => "invalid digit found in string"
  | .tooLarge => "number too large to fit in target type"

/-- Why a text is no address. -/
inductive AddressError where
  | noColon
  | emptyHost
  | badPort (error : PortError)
  deriving DecidableEq, Repr

/-- The wording of an address error. -/
def AddressError.message : AddressError → String
  | .noColon => "expected host:port"
  | .emptyHost => "empty host"
  | .badPort error => "port: " ++ error.message

/-- Reads further digits of a port onto the value of those before. -/
def portDigits : (value : Nat) → List Char → Except PortError UInt16
  | value, [] => .ok (UInt16.ofNat value)
  | value, c :: rest =>
    if '0' ≤ c ∧ c ≤ '9' then
      let value := value * 10 + (c.toNat - '0'.toNat)
      if value < 65536 then portDigits value rest else .error .tooLarge
    else .error .invalidDigit

/-- Reads a port. -/
def readPort : List Char → Except PortError UInt16
  | [] => .error .empty
  | '+' :: rest => if rest.isEmpty then .error .invalidDigit else portDigits 0 rest
  | digits => portDigits 0 digits

namespace BrokerAddress

/-- The address that a text denotes. -/
def parse (text : String) : Except AddressError BrokerAddress :=
  let host := text.toList.takeWhile (· ≠ ':')
  match text.toList.dropWhile (· ≠ ':') with
  | [] => .error .noColon
  | _ :: port =>
    if host.isEmpty then .error .emptyHost
    else
      match readPort port with
      | .error error => .error (.badPort error)
      | .ok port => .ok ⟨String.ofList host, port⟩

/-- The text of an address. -/
def text (address : BrokerAddress) : String := address.host ++ ":" ++ toString address.port.toNat

end BrokerAddress

end LiveTopology
