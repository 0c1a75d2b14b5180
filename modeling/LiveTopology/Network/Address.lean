import LiveTopology.Text.Digit

/-!
# Addresses of sockets

An address of the network is 32 or 128 bits wide. The strict form of a socket address is four
decimal numbers with dots between them, or eight groups of hexadecimal digits in brackets, and a
port behind a colon. A host alone may also be written in the older forms with fewer numbers or in
other bases.
-/

namespace LiveTopology.Network

open Text (isDigitOf numeral)

/-- An address of the network. -/
inductive IpAddress where
  | v4 (value : BitVec 32)
  | v6 (value : BitVec 128)
  deriving DecidableEq, Repr

/-- An address with a port. -/
structure SocketAddress where
  ip : IpAddress
  port : UInt16
  deriving DecidableEq, Repr

/-! ## Reading -/

/-- The number that digits of a base write; there must be at least one. -/
def numberOf? (base : Nat) (digits : List Char) : Option Nat :=
  if !digits.isEmpty && digits.all (isDigitOf base) then some (numeral base digits) else none

/-- A number below a bound. -/
def numberBelow? (bound base : Nat) (digits : List Char) : Option Nat :=
  (numberOf? base digits).filter (· < bound)

/-- A port, before which a plus sign may stand. -/
def port? (digits : List Char) : Option UInt16 :=
  let digits := match digits with
    | '+' :: rest => rest
    | digits => digits
  (numberBelow? UInt16.size 10 digits).map UInt16.ofNat

/-- Numbers as the digits of one number. -/
def joined (base : Nat) (parts : List Nat) : Nat :=
  parts.foldl (fun value part => value * base + part) 0

/-- Four decimal numbers below 256, none of them with a leading zero. -/
def dotted? (text : List Char) : Option Nat := do
  let parts ← (text.splitOn '.').mapM fun digits =>
    if 1 < digits.length ∧ digits.head? = some '0' then none else numberBelow? 256 10 digits
  if parts.length = 4 then some (joined 256 parts) else none

/-- Groups of up to four hexadecimal digits with colons between them; the last two may be written
as four decimal numbers. No text has no groups. -/
def groups? (text : List Char) : Option (List Nat) :=
  if text.isEmpty then some []
  else
    let parts := text.splitOn ':'
    match parts.getLast?.bind dotted? with
    | some value => do
      let groups ← parts.dropLast.mapM group?
      some (groups ++ [value / UInt16.size, value % UInt16.size])
    | none => parts.mapM group?
where
  /-- One group. -/
  group? (digits : List Char) : Option Nat :=
    if digits.length ≤ 4 then numberOf? 16 digits else none

/-- The text before the first two colons in a row, and the text behind them. -/
def splitAtGap : (before : List Char) → List Char → Option (List Char × List Char)
  | _, [] => none
  | before, ':' :: ':' :: rest => some (before.reverse, rest)
  | before, c :: rest => splitAtGap (c :: before) rest

/-- Eight groups, of which a run of zeros may be left out between two colons. -/
def grouped? (text : List Char) : Option Nat := do
  let groups ← match splitAtGap [] text with
    | none => groups? text
    | some (before, after) => do
      let first ← groups? before
      let last ← groups? after
      let known := first.length + last.length
      if known < 8 then some (first ++ List.replicate (8 - known) 0 ++ last) else none
  if groups.length = 8 then some (joined UInt16.size groups) else none

/-- A number in the base that its beginning announces. -/
def anyBase? : List Char → Option Nat
  | '0' :: 'x' :: digits => numberOf? 16 digits
  | '0' :: 'X' :: digits => numberOf? 16 digits
  | '0' :: digit :: digits => numberOf? 8 (digit :: digits)
  | digits => numberOf? 10 digits

/-- The older forms of a 32-bit address: up to four numbers, of which the last fills the rest. -/
def loose? (text : List Char) : Option Nat := do
  let parts ← (text.splitOn '.').mapM anyBase?
  let last ← parts.getLast?
  let first := parts.dropLast
  let bound := Nat.pow 256 (4 - first.length)
  if first.length < 4 ∧ first.all (· < 256) ∧ last < bound then
    some (joined 256 first * bound + last)
  else none

/-- The address that a host is, if it is written as one. -/
def hostAddress? (host : List Char) : Option IpAddress :=
  ((loose? host).map fun value => .v4 (BitVec.ofNat 32 value)).or
    ((grouped? host).map fun value => .v6 (BitVec.ofNat 128 value))

/-- The host and the port of a text, at its last colon. -/
def splitPort? (text : List Char) : Option (List Char × List Char) :=
  match text.reverse.dropWhile (· ≠ ':') with
  | [] => none
  | _ :: host => some (host.reverse, (text.reverse.takeWhile (· ≠ ':')).reverse)

/-- The strict form of a socket address. -/
def SocketAddress.parse? (text : List Char) : Option SocketAddress := do
  let (host, digits) ← splitPort? text
  let port ← numberBelow? UInt16.size 10 digits
  let ip : IpAddress ← match host with
    | '[' :: rest =>
      if rest.getLast? = some ']' then
        (grouped? rest.dropLast).map fun value => .v6 (BitVec.ofNat 128 value)
      else none
    | host => (dotted? host).map fun value => .v4 (BitVec.ofNat 32 value)
  some ⟨ip, UInt16.ofNat port⟩

/-! ## Writing -/

/-- The parts of a number in a base, the last `count` of them. -/
def partsOf (base count value : Nat) : List Nat :=
  (List.range count).map fun i => value / Nat.pow base (count - 1 - i) % base

/-- Four numbers with dots between them. -/
def dottedText (value : Nat) : String :=
  String.intercalate "." ((partsOf 256 4 value).map toString)

/-- The longest run of zeros, the first of equals: where it starts and how long it is. -/
def longestGap : (i start length : Nat) → List Nat → (best : Nat × Nat) → Nat × Nat
  | _, start, length, [], best => if best.2 < length then (start, length) else best
  | i, start, length, group :: rest, best =>
    if group = 0 then longestGap (i + 1) (if length = 0 then i else start) (length + 1) rest best
    else longestGap (i + 1) 0 0 rest (if best.2 < length then (start, length) else best)

/-- Groups with colons between them. -/
def groupsText (groups : List Nat) : String :=
  String.intercalate ":" (groups.map fun group => String.ofList (Nat.toDigits 16 group))

/-- The text of an address. -/
def IpAddress.text : IpAddress → String
  | .v4 value => dottedText value.toNat
  | .v6 value =>
    let groups := partsOf UInt16.size 8 value.toNat
    if groups.take 6 = [0, 0, 0, 0, 0, 0xFFFF] then
      "::ffff:" ++ dottedText (value.toNat % UInt32.size)
    else
      let (start, length) := longestGap 0 0 0 groups (0, 0)
      if length < 2 then groupsText groups
      else groupsText (groups.take start) ++ "::" ++ groupsText (groups.drop (start + length))

/-- The text of a socket address. -/
def SocketAddress.text (address : SocketAddress) : String :=
  let host := match address.ip with
    | .v4 _ => address.ip.text
    | .v6 _ => "[" ++ address.ip.text ++ "]"
  host ++ ":" ++ toString address.port.toNat

end LiveTopology.Network
