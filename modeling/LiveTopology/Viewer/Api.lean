import LiveTopology.Node.Record
import LiveTopology.Registry

/-!
# The interface for viewers

Viewers read all nodes, forget all nodes, or open a connection for commands. Each resource knows
some methods; a request with another method is told which they are. A connection for commands is
only opened for a request that asks for it in every header that matters.
-/

namespace LiveTopology.Viewer

open Node

/-- A request of a viewer. -/
structure HttpRequest where
  method : String
  /-- The path with what may follow a question mark. -/
  target : String
  headers : List (String × String)
  deriving DecidableEq, Repr

/-- A response. The content of a response to `HEAD` is counted but not sent. -/
structure HttpResponse where
  status : Nat
  contentType : Option String
  allow : Option String
  content : Option String
  deriving DecidableEq, Repr

/-- A response with text. -/
def plainText (status : Nat) (content : String) : HttpResponse :=
  ⟨status, some "text/plain; charset=utf-8", none, some content⟩

/-- A response without content. -/
def empty (status : Nat) (allow : Option String) : HttpResponse := ⟨status, none, allow, none⟩

/-- What becomes of a request. -/
inductive Answer where
  | response (response : HttpResponse)
  /-- The connection carries frames from now on. -/
  | upgraded (key : String)
  deriving DecidableEq, Repr

/-- The path of a request. -/
def HttpRequest.path (request : HttpRequest) : String :=
  String.ofList (request.target.toList.takeWhile (· ≠ '?'))

/-- The value of a header; the case of its name does not matter. -/
def HttpRequest.header? (request : HttpRequest) (name : String) : Option String :=
  (request.headers.find? fun header => header.1.toLower = name).map Prod.snd

/-- Whether a text occurs within another. -/
def occursIn (part : List Char) : List Char → Bool
  | [] => part.isEmpty
  | c :: rest => part.isPrefixOf (c :: rest) || occursIn part rest

/-- The answer to a request for a connection for commands: the first thing that is missing decides
the refusal. -/
def upgrade (request : HttpRequest) : Answer :=
  let lower (name : String) : String := ((request.header? name).map String.toLower).getD ""
  if request.method ≠ "GET" then
    .response (plainText 405 "Request method must be `GET`")
  else if !occursIn "upgrade".toList (lower "connection").toList then
    .response (plainText 400 "Connection header did not include 'upgrade'")
  else if lower "upgrade" ≠ "websocket" then
    .response (plainText 400 "`Upgrade` header did not include 'websocket'")
  else
    match request.header? "sec-websocket-key" with
    | none => .response (plainText 400 "`Sec-WebSocket-Key` header missing")
    | some key =>
      if lower "sec-websocket-version" ≠ "13" then
        .response (plainText 400 "`Sec-WebSocket-Version` header did not include '13'")
      else .upgraded key

/-- Answers a request. -/
def answer (request : HttpRequest) (registry : Registry) : Answer × Registry :=
  let all : HttpResponse :=
    ⟨200, some "application/json", none, some (snapshotText registry.snapshot)⟩
  if request.path = "/net-state" then
    match request.method with
    | "GET" => (.response all, registry)
    | "HEAD" => (.response all, registry)
    | "DELETE" => (.response (empty 204 none), registry.clear)
    | _ => (.response (empty 405 (some "GET,HEAD,DELETE")), registry)
  else if request.path = "/ws" then
    match request.method with
    | "GET" => (upgrade request, registry)
    | "HEAD" => (upgrade request, registry)
    | _ => (.response (empty 405 (some "GET,HEAD")), registry)
  else (.response (empty 404 none), registry)

end LiveTopology.Viewer
