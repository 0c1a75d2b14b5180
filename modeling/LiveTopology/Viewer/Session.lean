import LiveTopology.Json.Printer
import LiveTopology.Relay

/-!
# The session of a viewer

A viewer sends frames on a connection of its own. Every text frame is a command for the bus; one
that is malformed or refused is answered with a JSON object that holds the error, and the session
goes on. Frames of other kinds have no effect, and the session ends with the first that closes the
connection or shows that it is broken.
-/

namespace LiveTopology.Viewer

open Bus

/-- What arrives from a viewer. -/
inductive Frame where
  | text (content : String)
  | binary (content : List UInt8)
  | ping (content : List UInt8)
  | pong (content : List UInt8)
  | close
  /-- A fault of the connection. -/
  | broken
  deriving DecidableEq, Repr

/-- Whether a frame ends the session. -/
def Frame.ends : Frame → Bool
  | .close => true
  | .broken => true
  | _ => false

/-- The text frame that tells a viewer of an error. -/
def errorReply (error : RelayError) : String :=
  (Json.Value.object [("error", .string error.message)]).text

variable {β : Type} [Bus β]

/-- Handles a frame that does not end the session: the reply, if there is one, and the bus. -/
def receive (frame : Frame) (bus : β) : Option String × β :=
  match frame with
  | .text content =>
    let (result, bus) := RelayCommand.handleText content bus
    match result with
    | .ok _ => (none, bus)
    | .error error => (some (errorReply error), bus)
  | _ => (none, bus)

/-- Handles the frames of a session up to its end: all replies in order, and the bus. -/
def run : List Frame → β → List String × β
  | [], bus => ([], bus)
  | frame :: rest, bus =>
    if frame.ends then ([], bus)
    else
      let (reply, bus) := receive frame bus
      let (replies, bus) := run rest bus
      (reply.toList ++ replies, bus)

end LiveTopology.Viewer
