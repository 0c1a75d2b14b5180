import LiveTopology.Bus.Recorder
import LiveTopology.Proofs.Bus.Tapped
import LiveTopology.Proofs.Json.Printing
import LiveTopology.Proofs.Relay
import LiveTopology.Proofs.Service.Wiring

/-!
# The dialogue of a session

A session has two outputs that must stay in step: what the bus receives and what the viewer is told.
Each frame adds to both at most once, and the dialogue of a session says which frame adds what. A
tapped bus hears the requests, so the law holds for every bus.
-/

namespace LiveTopology.Viewer

open Bus Json

/-! ## Replies -/

variable {β : Type} [Bus β]

/-- The replies to a frame come before those to later frames, which meet the bus as it left it. -/
theorem run_cons {frame : Frame} (h : frame.ends = false) (rest : List Frame) (bus : β) :
    run (frame :: rest) bus =
      ((receive frame bus).1.toList ++ (run rest (receive frame bus).2).1,
        (run rest (receive frame bus).2).2) := by
  rw [run, h]
  rfl

/-- A refused command is reported and does not end the session; behind the end nothing counts. -/
example :
    let subscribe := Frame.text "\x7b\"topic\":\"a\",\"action\":\"subscribe\"\x7d"
    let unsubscribe := Frame.text "[\"unsubscribe_all\"]"
    let session := run [subscribe, .ping [], unsubscribe, .close, unsubscribe]
      (tap (Recorder.mk [] (some ⟨.rejected, some ["a"]⟩)))
    session.2.requests = [.subscribe "a", .unsubscribeAll] ∧
      session.1 = ["\x7b\"error\":\"dispatch: a: queue full\"\x7d"] :=
  ⟨rfl, rfl⟩

end LiveTopology.Viewer
