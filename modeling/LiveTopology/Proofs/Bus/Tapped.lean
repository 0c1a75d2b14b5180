import LiveTopology.Bus.Request

/-!
# Listening in on a bus

A tapped bus does what the bus in it does and keeps every request with its outcome. So what reaches
a bus can be told for every bus, whatever it takes and refuses. What makes requests one after the
other leaves the bus behind that `sendAll` leaves, and the tap has heard their `exchanges` by then.
-/

namespace LiveTopology.Bus

/-- A bus with the requests that it has received and what happened to each of them, in order. -/
structure Tapped (β : Type) where
  bus : β
  heard : List (Request × Outcome)

variable {β : Type}

/-- A bus that is tapped from now on. -/
def tap (bus : β) : Tapped β := ⟨bus, []⟩

/-- The requests that a tapped bus has received, in order. -/
def Tapped.requests (t : Tapped β) : List Request := t.heard.map Prod.fst

variable [Bus β]

/-- A tapped bus answers as the bus in it does. -/
instance : Bus (Tapped β) where
  send request t :=
    let (outcome, bus) := send request t.bus
    (outcome, ⟨bus, t.heard ++ [(request, outcome)]⟩)

/-- A tapped bus answers as the bus itself and notes the request with the answer. -/
theorem send_tapped (request : Request) (t : Tapped β) :
    send request t = ((send request t.bus).1,
      ⟨(send request t.bus).2, t.heard ++ [(request, (send request t.bus).1)]⟩) := rfl

/-- The bus after requests. -/
def sendAll (requests : List Request) (bus : β) : β :=
  requests.foldl (fun bus request => (send request bus).2) bus

/-- Requests with what happens to each of them. -/
def exchanges : List Request → β → List (Request × Outcome)
  | [], _ => []
  | request :: rest, bus => (request, (send request bus).1) :: exchanges rest (send request bus).2

theorem sendAll_cons (request : Request) (rest : List Request) (bus : β) :
    sendAll (request :: rest) bus = sendAll rest (send request bus).2 := rfl

/-- The exchanges are about the requests that were sent, in order. -/
theorem exchanges_fst (requests : List Request) (bus : β) :
    (exchanges requests bus).map Prod.fst = requests := by
  induction requests generalizing bus with
  | nil => rfl
  | cons request rest ih => rw [exchanges, List.map_cons, ih]

/-- A tapped bus goes through the states of the bus itself and notes all exchanges. -/
theorem sendAll_tapped (requests : List Request) (t : Tapped β) :
    sendAll requests t = ⟨sendAll requests t.bus, t.heard ++ exchanges requests t.bus⟩ := by
  induction requests generalizing t with
  | nil => rw [exchanges, List.append_nil]; rfl
  | cons request rest ih =>
    rw [sendAll_cons, ih, send_tapped, exchanges, List.append_assoc]
    rfl

/-- A tap hears the requests that are made, and does not change what becomes of the bus. -/
theorem sendAll_tap (requests : List Request) (bus : β) :
    sendAll requests (tap bus) = ⟨sendAll requests bus, exchanges requests bus⟩ :=
  sendAll_tapped requests (tap bus)

end LiveTopology.Bus
