import LiveTopology.Bus.Recorder
import LiveTopology.Proofs.Bus.Tapped
import LiveTopology.Proofs.Ingest.Requests
import LiveTopology.Proofs.Node.Normalizing
import LiveTopology.Proofs.Registry.History

/-!
# What messages ask of the bus

The requests that ingesting makes are determined by the messages and the policy: each message asks
for what its id and the word of its command call for, or for nothing. What the registry makes of a
message plays no part in it, nor does what became of earlier requests, nor a topic in the payload.
-/

namespace LiveTopology

open Bus Json Node

/-- What the word of a command calls for, when it is about the id of a runtime and was heard on a
topic. -/
def calledFor (followsStops : Bool) (topic id word : String) : Option Request :=
  if word = "rt-start" then some (.subscribe (topic ++ "/" ++ id))
  else if word = "rt-stop" ∧ followsStops then some (.unsubscribe (topic ++ "/" ++ id))
  else none

/-- What a message asks of the bus, if it is an event. -/
def asked? (followsStops : Bool) (topic : String) (payload : List UInt8) : Option Request :=
  match normalize topic payload with
  | .error _ => none
  | .ok event => calledFor followsStops topic event.id event.command.word

/-- What a step asks of the bus. A reset asks for nothing. -/
def IngestStep.asked? (followsStops : Bool) : IngestStep → Option Request
  | .message topic payload => LiveTopology.asked? followsStops topic payload
  | .reset => none

/-- What the policy plans for an event is what the word of its command calls for. -/
theorem plan_request (policy : Policy) {event : Event}
    (hk : event.command = .ofWord event.command.word) :
    (policy.plan event).map Expansion.request =
      calledFor policy.unsubscribeOnStop event.topic event.id event.command.word := by
  rw [Policy.plan, calledFor]
  cases hc : event.command with
  | start role => cases role <;> rfl
  | stop role =>
    cases role with
    | runtime => cases policy.unsubscribeOnStop <;> rfl
    | module | publisher | subscriber => rfl
  | other word =>
    rw [hc] at hk
    have hstart : word ≠ "rt-start" := by
      rintro rfl
      exact absurd hk (by decide)
    have hstop : word ≠ "rt-stop" := by
      rintro rfl
      exact absurd hk (by decide)
    simp [Command.word, hstart, hstop]

/-- What a message makes ingesting do is what it asks. -/
theorem request?_eq_asked? (policy : Policy) (topic : String) (payload : List UInt8) :
    policy.request? topic payload = asked? policy.unsubscribeOnStop topic payload := by
  rw [Policy.request?, asked?]
  cases hn : normalize topic payload with
  | error cause => rfl
  | ok event =>
    obtain ⟨fields, -, ht⟩ := normalize_record_iff.mp ⟨event, hn, rfl⟩
    have hk : event.command = .ofWord event.command.word := ht.known
    dsimp only
    rw [plan_request policy hk, normalize_topic hn]

/-- Of the object in a message, only its two strings have a say. -/
theorem asked?_of_parse {followsStops : Bool} {topic : String} {payload : List UInt8}
    {fields : List (String × Value)} (hp : Json.parse payload = .ok (.object fields)) :
    asked? followsStops topic payload =
      match requiredString "id" fields, requiredString "cmd" fields with
      | .ok id, .ok word => calledFor followsStops topic id word
      | _, _ => none := by
  rw [asked?, Node.normalize, hp]
  dsimp only
  cases hf : Event.ofFields topic fields with
  | error cause =>
    cases ofFields_eq_error_iff.mp hf with
    | notObject h => exact absurd rfl (h fields)
    | id h => rw [requiredString_eq_error_iff.mpr h]
    | command hid h => rw [requiredString_eq_ok_iff.mpr hid, requiredString_eq_error_iff.mpr h]
  | ok event =>
    obtain ⟨hid, ⟨word, hword, hc⟩, -⟩ := ofFields_eq_ok hf
    rw [requiredString_eq_ok_iff.mpr hid, requiredString_eq_ok_iff.mpr hword]
    dsimp only
    rw [hc, word_ofWord]

/-- Messages whose objects have the same id and the same command ask the same on a topic, whatever
else is in them. -/
theorem asked?_congr {followsStops : Bool} {topic : String} {payload other : List UInt8}
    {fields others : List (String × Value)}
    (hp : Json.parse payload = .ok (.object fields)) (ho : Json.parse other = .ok (.object others))
    (hid : Fields.get? "id" fields = Fields.get? "id" others)
    (hcommand : Fields.get? "cmd" fields = Fields.get? "cmd" others) :
    asked? followsStops topic payload = asked? followsStops topic other := by
  rw [asked?_of_parse hp, asked?_of_parse ho]
  simp only [requiredString, hid, hcommand]

namespace Ingest

variable {β : Type} [Bus β]

/-- A step leaves the policy alone. -/
theorem policy_after (s : Ingest β) (step : IngestStep) : (s.after step).policy = s.policy := by
  cases step with
  | message topic payload => exact handle_policy s topic payload
  | reset => rfl

/-- The bus gets the request that a step asks for, and nothing if it asks for none. -/
theorem bus_after (s : Ingest β) (step : IngestStep) :
    (s.after step).bus =
      (step.asked? s.policy.unsubscribeOnStop).elim s.bus fun request =>
        (send request s.bus).2 := by
  cases step with
  | reset => rfl
  | message topic payload =>
    rw [IngestStep.asked?, ← request?_eq_asked?]
    exact handle_bus s topic payload

/-- A run leaves the bus that what its steps ask leaves. -/
theorem bus_run (s : Ingest β) (steps : List IngestStep) :
    (s.run steps).bus =
      sendAll (steps.filterMap (IngestStep.asked? s.policy.unsubscribeOnStop)) s.bus := by
  induction steps generalizing s with
  | nil => rfl
  | cons step rest ih =>
    change ((s.after step).run rest).bus = _
    rw [ih, policy_after, bus_after, List.filterMap_cons]
    cases step.asked? s.policy.unsubscribeOnStop <;> rfl

/-- The requests that a bus receives in the course of messages and resets are what these ask, in
their order and each once, whatever the bus, the policy and the registry are and whatever becomes
of the requests. Listening in changes nothing, and of the object in a message only the id and the
command count. -/
theorem requests_of_run (policy : Policy) (registry : Registry) (bus : β)
    (steps : List IngestStep) :
    let tapped := ((Ingest.mk policy registry (tap bus)).run steps).bus
    tapped.requests = steps.filterMap (IngestStep.asked? policy.unsubscribeOnStop) ∧
      tapped.bus = ((Ingest.mk policy registry bus).run steps).bus ∧
      ∀ topic payload other fields others, Json.parse payload = .ok (.object fields) →
        Json.parse other = .ok (.object others) →
        Fields.get? "id" fields = Fields.get? "id" others →
        Fields.get? "cmd" fields = Fields.get? "cmd" others →
        asked? policy.unsubscribeOnStop topic payload =
          asked? policy.unsubscribeOnStop topic other := by
  intro tapped
  have ht : tapped =
      sendAll (steps.filterMap (IngestStep.asked? policy.unsubscribeOnStop)) (tap bus) :=
    bus_run _ steps
  refine ⟨?_, ?_, fun topic payload other fields others => asked?_congr⟩
  · rw [ht, sendAll_tap, Tapped.requests, exchanges_fst]
  · rw [ht, sendAll_tap, bus_run]

/-- A bus that refuses everything receives a request for a runtime that is announced twice and for
one that stops without having started. A topic in the payload, a malformed message and a reset make
no difference. -/
theorem requests_of_run_refused :
    let message topic text := IngestStep.message topic (Text.bytes text)
    let plain := "\x7b\"id\":\"r1\",\"cmd\":\"rt-start\"\x7d"
    let astray := "\x7b\"id\":\"r1\",\"cmd\":\"rt-start\",\"topic\":\"elsewhere\"\x7d"
    let steps := [message "rt" plain, message "rt" "\x7b\"id\":\"r1\"\x7d", message "rt" astray,
      .reset, message "rt" "\x7b\"id\":\"m1\",\"cmd\":\"module-inst\"\x7d",
      message "rt" "\x7b\"id\":\"r2\",\"cmd\":\"rt-stop\"\x7d"]
    let tapped := ((Ingest.mk ⟨true⟩ .empty (tap (Recorder.mk [] (some ⟨.rejected, none⟩)))).run
      steps).bus
    tapped.requests = [.subscribe "rt/r1", .subscribe "rt/r1", .unsubscribe "rt/r2"] ∧
      asked? true "rt" (Text.bytes plain) = asked? true "rt" (Text.bytes astray) := by
  intro message plain astray steps tapped
  have h := requests_of_run ⟨true⟩ .empty (Recorder.mk [] (some ⟨.rejected, none⟩)) steps
  exact ⟨h.1, h.2.2 "rt" _ _ _ _ rfl rfl rfl rfl⟩

end Ingest

end LiveTopology
