import LiveTopology.Proofs.Registry.History

/-!
# What becomes of a message

The outcome of a message is decided by the message and by whether the node that it names is live.
Nothing else of the registry counts, and nothing of the bus.
-/

namespace LiveTopology

open Bus Node

/-- The outcome of an event of a kind, by whether its node is live. -/
def IngestOutcome.ofKind (live : Bool) : Kind → IngestOutcome
  | .start => if live then .duplicateIgnored else .inserted
  | .stop => if live then .removed else .absentRemoveIgnored
  | .unknown => .unknownCommandIgnored

/-- The id that a step names: that of the event in its message, if there is one. -/
def IngestStep.id? : IngestStep → Option String
  | .message topic payload =>
    match normalize topic payload with
    | .error _ => none
    | .ok event => some event.id
  | .reset => none

namespace Registry

/-- A record is inserted exactly if none of that name is there. -/
theorem insert_fst (r : Registry) (record : Record) :
    (r.insert record).1 = !r.contains record.id := by
  rw [insert, contains]
  cases r.index.contains record.id <;> rfl

/-- A record is removed exactly if it is there. -/
theorem remove_fst (r : Registry) (id : String) : (r.remove id).1 = r.contains id := by
  rw [remove, contains, Std.HashMap.contains_eq_isSome_getElem?]
  cases r.index[id]? <;> rfl

/-- The outcome of an event depends on its kind and on whether its node is live. -/
theorem apply_fst (r : Registry) (e : Event) :
    (r.apply e).1 = .ofKind (r.contains e.id) e.kind := by
  rw [apply]
  cases e.kind with
  | start =>
    have hi : (r.insert e.record).1 = !r.contains e.id := r.insert_fst e.record
    dsimp only [IngestOutcome.ofKind]
    rw [hi]
    cases r.contains e.id <;> rfl
  | stop =>
    have hr : (r.remove e.id).1 = r.contains e.id := r.remove_fst e.id
    dsimp only [IngestOutcome.ofKind]
    rw [hr]
  | unknown => rfl

/-- An id is live exactly if it stands. -/
theorem contains_foldl_heed_eq (history : List Notice) (id : String) :
    (history.foldl heed .empty).contains id = (standing? id history).isSome := by
  induction history using List.reverseRecOn with
  | nil => exact Std.HashMap.contains_empty
  | append_singleton history notice ih =>
    rw [List.foldl_concat, contains_heed, ih, standing?_concat]
    cases notice with
    | start record => simp [Notice.ends, Bool.or_comm]
    | stop other => cases Notice.ends id (.stop other) <;> simp [Notice.starts]
    | reset => rfl

/-- The outcome of a step that meets a registry. A reset has none. -/
def outcome? (r : Registry) : IngestStep → Option IngestOutcome
  | .message topic payload =>
    match normalize topic payload with
    | .error cause => some (.dropped cause)
    | .ok event => some (r.apply event).1
  | .reset => none

/-- Two registries make the same of a step if they agree on the node that it names. -/
theorem outcome?_congr {r other : Registry} {step : IngestStep}
    (h : ∀ id, step.id? = some id → r.contains id = other.contains id) :
    r.outcome? step = other.outcome? step := by
  cases step with
  | reset => rfl
  | message topic payload =>
    rw [IngestStep.id?] at h
    rw [outcome?, outcome?]
    cases hn : normalize topic payload with
    | error cause => rfl
    | ok event =>
      rw [hn] at h
      have hl : r.contains event.id = other.contains event.id := h event.id rfl
      dsimp only
      rw [apply_fst, apply_fst, hl]

end Registry

namespace Ingest

variable {β : Type} [Bus β]

/-- What becomes of the message in a step. A reset has no outcome. -/
def outcome? (s : Ingest β) : IngestStep → Option IngestOutcome
  | .message topic payload => some (s.handle topic payload).1
  | .reset => none

/-- A message that is an event has the outcome of the event. -/
theorem handle_fst {s : Ingest β} {topic : String} {payload : List UInt8} {event : Event}
    (h : normalize topic payload = .ok event) :
    (s.handle topic payload).1 = .ofKind (s.registry.contains event.id) event.kind := by
  rw [handle, h]
  exact Registry.apply_fst s.registry event

/-- The registry alone decides what becomes of a message. -/
theorem outcome?_eq (s : Ingest β) (step : IngestStep) :
    s.outcome? step = s.registry.outcome? step := by
  cases step with
  | reset => rfl
  | message topic payload =>
    rw [outcome?, Registry.outcome?, handle]
    cases normalize topic payload <;> rfl

end Ingest

end LiveTopology
