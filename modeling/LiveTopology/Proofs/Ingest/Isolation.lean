import LiveTopology.Bus.Client
import LiveTopology.Proofs.Ingest.Outcomes
import LiveTopology.Relay

/-!
# The bus cannot influence the registry

The registry shares its bus with viewers, and the two are changed by one engine: a message changes
both, a reset the registry, a command of a viewer the bus, and the bus also changes by itself. What
is seen of the registry in the course of a run is a function of the messages and resets alone. So it
is the same for any two runs that have these in common, whatever their buses are and do.
-/

namespace LiveTopology

open Bus Node

/-- What can happen to a registry and the bus that it shares with viewers. -/
inductive EngineStep (β : Type) where
  /-- A message arrives, or a viewer resets the registry. -/
  | ingest (step : IngestStep)
  /-- A viewer sends a command. -/
  | command (text : String)
  /-- The bus changes for any other reason. -/
  | bus (change : β → β)

/-- The message or the reset in a step, if there is one. -/
def EngineStep.ingested? {β : Type} : EngineStep β → Option IngestStep
  | .ingest step => some step
  | .command _ | .bus _ => none

/-- The messages and resets in the course of steps. -/
def ingested {β : Type} (steps : List (EngineStep β)) : List IngestStep :=
  steps.filterMap EngineStep.ingested?

/-- What is ingested of steps is found step by step. -/
theorem ingested_cons {β : Type} (step : EngineStep β) (rest : List (EngineStep β)) :
    ingested (step :: rest) = step.ingested?.elim (ingested rest) (· :: ingested rest) := by
  rw [ingested, List.filterMap_cons]
  cases step.ingested? <;> rfl

/-- What is seen of the registry at a message or a reset: its outcome, if it is a message, and the
nodes that are served right after it. -/
structure Sight where
  outcome : Option IngestOutcome
  served : List Entry

namespace Registry

/-- The registry after a message or a reset. -/
def after (r : Registry) (step : IngestStep) : Registry := step.notice?.elim r r.heed

/-- What is seen of a registry that takes in messages and resets and has no bus. -/
def sights (r : Registry) : List IngestStep → List Sight
  | [] => []
  | step :: rest => ⟨r.outcome? step, (r.after step).snapshot⟩ :: (r.after step).sights rest

end Registry

namespace Ingest

variable {β : Type} [Bus β]

/-- The engine after a step. -/
def advance (s : Ingest β) : EngineStep β → Ingest β
  | .ingest step => s.after step
  | .command text => { s with bus := (RelayCommand.handleText text s.bus).2 }
  | .bus change => { s with bus := change s.bus }

/-- The engine after steps. -/
def advanced (s : Ingest β) (steps : List (EngineStep β)) : Ingest β := steps.foldl advance s

/-- What is seen of the registry in the course of steps, at every message and every reset. -/
def sights (s : Ingest β) : List (EngineStep β) → List Sight
  | [] => []
  | step :: rest =>
    let later := (s.advance step).sights rest
    match step.ingested? with
    | none => later
    | some ingested => ⟨s.outcome? ingested, (s.advance step).fetchAll⟩ :: later

/-- A step changes the registry as its message or reset does, and not at all if it has none. -/
theorem registry_advance (s : Ingest β) (step : EngineStep β) :
    (s.advance step).registry = step.ingested?.elim s.registry s.registry.after := by
  cases step with
  | ingest step => exact registry_after s step
  | command text => rfl
  | bus change => rfl

/-- The registry goes through what is ingested, and commands and the bus do not touch it. -/
theorem registry_advanced (s : Ingest β) (steps : List (EngineStep β)) :
    (s.advanced steps).registry = (ingested steps).foldl Registry.after s.registry := by
  induction steps generalizing s with
  | nil => rfl
  | cons step rest ih =>
    change ((s.advance step).advanced rest).registry = _
    rw [ih, registry_advance, ingested_cons]
    cases step.ingested? <;> rfl

/-- What is seen in the course of steps is what their messages and resets show without a bus. -/
theorem sights_eq (s : Ingest β) (steps : List (EngineStep β)) :
    s.sights steps = s.registry.sights (ingested steps) := by
  induction steps generalizing s with
  | nil => rfl
  | cons step rest ih =>
    have hr := registry_advance s step
    rw [sights, ih, fetchAll, hr, ingested_cons]
    cases step.ingested? with
    | none => rfl
    | some ingested =>
      dsimp only [Option.elim_some]
      rw [outcome?_eq, Registry.sights]

/-- Two runs with the same messages and resets from the same registry show the same outcomes and,
after each message and reset, the same nodes in the same order. The policies, the buses, what is
refused, and the commands of viewers may differ in any way. -/
theorem sights_eq_of_ingested_eq {γ : Type} [Bus γ] (registry : Registry) (policy other : Policy)
    (bus : β) (foreign : γ) (steps : List (EngineStep β)) (others : List (EngineStep γ))
    (same : ingested steps = ingested others) :
    let s := Ingest.mk policy registry bus
    let t := Ingest.mk other registry foreign
    s.sights steps = t.sights others ∧
      (s.advanced steps).registry = (t.advanced others).registry := by
  intro s t
  have hs : s.sights steps = registry.sights (ingested steps) := sights_eq s steps
  have ht : t.sights others = registry.sights (ingested others) := sights_eq t others
  have hr : (s.advanced steps).registry = (ingested steps).foldl Registry.after registry :=
    registry_advanced s steps
  have hq : (t.advanced others).registry = (ingested others).foldl Registry.after registry :=
    registry_advanced t others
  rw [hs, ht, hr, hq, same]
  exact ⟨rfl, rfl⟩

/-- A client whose queue is full and that viewers use and abuse shows what a recorder shows that
refuses everything. -/
theorem sights_eq_over_full_queue :
    let message topic text := IngestStep.message topic (Text.bytes text)
    let start := message "realm/proc" "\x7b\"id\":\"a\",\"cmd\":\"rt-start\"\x7d"
    let stop := message "realm/proc" "\x7b\"id\":\"a\",\"cmd\":\"rt-stop\"\x7d"
    let steps : List (EngineStep Client) := [.command "\x7b\"action\":\"unsubscribe_all\"\x7d",
      .ingest start, .bus Client.close, .command "nonsense", .ingest .reset, .ingest stop]
    let others : List (EngineStep Recorder) := [.ingest start, .ingest .reset,
      .bus fun r => { r with failing := some ⟨.rejected, none⟩ }, .ingest stop]
    ingested steps = ingested others ∧
      (Ingest.mk ⟨true⟩ .empty (Client.connect 0 ["realm/proc"])).sights steps =
        (Ingest.mk ⟨false⟩ .empty (Recorder.mk [] none)).sights others := by
  intro message start stop steps others
  have same : ingested steps = ingested others := rfl
  have h := sights_eq_of_ingested_eq .empty ⟨true⟩ ⟨false⟩ (Client.connect 0 ["realm/proc"])
    (Recorder.mk [] none) steps others same
  exact ⟨same, h.1⟩

end Ingest

end LiveTopology
