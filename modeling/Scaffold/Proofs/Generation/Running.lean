import Scaffold.Proofs.Generation.Delivery
import Scaffold.Proofs.Generation.Stages
import Scaffold.Proofs.Plan.Planning

/-!
# Generating in memory

On a project in memory nothing can fail once the request is read: a plan can be made, every artifact
can be rendered, every output can be written. So a generation either refuses its request and leaves
the project as it is (`run_of_describe_error`), or carries out its plan to the end
(`run_of_describe_ok`).
-/

namespace Scaffold

/-! ## Rendering -/

namespace Template

/-- The outputs of the artifacts with their kinds, in order. -/
def entries (config : Config) (artifacts : List Artifact) : List (ArtifactKind × Output) :=
  artifacts.flatMap fun artifact => (outputs config artifact.data).map (artifact.kind, ·)

/-- The standard renderer renders all artifacts. -/
theorem renderAll_renderer (config : Config) (artifacts : List Artifact) :
    Generator.renderAll (renderer config) artifacts = .ok (entries config artifacts) := by
  induction artifacts with
  | nil => rfl
  | cons artifact rest ih =>
    unfold Generator.renderAll
    rw [ih]
    rfl

/-- The outputs of the artifacts, in order. -/
def allOutputs (config : Config) (artifacts : List Artifact) : List Output :=
  artifacts.flatMap fun artifact => outputs config artifact.data

/-- Without their kinds the entries are the outputs. -/
theorem map_snd_entries (config : Config) (artifacts : List Artifact) :
    (entries config artifacts).map Prod.snd = allOutputs config artifacts := by
  unfold entries allOutputs
  rw [List.map_flatMap]
  congr 1
  funext artifact
  rw [List.map_map]
  exact List.map_id _

end Template

/-! ## Running -/

namespace Generator

/-- The generator that works in memory with the standard renderer. -/
def inMemory (config : Config) (planner : Planner (StateM Memory)) (timestamp : Timestamp) :
    Generator (StateM Memory) where
  storage := Memory.storage
  planner := planner
  renderer := Template.renderer config
  timestamp := timestamp

section run

variable {config : Config} {planner : Planner (StateM Memory)} {timestamp : Timestamp}
  {dryRun : Bool} {request : Request} {registry : Registry} {memory after : Memory}

/-- A request that cannot be read changes nothing. -/
theorem run_of_describe_error {cause : ParseError} (hdescribe : request.describe = .error cause) :
    ((inMemory config planner timestamp).run dryRun request registry).run memory =
      (({ lines := [failedLine request (.parse cause)] }, .error (.parse cause)), memory) :=
  run_of_stops (.parse hdescribe) dryRun registry

/-- How a run goes on after the plan was made, if its outputs can be emitted. -/
theorem run_of_emitAll {description : Description} {plan : Plan} {lines : List ReportLine}
    (hdescribe : request.describe = .ok description)
    (hplan : memory.exec (planner.plan Memory.storage timestamp description.root.expand) =
      (.ok plan, memory))
    (hemit : (Emission.emitAll Memory.storage dryRun []
      (Template.entries config plan.artifacts)).run memory = ((lines, .ok ()), after)) :
    ((inMemory config planner timestamp).run dryRun request registry).run memory =
      (({ lines := warningLines description ++ skippedLines plan ++ lines },
        .ok { plan, registry := recorded dryRun registry description }), after) := by
  have hreaches : (inMemory config planner timestamp).Reaches request memory description plan
      (Template.entries config plan.artifacts) memory :=
    ⟨hdescribe, hplan, Template.renderAll_renderer config plan.artifacts⟩
  exact run_of_reaches_ok hreaches hemit registry

/-- A run that reads its request carries out its plan to the end. -/
theorem run_of_describe_ok (config : Config) (memory : Memory) (timestamp : Timestamp)
    (registry : Registry) {description : Description} (hstandard : planner.HasStandardSteps)
    (hdescribe : request.describe = .ok description) :
    ∃ plan, memory.Plans timestamp description.root.expand planner.kinds plan ∧
      ((inMemory config planner timestamp).run false request registry).run memory =
        (({ lines := warningLines description ++ skippedLines plan ++
              Emission.emittedLines memory (Template.entries config plan.artifacts) },
          .ok { plan, registry := registry.record description.name }),
        memory.afterOutputs (Template.allOutputs config plan.artifacts)) := by
  obtain ⟨plan, hplan, hplans⟩ := memory.exec_plan hstandard timestamp description.root.expand
  refine ⟨plan, hplans, ?_⟩
  rw [← Template.map_snd_entries]
  exact run_of_emitAll hdescribe hplan (Emission.run_emitAll memory [] _)

end run

end Generator

end Scaffold
