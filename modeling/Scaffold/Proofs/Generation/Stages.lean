import Scaffold.Generation.Basic
import Scaffold.Proofs.Action

/-!
# The stages of a run

A run either stops while it reads, plans or renders (`Stops`), or it has a plan and all of its
outputs before it emits the first of them (`Reaches`). There is nothing else (`stops_or_reaches`),
and in each case it is known what the run comes to, with any storage, planner and renderer.
-/

namespace Scaffold

namespace Generator

section stages

variable {σ : Type} (generator : Generator (StateM σ)) (request : Request) (start : σ)

/-- The run ends before it emits anything, with lines of the report, an error and a state. -/
inductive Stops : List ReportLine → Error → σ → Prop where
  /-- The request cannot be read. -/
  | parse {cause : ParseError} (hdescribe : request.describe = .error cause) :
      Stops [] (.parse cause) start
  /-- The planning fails. -/
  | plan {description : Description} {e : Error} {after : σ}
      (hdescribe : request.describe = .ok description)
      (hplan : perform (generator.planner.plan generator.storage generator.timestamp
        description.root.expand) start = (.error e, after)) :
      Stops (warningLines description) e after
  /-- An artifact of the plan cannot be rendered. -/
  | render {description : Description} {plan : Plan} {e : Error} {after : σ}
      (hdescribe : request.describe = .ok description)
      (hplan : perform (generator.planner.plan generator.storage generator.timestamp
        description.root.expand) start = (.ok plan, after))
      (hrender : renderAll generator.renderer plan.artifacts = .error e) :
      Stops (warningLines description ++ skippedLines plan) e after

/-- The run has a plan and its outputs, and it starts to emit them in the state `planned`. -/
structure Reaches (description : Description) (plan : Plan) (outputs : List (ArtifactKind × Output))
    (planned : σ) : Prop where
  /-- The request can be read. -/
  describes : request.describe = .ok description
  /-- There is a plan. -/
  plans : perform (generator.planner.plan generator.storage generator.timestamp
    description.root.expand) start = (.ok plan, planned)
  /-- All artifacts of the plan can be rendered. -/
  renders : renderAll generator.renderer plan.artifacts = .ok outputs

/-- A run stops before its outputs or reaches them. -/
theorem stops_or_reaches :
    (∃ lines e after, generator.Stops request start lines e after) ∨
      ∃ description plan outputs planned,
        generator.Reaches request start description plan outputs planned := by
  cases hdescribe : request.describe with
  | error cause => exact Or.inl ⟨_, _, _, .parse hdescribe⟩
  | ok description =>
    rcases hplan : perform (generator.planner.plan generator.storage generator.timestamp
      description.root.expand) start with ⟨result, after⟩
    cases result with
    | error e => exact Or.inl ⟨_, _, _, .plan hdescribe hplan⟩
    | ok plan =>
      cases hrender : renderAll generator.renderer plan.artifacts with
      | error e => exact Or.inl ⟨_, _, _, .render hdescribe hplan hrender⟩
      | ok outputs => exact Or.inr ⟨_, _, _, _, hdescribe, hplan, hrender⟩

end stages

/-- The registry after a run that does not fail. -/
def recorded (dryRun : Bool) (registry : Registry) (description : Description) : Registry :=
  if dryRun then registry else registry.record description.name

section run

variable {σ : Type} {generator : Generator (StateM σ)} {request : Request} {start planned after : σ}
  {description : Description} {plan : Plan} {outputs : List (ArtifactKind × Output)}
  {lines : List ReportLine} {e : Error} {dryRun : Bool}

/-- A run goes through if the generation does. -/
theorem run_of_generate_ok {generated : Generated} {registry : Registry}
    (hdescribe : request.describe = .ok description)
    (hgenerate : (generator.generate dryRun description registry).run start =
      ((lines, .ok generated), after)) :
    (generator.run dryRun request registry).run start = (({ lines }, .ok generated), after) := by
  unfold Generator.run
  rw [hdescribe]
  dsimp only
  rw [run_bind hgenerate]
  rfl

/-- A run fails if the generation does, with one line more in its report. -/
theorem run_of_generate_error {registry : Registry} (hdescribe : request.describe = .ok description)
    (hgenerate : (generator.generate dryRun description registry).run start =
      ((lines, .error e), after)) :
    (generator.run dryRun request registry).run start =
      (({ lines := lines ++ [failedLine request e] }, .error e), after) := by
  unfold Generator.run
  rw [hdescribe]
  dsimp only
  rw [run_bind hgenerate]
  rfl

/-- A run that stops early says why, and leaves the state at which it stopped. -/
theorem run_of_stops (h : generator.Stops request start lines e after) (dryRun : Bool)
    (registry : Registry) :
    (generator.run dryRun request registry).run start =
      (({ lines := lines ++ [failedLine request e] }, .error e), after) := by
  cases h with
  | parse hdescribe =>
    unfold Generator.run
    rw [hdescribe]
    rfl
  | plan hdescribe hplan =>
    refine run_of_generate_error hdescribe ?_
    unfold generate
    dsimp only
    rw [run_bind hplan]
    rfl
  | @render description plan e after hdescribe hplan hrender =>
    refine run_of_generate_error hdescribe ?_
    unfold generate carryOut
    dsimp only
    rw [run_bind hplan]
    dsimp only
    rw [hrender]
    change ((warningLines description ++ skippedLines plan ++ [], Except.error e), after) = _
    rw [List.append_nil]

/-- A run that emits its outputs comes to what the emission comes to. -/
theorem generate_of_reaches {result : Except Error Unit} {registry : Registry}
    (h : generator.Reaches request start description plan outputs planned)
    (hemit : (Emission.emitAll generator.storage dryRun [] outputs).run planned =
      ((lines, result), after)) :
    (generator.generate dryRun description registry).run start =
      ((warningLines description ++ skippedLines plan ++ lines,
        result.map fun _ => ⟨plan, recorded dryRun registry description⟩), after) := by
  unfold generate carryOut
  dsimp only
  rw [run_bind h.plans]
  dsimp only
  rw [h.renders]
  dsimp only
  rw [run_bind hemit]
  cases result <;> rfl

/-- A run that reaches its outputs and emits all of them goes through. -/
theorem run_of_reaches_ok (h : generator.Reaches request start description plan outputs planned)
    (hemit : (Emission.emitAll generator.storage dryRun [] outputs).run planned =
      ((lines, .ok ()), after)) (registry : Registry) :
    (generator.run dryRun request registry).run start =
      (({ lines := warningLines description ++ skippedLines plan ++ lines },
        .ok { plan, registry := recorded dryRun registry description }), after) :=
  run_of_generate_ok h.describes (generate_of_reaches h hemit)

/-- A run that reaches its outputs and breaks off there fails. -/
theorem run_of_reaches_error (h : generator.Reaches request start description plan outputs planned)
    (hemit : (Emission.emitAll generator.storage dryRun [] outputs).run planned =
      ((lines, .error e), after)) (registry : Registry) :
    (generator.run dryRun request registry).run start =
      (({ lines := warningLines description ++ skippedLines plan ++ lines ++
        [failedLine request e] }, .error e), after) :=
  run_of_generate_error h.describes (generate_of_reaches h hemit)

end run

end Generator

end Scaffold
