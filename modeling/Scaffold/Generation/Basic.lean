import Scaffold.Entity.Expansion
import Scaffold.Generation.Emission
import Scaffold.Generation.Request
import Scaffold.Plan.Planner
import Scaffold.Registry
import Scaffold.Renderer

/-!
# Generation

From a request to files in five stages: the request is read, the entities are found, the plan is
made, all artifacts are rendered, and only then the outputs are written. Nothing is written before
the last stage, so whatever fails earlier leaves the project as it was.

Whether it ends well or not, a generation answers with a report: a warning for each relation that
was passed over, a line for each artifact that was left out, a line for each output, and at the end,
if it failed, a line that says why.
-/

namespace Scaffold

/-- What a generation works with. -/
structure Generator (m : Type → Type) where
  /-- The place that is written to. -/
  storage : Storage m
  /-- The planner. -/
  planner : Planner m
  /-- The renderer. -/
  renderer : Renderer
  /-- The time of the migrations. -/
  timestamp : Timestamp

/-- What a generation comes to, if it does not fail. -/
structure Generated where
  /-- The plan that was carried out. -/
  plan : Plan
  /-- The names generated so far. -/
  registry : Registry
  deriving DecidableEq, Repr, Inhabited

namespace Generator

/-! ## Lines of the report -/

/-- The warnings for the relations that were passed over. -/
def warningLines (description : Description) : List ReportLine :=
  description.rejected.map fun relation =>
    ⟨.warning, none, description.name, some (Error.unknownRelation relation).message⟩

/-- The lines for the artifacts that were left out. -/
def skippedLines (plan : Plan) : List ReportLine :=
  plan.skipped.map fun skipped =>
    ⟨.skipped, some skipped.kind, skipped.entity, some skipped.reason⟩

/-- The line for a request that failed. -/
def failedLine (request : Request) (e : Error) : ReportLine :=
  ⟨.failed, none, Text.trim request.entity, some e.message⟩

/-! ## Stages -/

/-- The outputs of the artifacts, with their kinds. -/
def renderAll (renderer : Renderer) :
    List Artifact → Except Error (List (ArtifactKind × Output))
  | [] => .ok []
  | artifact :: rest => do
    let outputs ← renderer artifact
    let more ← renderAll renderer rest
    return outputs.map (artifact.kind, ·) ++ more

variable {m : Type → Type} [Monad m]

/-- Carries out a plan: renders all of it, then writes it, or looks at it in a dry run. -/
def carryOut (generator : Generator m) (dryRun : Bool) (plan : Plan) :
    m (List ReportLine × Except Error Unit) :=
  match renderAll generator.renderer plan.artifacts with
  | .error e => return ([], .error e)
  | .ok outputs => Emission.emitAll generator.storage dryRun [] outputs

/-- Generates what a description asks for: the lines of the report, and how it ended. -/
def generate (generator : Generator m) (dryRun : Bool) (description : Description)
    (registry : Registry) : m (List ReportLine × Except Error Generated) := do
  let entities := description.root.expand
  match ← (generator.planner.plan generator.storage generator.timestamp entities).run with
  | .error e => return (warningLines description, .error e)
  | .ok plan =>
    let (lines, result) ← generator.carryOut dryRun plan
    let lines := warningLines description ++ skippedLines plan ++ lines
    match result with
    | .error e => return (lines, .error e)
    | .ok () =>
      let registry := if dryRun then registry else registry.record description.name
      return (lines, .ok { plan, registry })

/-- Generates what a request asks for, or says in a dry run what would be generated. -/
def run (generator : Generator m) (dryRun : Bool) (request : Request) (registry : Registry) :
    m (Report × Except Error Generated) := do
  match request.describe with
  | .error cause =>
    return ({ lines := [failedLine request (.parse cause)] }, .error (.parse cause))
  | .ok description =>
    let (lines, result) ← generator.generate dryRun description registry
    match result with
    | .error e => return ({ lines := lines ++ [failedLine request e] }, .error e)
    | .ok generated => return ({ lines }, .ok generated)

end Generator

end Scaffold
