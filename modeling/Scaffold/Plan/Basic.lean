import Scaffold.Artifact.Data
import Scaffold.Entity.Basic
import Scaffold.Error

/-!
# Plans

A plan lists what will be generated for which entity, and what is left out and why. It is made
before anything is written.
-/

namespace Scaffold

/-- An artifact of an entity. -/
structure Artifact where
  /-- The entity. -/
  entity : Entity
  /-- What the artifact says. -/
  data : ArtifactData
  deriving DecidableEq, Repr, Inhabited

/-- The kind of an artifact. -/
def Artifact.kind (artifact : Artifact) : ArtifactKind :=
  artifact.data.kind

/-- An artifact that is left out. -/
structure Skipped where
  /-- The name of the entity. -/
  entity : String
  /-- The kind of the artifact. -/
  kind : ArtifactKind
  /-- Why it is left out. -/
  reason : String
  deriving DecidableEq, Repr, Inhabited

/-- What will be generated. -/
structure Plan where
  /-- The entities, the root first. -/
  entities : List Entity
  /-- The artifacts, entity by entity. -/
  artifacts : List Artifact
  /-- The artifacts that are left out. -/
  skipped : List Skipped
  deriving DecidableEq, Repr, Inhabited

namespace Plan

/-- The version of the shape of plans. -/
def version : Nat := 1

/-- The plan that generates nothing yet. -/
def empty (entities : List Entity) : Plan where
  entities := entities
  artifacts := []
  skipped := []

/-- The entity that was asked for. -/
def root? (plan : Plan) : Option Entity :=
  plan.entities.head?

/-- The artifacts of one kind. -/
def artifactsOf (plan : Plan) (kind : ArtifactKind) : List Artifact :=
  plan.artifacts.filter fun artifact => artifact.kind == kind

/-- The table that an artifact creates. -/
def tableOf? : ArtifactData → Option String
  | .migration migration => some migration.table
  | _ => none

/-- The plan creates the table. -/
def plansTable (plan : Plan) (table : String) : Bool :=
  plan.artifacts.any fun artifact => tableOf? artifact.data == some table

/-- The plan with one more artifact at its end. -/
def add (plan : Plan) (entity : Entity) (data : ArtifactData) : Plan :=
  { plan with artifacts := plan.artifacts ++ [⟨entity, data⟩] }

/-- The plan with one more artifact left out. -/
def skip (plan : Plan) (entity : Entity) (kind : ArtifactKind) (reason : String) : Plan :=
  { plan with skipped := plan.skipped ++ [⟨entity.name, kind, reason⟩] }

/-- The table of `data`, if the plan creates it already. -/
def takenTable? (plan : Plan) (data : ArtifactData) : Option String :=
  (tableOf? data).filter plan.plansTable

/-- The plan with what a step for `kind` came to: an artifact is added unless it creates a table
again, an error that is not fatal leaves the artifact out. -/
def record (plan : Plan) (entity : Entity) (kind : ArtifactKind) :
    Except Error (Option ArtifactData) → Except Error Plan
  | .ok none => .ok plan
  | .ok (some data) =>
    match plan.takenTable? data with
    | some table => .ok (plan.skip entity kind s!"table '{table}' is already planned")
    | none => .ok (plan.add entity data)
  | .error e =>
    if e.isFatal then .error e else .ok (plan.skip entity kind e.message)

end Plan

end Scaffold
