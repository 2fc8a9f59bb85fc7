/-!
# Kinds of artifacts

What is generated for an entity falls into eight kinds. Their order is the order in which they are
planned and written.
-/

namespace Scaffold

/-- A kind of generated artifact. -/
inductive ArtifactKind where
  /-- The class of the entity. -/
  | model
  /-- The migration that creates the entity's table. -/
  | migration
  /-- The form request, which holds the validation rules. -/
  | formRequest
  /-- The controller behind the programming interface. -/
  | apiController
  /-- The controller behind the pages. -/
  | webController
  /-- The lines of the two route files. -/
  | routes
  /-- The pages. -/
  | views
  /-- The layout that the pages share. -/
  | layout
  deriving DecidableEq, Repr, Inhabited

namespace ArtifactKind

/-- The kinds in their order. -/
def all : List ArtifactKind :=
  [.model, .migration, .formRequest, .apiController, .webController, .routes, .views, .layout]

/-- The kind in words. -/
def label : ArtifactKind → String
  | .model => "model"
  | .migration => "migration"
  | .formRequest => "form request"
  | .apiController => "API controller"
  | .webController => "web controller"
  | .routes => "routes"
  | .views => "views"
  | .layout => "layout"

/-- Every kind is in the list of all kinds. -/
theorem mem_all (kind : ArtifactKind) : kind ∈ all := by cases kind <;> decide

/-- The list of all kinds names each of them once. -/
theorem nodup_all : all.Nodup := by decide

end ArtifactKind

end Scaffold
