import Scaffold.Artifact.Kind
import Scaffold.Path

/-!
# Configuration

Where the generated files go, what guards the programming interface, and which tables the database
has already. Everything has a default.
-/

namespace Scaffold

/-- The places of the generated files, as seen from the root of the project. -/
structure Paths where
  /-- The directory of the models. -/
  models : Path := ⟨"app/Models"⟩
  /-- The directory of the migrations. -/
  migrations : Path := ⟨"database/migrations"⟩
  /-- The directory of the form requests. -/
  requests : Path := ⟨"app/Http/Requests"⟩
  /-- The directory of the controllers behind the pages. -/
  webControllers : Path := ⟨"app/Http/Controllers"⟩
  /-- The directory of the controllers behind the programming interface. -/
  apiControllers : Path := ⟨"app/Http/Controllers/Api"⟩
  /-- The directory above the directories of the pages. -/
  views : Path := ⟨"resources/views"⟩
  /-- The file of the layout. -/
  layout : Path := ⟨"resources/views/layouts/app.blade.php"⟩
  /-- The file of the routes to pages. -/
  webRoutes : Path := ⟨"routes/web.php"⟩
  /-- The file of the routes to the programming interface. -/
  apiRoutes : Path := ⟨"routes/api.php"⟩
  /-- The file of the names generated so far. -/
  registry : Path := ⟨"storage/crud_models.json"⟩
  deriving DecidableEq, Repr, Inhabited

namespace Paths

/-- The directory that holds the files of a kind; routes and layout are single files. -/
def directoryOf (paths : Paths) : ArtifactKind → Option Path
  | .model => some paths.models
  | .migration => some paths.migrations
  | .formRequest => some paths.requests
  | .apiController => some paths.apiControllers
  | .webController => some paths.webControllers
  | .views => some paths.views
  | .routes | .layout => none

end Paths

/-- The configuration of a project. -/
structure Config where
  /-- The places of the generated files. -/
  paths : Paths := {}
  /-- The middleware in front of the programming interface; none if empty. -/
  apiMiddleware : String := "auth:sanctum"
  /-- The tables that the database has already. -/
  existingTables : List String := []
  deriving DecidableEq, Repr, Inhabited

/-- The name of the configuration file in the root of a project. -/
def configFileName : String := "crudforge.toml"

end Scaffold
