import Scaffold.Config.Basic
import Scaffold.Error
import Scaffold.Output
import Scaffold.Plan.Basic
import Scaffold.Template.Classes
import Scaffold.Template.Controllers
import Scaffold.Template.Pages
import Scaffold.Template.Routes

/-!
# Rendering

A renderer turns an artifact into what is to be written. The standard one fills the templates and
puts the files where the configuration says; it never fails.
-/

namespace Scaffold

/-- What an artifact becomes, or why it cannot be written. -/
abbrev Renderer := Artifact → Except Error (List Output)

namespace Template

/-- The file of a class. -/
def classFile (directory : Path) (className content : String) : Output :=
  .file (directory.child (className ++ ".php")) content

/-- The file of a page. -/
def pageFile (directory : Path) (views : ViewSet) (page : ViewPage) : Output :=
  .file ((directory.child views.resource).child (page.fileName ++ ".blade.php"))
    (pageText views page)

/-- What an artifact becomes under a configuration. -/
def outputs (config : Config) : ArtifactData → List Output
  | .model model => [classFile config.paths.models model.className (modelText model)]
  | .migration migration =>
    [.file (config.paths.migrations.child (migration.fileStem ++ ".php"))
      (migrationText migration)]
  | .formRequest request =>
    [classFile config.paths.requests request.className (requestText request)]
  | .apiController controller =>
    [classFile config.paths.apiControllers controller.className (apiControllerText controller)]
  | .webController controller =>
    [classFile config.paths.webControllers controller.className (webControllerText controller)]
  | .routes routes =>
    [.lines config.paths.webRoutes (webRouteLines routes),
      .lines config.paths.apiRoutes (apiRouteLines config.apiMiddleware routes)]
  | .views views => views.pages.map (pageFile config.paths.views views)
  | .layout layout => [.starter config.paths.layout (layoutText layout)]

/-- The standard renderer. -/
def renderer (config : Config) : Renderer :=
  fun artifact => .ok (outputs config artifact.data)

end Template

end Scaffold
