import Scaffold.Artifact.Data

/-!
# Route lines

The lines that the two route files have to hold: for each group of routes one line that makes the
controller known and one that declares the resource.
-/

namespace Scaffold.Template

/-- The lines for the routes to pages. -/
def webRouteLines (routes : RouteSet) : List String :=
  routes.groups.flatMap fun group =>
    [s!"use App\\Http\\Controllers\\{group.controller};",
      s!"Route::resource('{group.path}', {group.controller}::class);"]

/-- How a declaration starts behind the middleware; without one there is nothing to pass. -/
def apiRouteStart (middleware : String) : String :=
  if middleware.isEmpty then "Route::" else s!"Route::middleware('{middleware}')->"

/-- The lines for the routes to the programming interface. -/
def apiRouteLines (middleware : String) (routes : RouteSet) : List String :=
  routes.groups.flatMap fun group =>
    [s!"use App\\Http\\Controllers\\Api\\{group.controller};",
      s!"{apiRouteStart middleware}apiResource('{group.path}', {group.controller}::class);"]

end Scaffold.Template
