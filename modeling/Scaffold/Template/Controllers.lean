import Scaffold.Artifact.Data
import Scaffold.Template.Text

/-!
# Controllers

The text of the two controllers of an entity. Each operation that a controller offers contributes
its methods, in the order of the operations; all but the listing start with a blank line.
-/

namespace Scaffold.Template

/-- The lines, if the controller offers the operation. -/
def offering (controller : Controller) (operation : Operation) (lines : List String) :
    List String :=
  if operation ∈ controller.operations then lines else []

/-- The controller behind the programming interface. -/
def apiControllerText (c : Controller) : String :=
  unlines <|
    ["<?php",
      "",
      "namespace App\\Http\\Controllers\\Api;",
      "",
      "use App\\Http\\Controllers\\Controller;",
      s!"use App\\Http\\Requests\\{c.requestClass};",
      s!"use App\\Models\\{c.model};",
      "",
      s!"class {c.className} extends Controller",
      "\x7b"] ++
    offering c .list
      ["    public function index()",
        "    \x7b",
        s!"        return response()->json({c.model}::all());",
        "    \x7d"] ++
    offering c .create
      ["",
        s!"    public function store({c.requestClass} $request)",
        "    \x7b",
        s!"        ${c.variableName} = {c.model}::create($request->validated());",
        s!"        return response()->json(${c.variableName}, 201);",
        "    \x7d"] ++
    offering c .readOne
      ["",
        s!"    public function show({c.model} ${c.variableName})",
        "    \x7b",
        s!"        return response()->json(${c.variableName});",
        "    \x7d"] ++
    offering c .update
      ["",
        s!"    public function update({c.requestClass} $request, {c.model} ${c.variableName})",
        "    \x7b",
        s!"        ${c.variableName}->update($request->validated());",
        s!"        return response()->json(${c.variableName});",
        "    \x7d"] ++
    offering c .delete
      ["",
        s!"    public function destroy({c.model} ${c.variableName})",
        "    \x7b",
        s!"        ${c.variableName}->delete();",
        "        return response()->json(null, 204);",
        "    \x7d"] ++
    ["\x7d"]

/-- The line that leads back to the list of records. -/
def redirectLine (c : Controller) : String :=
  s!"        return redirect()->route('{c.resource}.index');"

/-- The controller behind the pages. -/
def webControllerText (c : Controller) : String :=
  unlines <|
    ["<?php",
      "",
      "namespace App\\Http\\Controllers;",
      "",
      s!"use App\\Http\\Requests\\{c.requestClass};",
      s!"use App\\Models\\{c.model};",
      "",
      s!"class {c.className} extends Controller",
      "\x7b"] ++
    offering c .list
      ["    public function index()",
        "    \x7b",
        s!"        return view('{c.resource}.index', ['{c.resource}' => {c.model}::all()]);",
        "    \x7d"] ++
    offering c .create
      ["",
        "    public function create()",
        "    \x7b",
        s!"        return view('{c.resource}.create');",
        "    \x7d",
        "",
        s!"    public function store({c.requestClass} $request)",
        "    \x7b",
        s!"        {c.model}::create($request->validated());",
        redirectLine c,
        "    \x7d"] ++
    offering c .readOne
      ["",
        s!"    public function show({c.model} ${c.variableName})",
        "    \x7b",
        s!"        return view('{c.resource}.show', compact('{c.variableName}'));",
        "    \x7d"] ++
    offering c .update
      ["",
        s!"    public function edit({c.model} ${c.variableName})",
        "    \x7b",
        s!"        return view('{c.resource}.edit', compact('{c.variableName}'));",
        "    \x7d",
        "",
        s!"    public function update({c.requestClass} $request, {c.model} ${c.variableName})",
        "    \x7b",
        s!"        ${c.variableName}->update($request->validated());",
        redirectLine c,
        "    \x7d"] ++
    offering c .delete
      ["",
        s!"    public function destroy({c.model} ${c.variableName})",
        "    \x7b",
        s!"        ${c.variableName}->delete();",
        redirectLine c,
        "    \x7d"] ++
    ["\x7d"]

end Scaffold.Template
