import Scaffold.Artifact.Data
import Scaffold.Plan.Step
import Scaffold.Template.Text
import Scaffold.Text.Case

/-!
# Pages

The text of the four pages of an entity and of the layout around them.
-/

namespace Scaffold.Template

/-! ## Fields on pages -/

/-- A record's value of a field. -/
def fieldOf (item field : String) : String :=
  s!"${item}->{field}"

/-- The value of a field after a form was refused, or else that of the record. -/
def oldValue (item field : String) : String :=
  s!"old('{field}', {fieldOf item field} ?? '')"

/-- The lines in which the value of a field is entered. -/
def inputLines (item : String) (field : ViewField) : List String :=
  match field.input with
  | .choice values =>
    let value := echo "$val"
    let label := echo "ucfirst($val)"
    let selected := echo (oldValue item field.name ++ " == $val ? 'selected' : ''")
    [s!"                <select class='form-control' name='{field.name}'>",
      s!"                    @foreach([{quotedList values}] as $val)",
      s!"                        <option value='{value}' {selected}>{label}</option>",
      "                    @endforeach",
      "                </select>"]
  | .multiLine =>
    [s!"                <textarea class='form-control' name='{field.name}'>" ++
      echo (oldValue item field.name) ++ "</textarea>"]
  | .singleLine =>
    [s!"                <input class='form-control' type='text' name='{field.name}' value='" ++
      echo (oldValue item field.name) ++ "'>"]

/-- The lines of a form in which a field is entered. -/
def formFieldLines (item : String) (field : ViewField) : List String :=
  ["            <div class='mb-3'>",
    s!"                <label class='form-label'>{field.label}</label>"] ++
  inputLines item field ++
  ["            </div>"]

/-! ## Pages -/

/-- How every page starts. -/
def pageStart : List String :=
  [s!"@extends('{layoutView}')", "", "@section('content')"]

/-- The list of all records. -/
def listPage (views : ViewSet) : List String :=
  let item := views.itemVariable
  let address := fun action => recordUrl views.resource action item
  pageStart ++
  ["    <div class='container mt-4'>",
    s!"        <h2 class='mb-4'>{views.title} List</h2>",
    "        <table class='table table-bordered table-striped'>",
    "            <thead class='thead-dark'>",
    "                <tr>"] ++
  (views.fields.map fun field => s!"                    <th>{field.label}</th>") ++
  ["                    <th>Actions</th>",
    "                </tr>",
    "            </thead>",
    "            <tbody>",
    s!"                @foreach (${views.collectionVariable} as ${item})",
    "                    <tr>"] ++
  (views.fields.map fun field =>
    s!"                        <td>{echo (fieldOf item field.name)}</td>") ++
  ["                        <td>",
    "                            <a href='" ++ address "show" ++
      "' class='btn btn-sm btn-info'>View</a>",
    "                            <a href='" ++ address "edit" ++
      "' class='btn btn-sm btn-primary'>Edit</a>",
    "                            <form action='" ++ address "destroy" ++
      "' method='POST' class='d-inline'>",
    "                                @csrf",
    "                                @method('DELETE')",
    "                                <button type='submit' class='btn btn-sm btn-danger'" ++
      " onclick='return confirm(\"Are you sure?\")'>Delete</button>",
    "                            </form>",
    "                        </td>",
    "                    </tr>",
    "                @endforeach",
    "            </tbody>",
    "        </table>",
    "    </div>",
    "@endsection"]

/-- A page with a form that is sent to `url`, where `method` are the lines that change the way of
sending it. -/
def formPage (views : ViewSet) (url : String) (method : List String) (button : String) :
    List String :=
  pageStart ++
  ["    <div class='container'>",
    s!"        <form class='form-control' method='POST' action='{url}'>",
    "            @csrf"] ++
  method ++
  views.fields.flatMap (formFieldLines views.itemVariable) ++
  ["",
    s!"            <button class='btn btn-primary mt-4' type='submit'>{button}</button>",
    "        </form>",
    "    </div>",
    "@endsection"]

/-- One record. -/
def detailPage (views : ViewSet) : List String :=
  pageStart ++
  ["    <div class='container'>"] ++
  (views.fields.map fun field =>
    s!"        <p><strong>{field.label}:</strong> " ++
      echo (fieldOf views.itemVariable field.name) ++ "</p>") ++
  ["    </div>",
    "@endsection"]

/-- The lines of a page. -/
def pageLines (views : ViewSet) : ViewPage → List String
  | .list => listPage views
  | .create => formPage views (routeUrl views.resource "store") [] "Save"
  | .edit =>
    formPage views (recordUrl views.resource "update" views.itemVariable)
      ["            @method('PUT')"] "Update"
  | .detail => detailPage views

/-- The text of a page. -/
def pageText (views : ViewSet) (page : ViewPage) : String :=
  unlines (pageLines views page)

/-! ## The layout -/

/-- The name of a resource as the navigation shows it. -/
def resourceLabel (resource : String) : String :=
  Text.capitalize (resource.map fun c => if c = '_' then ' ' else c)

/-- The way to a resource in the navigation. -/
def navigationLine (resource : String) : String :=
  "                <li class=\"nav-item\"><a class=\"nav-link\" href='" ++
    routeUrl resource "index" ++ "'>" ++ resourceLabel resource ++ "</a></li>"

/-- The text of the layout. -/
def layoutText (layout : Layout) : String :=
  let appName := echo "config('app.name', 'Laravel')"
  let home := echo "url('/')"
  unlines <|
    ["<!DOCTYPE html>",
      "<html lang=\"en\">",
      "<head>",
      "    <meta charset=\"utf-8\">",
      "    <meta name=\"viewport\" content=\"width=device-width, initial-scale=1\">",
      s!"    <title>{appName}</title>",
      "    <link href=\"https://cdn.jsdelivr.net/npm/bootstrap@5.3.3/dist/css/" ++
        "bootstrap.min.css\" rel=\"stylesheet\">",
      "</head>",
      "<body>",
      "    <nav class=\"navbar navbar-expand-md navbar-light bg-white shadow-sm\">",
      "        <div class=\"container\">",
      s!"            <a class=\"navbar-brand\" href=\"{home}\">{appName}</a>",
      "            <ul class=\"navbar-nav me-auto\">"] ++
    layout.navigation.map navigationLine ++
    ["            </ul>",
      "        </div>",
      "    </nav>",
      "",
      "    <main class=\"py-4\">",
      "        @yield('content')",
      "    </main>",
      "</body>",
      "</html>"]

end Scaffold.Template
