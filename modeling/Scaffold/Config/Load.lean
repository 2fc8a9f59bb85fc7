import Scaffold.Config.Basic
import Scaffold.FileSystem.Basic
import Scaffold.Toml.Document

/-!
# Loading a configuration

A configuration is a TOML document with up to three records: `paths`, `routes` and `schema`. What is
missing has its default, and what is unknown does not count, as long as it can be read. A record may
be written as a table, or as a list of its members in the order of their names below.

The file is the one that was asked for, which has to be there, or else the one in the root of the
project, if any.
-/

namespace Scaffold

open Toml (Value)

namespace Config

/-! ## Records -/

/-- The members of a record with the given names; other members of a table only have to be readable,
and a date is a record that has none of its members. -/
def recordMembers (names : List String) : Value → Option (List (String × Value))
  | .table members =>
    if members.all fun (key, value) => names.contains key || value.isReadable then some members
    else none
  | .array elements => some (names.zip elements)
  | .dateTime => some []
  | _ => none

/-- What `read` makes of a member; the default if there is none. -/
def member {α : Type} (read : Value → Option α) (default : α) (members : List (String × Value))
    (name : String) : Option α :=
  match members.lookup name with
  | none => some default
  | some value => read value

/-- A text. -/
def readString : Value → Option String
  | .string text => some text
  | _ => none

/-- A path. -/
def readPath (value : Value) : Option Path :=
  (readString value).map Path.mk

/-- A list of texts. -/
def readStrings : Value → Option (List String)
  | .array elements => elements.mapM readString
  | _ => none

/-! ## The parts of a configuration -/

/-- The names of the places, in their order. -/
def pathNames : List String :=
  ["models", "migrations", "requests", "web_controllers", "api_controllers", "views", "layout",
    "web_routes", "api_routes", "registry"]

/-- The places of the generated files. -/
def readPaths (value : Value) : Option Paths := do
  let members ← recordMembers pathNames value
  let place := fun (default : Path) (name : String) => member readPath default members name
  let standard : Paths := {}
  let models ← place standard.models "models"
  let migrations ← place standard.migrations "migrations"
  let requests ← place standard.requests "requests"
  let webControllers ← place standard.webControllers "web_controllers"
  let apiControllers ← place standard.apiControllers "api_controllers"
  let views ← place standard.views "views"
  let layout ← place standard.layout "layout"
  let webRoutes ← place standard.webRoutes "web_routes"
  let apiRoutes ← place standard.apiRoutes "api_routes"
  let registry ← place standard.registry "registry"
  return { models, migrations, requests, webControllers, apiControllers, views, layout, webRoutes,
           apiRoutes, registry }

/-- The middleware, from the record that holds it. -/
def readMiddleware (default : String) (value : Value) : Option String := do
  member readString default (← recordMembers ["api_middleware"] value) "api_middleware"

/-- The existing tables, from the record that holds them. -/
def readTables (value : Value) : Option (List String) := do
  member readStrings [] (← recordMembers ["existing_tables"] value) "existing_tables"

/-- The configuration that a document describes. -/
def ofDocument (text : String) : Option Config := do
  let document ← Toml.read text
  let members ← recordMembers ["paths", "routes", "schema"] (.table document)
  let standard : Config := {}
  let paths ← member readPaths standard.paths members "paths"
  let apiMiddleware ←
    member (readMiddleware standard.apiMiddleware) standard.apiMiddleware members "routes"
  let existingTables ← member readTables standard.existingTables members "schema"
  return { paths, apiMiddleware, existingTables }

/-! ## Files -/

variable {m : Type → Type} [Monad m]

/-- The configuration in the file at `path`; `none` if nothing is there. -/
def load (files : FileSystem m) (path : Path) : ExceptT Error m (Option Config) :=
  ExceptT.mk do
    if ← files.isThere path then
      match ← (files.readText path).run with
      | .error fault => return .error (.io path fault)
      | .ok text =>
        match ofDocument text with
        | some config => return .ok (some config)
        | none => return .error (.config s!"failed to parse {path.text}")
    else return .ok none

/-- The configuration of the project in the directory `root`: from the file that was asked for, else
from the file in the root, else the default. -/
def resolve (files : FileSystem m) (root : Path) (asked : Option Path) :
    ExceptT Error m Config := do
  match asked with
  | some path =>
    match ← load files path with
    | some config => return config
    | none => throw (.config s!"config file not found: {path.text}")
  | none => return (← load files (root.child configFileName)).getD {}

end Config

end Scaffold
