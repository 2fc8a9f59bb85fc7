import Scaffold.Artifact.Kind
import Scaffold.Relation.Basic

/-!
# What an artifact says

The content of every kind of artifact, before any text is written: which class, which columns,
which rules. A template turns it into text.
-/

namespace Scaffold

/-! ## Models -/

/-- A method of a model that leads to a related model. -/
structure Accessor where
  /-- The name of the method. -/
  method : String
  /-- The class of the related model. -/
  related : String
  /-- How the model is related to it. -/
  kind : RelationKind
  deriving DecidableEq, Repr, Inhabited

/-- The class of an entity. -/
structure Model where
  /-- The name of the class. -/
  className : String
  /-- The fields that may be filled from a form. -/
  fillable : List String
  /-- The methods that lead to related models. -/
  accessors : List Accessor
  /-- Records are marked as deleted and kept. -/
  softDeletes : Bool
  deriving DecidableEq, Repr, Inhabited

/-! ## Migrations -/

/-- A column of a table, or a group of columns that always come together. -/
inductive Column where
  /-- The key of the table. -/
  | id
  /-- A short text. -/
  | string (name : String)
  /-- A long text, which may be missing. -/
  | text (name : String)
  /-- A whole number. -/
  | integer (name : String)
  /-- A truth value. -/
  | boolean (name : String)
  /-- One of the given values. -/
  | choice (name : String) (values : List String)
  /-- A column of any other type of the database. -/
  | custom (name columnType : String)
  /-- The time of deletion. -/
  | softDeletes
  /-- The times of creation and of the last change. -/
  | timestamps
  deriving DecidableEq, Repr, Inhabited

/-- The migration that creates a table. -/
structure Migration where
  /-- The table. -/
  table : String
  /-- The name of the migration without its time. -/
  logicalName : String
  /-- The name of its file without the ending. -/
  fileStem : String
  /-- The columns of the table. -/
  columns : List Column
  deriving DecidableEq, Repr, Inhabited

/-! ## Form requests -/

/-- What is demanded of the value of a field. -/
inductive Rule where
  /-- A text of at most `max` characters. -/
  | requiredString (max : Nat)
  /-- A text, which may be missing. -/
  | nullableString
  /-- One of the given values. -/
  | requiredIn (values : List String)
  /-- A whole number. -/
  | requiredInteger
  /-- A truth value. -/
  | requiredBoolean
  /-- Any text. -/
  | requiredText
  deriving DecidableEq, Repr, Inhabited

/-- The rule of one field. -/
structure FieldRule where
  /-- The name of the field. -/
  field : String
  /-- What is demanded of its value. -/
  rule : Rule
  deriving DecidableEq, Repr, Inhabited

/-- The form request of an entity. -/
structure FormRequest where
  /-- The name of the class. -/
  className : String
  /-- The rules of the fields. -/
  rules : List FieldRule
  deriving DecidableEq, Repr, Inhabited

namespace Rule

/-- The constraints of which a rule consists. -/
def constraints : Rule → List String
  | .requiredString max => ["required", "string", s!"max:{max}"]
  | .nullableString => ["nullable", "string"]
  | .requiredIn values => ["required", "in:" ++ ",".intercalate values]
  | .requiredInteger => ["required", "integer"]
  | .requiredBoolean => ["required", "boolean"]
  | .requiredText => ["required", "string"]

/-- The field must have a value. -/
def isRequired : Rule → Bool
  | .nullableString => false
  | _ => true

/-- A field must have a value exactly if one of the constraints of its rule says so. -/
theorem isRequired_iff {rule : Rule} : rule.isRequired = true ↔ "required" ∈ rule.constraints := by
  cases rule <;> simp [isRequired, constraints]

end Rule

/-! ## Controllers -/

/-- An operation of a controller on its resource. -/
inductive Operation where
  /-- All records. -/
  | list
  /-- A new record. -/
  | create
  /-- One record. -/
  | readOne
  /-- A change of a record. -/
  | update
  /-- The deletion of a record. -/
  | delete
  deriving DecidableEq, Repr, Inhabited

/-- The operations in their order. -/
def Operation.all : List Operation :=
  [.list, .create, .readOne, .update, .delete]

/-- A controller of an entity. -/
structure Controller where
  /-- The name of the class. -/
  className : String
  /-- The class of the model. -/
  model : String
  /-- The variable that holds a record. -/
  variableName : String
  /-- The class of the form request. -/
  requestClass : String
  /-- The name of the resource in routes and pages. -/
  resource : String
  /-- The operations that the controller offers. -/
  operations : List Operation
  deriving DecidableEq, Repr, Inhabited

/-! ## Routes -/

/-- The routes of one resource. -/
structure RouteGroup where
  /-- The path of the resource. -/
  path : String
  /-- The class of the controller. -/
  controller : String
  /-- The model that owns the resource, for a nested path. -/
  parent : Option String
  deriving DecidableEq, Repr, Inhabited

/-- The routes of an entity: its own, then those of the entities it owns. -/
structure RouteSet where
  /-- The groups in their order. -/
  groups : List RouteGroup
  deriving DecidableEq, Repr, Inhabited

/-! ## Pages -/

/-- How the value of a field is entered. -/
inductive InputKind where
  /-- By choosing one of the given values. -/
  | choice (values : List String)
  /-- As a text of several lines. -/
  | multiLine
  /-- As a text of one line. -/
  | singleLine
  deriving DecidableEq, Repr, Inhabited

/-- A field as the pages show it. -/
structure ViewField where
  /-- The name of the field. -/
  name : String
  /-- The name that is shown. -/
  label : String
  /-- How its value is entered. -/
  input : InputKind
  deriving DecidableEq, Repr, Inhabited

/-- A page of a resource. -/
inductive ViewPage where
  /-- The list of all records. -/
  | list
  /-- The form for a new record. -/
  | create
  /-- The form for a record that is there. -/
  | edit
  /-- One record. -/
  | detail
  deriving DecidableEq, Repr, Inhabited

namespace ViewPage

/-- The pages in their order. -/
def all : List ViewPage :=
  [.list, .create, .edit, .detail]

/-- The name of the page's file without the ending. -/
def fileName : ViewPage → String
  | .list => "index"
  | .create => "create"
  | .edit => "edit"
  | .detail => "show"

end ViewPage

/-- The pages of an entity. -/
structure ViewSet where
  /-- The name of the resource, and of the directory of its pages. -/
  resource : String
  /-- The title of the list. -/
  title : String
  /-- The variable that holds one record. -/
  itemVariable : String
  /-- The variable that holds all records. -/
  collectionVariable : String
  /-- The fields that are shown. -/
  fields : List ViewField
  /-- The pages to write. -/
  pages : List ViewPage
  deriving DecidableEq, Repr, Inhabited

/-- The layout that all pages share. -/
structure Layout where
  /-- The name by which pages refer to the layout. -/
  name : String
  /-- The resources that the navigation leads to. -/
  navigation : List String
  deriving DecidableEq, Repr, Inhabited

/-! ## All kinds together -/

/-- The content of an artifact. -/
inductive ArtifactData where
  /-- A model. -/
  | model (model : Model)
  /-- A migration. -/
  | migration (migration : Migration)
  /-- A form request. -/
  | formRequest (request : FormRequest)
  /-- A controller behind the programming interface. -/
  | apiController (controller : Controller)
  /-- A controller behind the pages. -/
  | webController (controller : Controller)
  /-- Routes. -/
  | routes (routes : RouteSet)
  /-- Pages. -/
  | views (views : ViewSet)
  /-- A layout. -/
  | layout (layout : Layout)
  deriving DecidableEq, Repr, Inhabited

/-- The kind of an artifact with this content. -/
def ArtifactData.kind : ArtifactData → ArtifactKind
  | .model _ => .model
  | .migration _ => .migration
  | .formRequest _ => .formRequest
  | .apiController _ => .apiController
  | .webController _ => .webController
  | .routes _ => .routes
  | .views _ => .views
  | .layout _ => .layout

end Scaffold
