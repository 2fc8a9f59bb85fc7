import Scaffold.Plan.Basic
import Scaffold.Schema
import Scaffold.Timestamp

/-!
# Planning one artifact

A step plans the artifact of one kind for one entity. It may plan nothing, and it may fail. Only the
step for migrations looks at the storage: it asks whether the table is there already.
-/

namespace Scaffold

/-- What a step may look at besides its entity. -/
structure PlanContext (m : Type → Type) where
  /-- The place that will be written to. -/
  storage : Storage m
  /-- The time of the migrations. -/
  timestamp : Timestamp
  /-- All entities of the plan. -/
  entities : List Entity

/-- A step of planning. -/
structure Step (m : Type → Type) where
  /-- The kind of the artifacts that it plans. -/
  kind : ArtifactKind
  /-- The artifact for an entity; `none` if it needs none. -/
  plan : Entity → PlanContext m → ExceptT Error m (Option ArtifactData)

/-! ## From fields to columns, rules and inputs -/

/-- The number of characters that a short text may have. -/
def stringMaxLength : Nat := 255

/-- The name by which pages refer to the layout. -/
def layoutView : String := "layouts.app"

namespace Field

/-- The column that holds the field. -/
def column (field : Field) : Column :=
  match field.kind with
  | .string => .string field.name
  | .text => .text field.name
  | .integer => .integer field.name
  | .boolean => .boolean field.name
  | .choice values => .choice field.name values
  | .custom columnType => .custom field.name columnType

/-- What is demanded of the value of the field. -/
def rule (field : Field) : Rule :=
  match field.kind with
  | .string => .requiredString stringMaxLength
  | .text => .nullableString
  | .integer => .requiredInteger
  | .boolean => .requiredBoolean
  | .choice values => .requiredIn values
  | .custom _ => .requiredText

/-- How the value of the field is entered. -/
def input (field : Field) : InputKind :=
  match field.kind with
  | .choice values => .choice values
  | .text => .multiLine
  | _ => .singleLine

end Field

/-! ## Names of classes and paths of routes -/

/-- The class of an entity's controllers. -/
def controllerClass (names : Name.Spellings) : String :=
  names.studly ++ "Controller"

/-- The class of an entity's form request. -/
def requestClass (names : Name.Spellings) : String :=
  names.studly ++ "Request"

/-- The route of the records of `child` that one record of `parent` owns. -/
def nestedPath (parent child : Name.Spellings) : String :=
  parent.snakePlural ++ "/\x7b" ++ parent.snake ++ "\x7d/" ++ child.snakePlural

/-! ## The artifacts of an entity -/

namespace Entity

/-- The method that leads along a relation. -/
def accessor (relation : Relation) : Accessor :=
  let related := Name.Spellings.of relation.related
  { method := match relation.kind with
      | .hasMany => related.camelPlural
      | .belongsTo => related.camel
    related := related.studly
    kind := relation.kind }

/-- The model of an entity. -/
def model (entity : Entity) : Model where
  className := entity.names.studly
  fillable := entity.fields.map Field.name
  accessors := entity.relations.map accessor
  softDeletes := true

/-- The columns of an entity's table: its fields between the key and the times. -/
def columns (entity : Entity) : List Column :=
  .id :: entity.fields.map Field.column ++ [.softDeletes, .timestamps]

/-- The migration that creates an entity's table. -/
def migration (timestamp : Timestamp) (entity : Entity) : Migration where
  table := entity.table
  logicalName := Schema.logicalName entity.table
  fileStem := timestamp.stamp ++ "_" ++ Schema.logicalName entity.table
  columns := entity.columns

/-- The form request of an entity. -/
def formRequest (entity : Entity) : FormRequest where
  className := requestClass entity.names
  rules := entity.fields.map fun field => ⟨field.name, field.rule⟩

/-- The controller of an entity, behind pages or a programming interface. -/
def controller (entity : Entity) : Controller where
  className := controllerClass entity.names
  model := entity.names.studly
  variableName := entity.names.camel
  requestClass := Scaffold.requestClass entity.names
  resource := entity.names.snakePlural
  operations := Operation.all

/-- The routes of an entity, and those of the entities it owns below it. -/
def routeSet (entity : Entity) : RouteSet where
  groups :=
    ⟨entity.names.snakePlural, controllerClass entity.names, none⟩ ::
      entity.owned.map fun related =>
        let child := Name.Spellings.of related
        ⟨nestedPath entity.names child, controllerClass child, some entity.names.studly⟩

/-- The pages of an entity. -/
def viewSet (entity : Entity) : ViewSet where
  resource := entity.names.snakePlural
  title := entity.names.studlyPlural
  itemVariable := entity.names.camel
  collectionVariable := entity.names.snakePlural
  fields := entity.fields.map fun field => ⟨field.name, Text.capitalize field.name, field.input⟩
  pages := ViewPage.all

/-- The layout, with a way to each of the entities. -/
def layoutOf (entities : List Entity) : Layout where
  name := layoutView
  navigation := entities.map fun entity => entity.names.snakePlural

end Entity

/-! ## Steps -/

namespace Step

variable {m : Type → Type} [Monad m]

/-- The step that plans an artifact which depends on the entity alone. -/
def always (kind : ArtifactKind) (data : Entity → ArtifactData) : Step m where
  kind := kind
  plan entity _ := pure (some (data entity))

/-- The step for migrations: one for each table that is not there yet. -/
def migration : Step m where
  kind := .migration
  plan entity context := do
    Schema.check context.storage entity.table
    return some (.migration (entity.migration context.timestamp))

/-- The step for the layout, which is planned with the root entity. -/
def layout : Step m where
  kind := .layout
  plan entity context :=
    pure (if entity.isRoot then some (.layout (Entity.layoutOf context.entities)) else none)

/-- The standard step of each kind. -/
def standard : ArtifactKind → Step m
  | .model => always .model fun entity => .model entity.model
  | .migration => migration
  | .formRequest => always .formRequest fun entity => .formRequest entity.formRequest
  | .apiController => always .apiController fun entity => .apiController entity.controller
  | .webController => always .webController fun entity => .webController entity.controller
  | .routes => always .routes fun entity => .routes entity.routeSet
  | .views => always .views fun entity => .views entity.viewSet
  | .layout => layout

/-- The standard step for a kind plans artifacts of this kind. -/
theorem kind_standard (kind : ArtifactKind) : (standard kind : Step m).kind = kind := by
  cases kind <;> rfl

end Step

end Scaffold
