import Scaffold.Field.Basic
import Scaffold.Name.Spellings
import Scaffold.Relation.Basic

/-!
# Entities

An entity has a name, fields and relations. The root entity is the one that was asked for. Entities
that it owns and that nothing else describes are synthesized: they get default fields and belong to
their owner.
-/

namespace Scaffold

/-- Where an entity comes from. -/
inductive Origin where
  /-- It was asked for. -/
  | root
  /-- It was added because `owner` owns many of it. -/
  | synthesized (owner : String)
  deriving DecidableEq, Repr, Inhabited

/-- An entity. -/
structure Entity where
  /-- The spellings of its name. -/
  names : Name.Spellings
  /-- Its fields, in their order. -/
  fields : List Field
  /-- Its relations, in their order. -/
  relations : List Relation
  /-- Where it comes from. -/
  origin : Origin
  deriving DecidableEq, Repr, Inhabited

/-- The fields of an entity that nothing describes. -/
def defaultFields : List Field :=
  [⟨"title", .string⟩, ⟨"description", .text⟩, ⟨"status", .string⟩]

namespace Entity

/-- The entity that was asked for. -/
def root (name : String) (fields : List Field) (relations : List Relation) : Entity where
  names := .of name
  fields := fields
  relations := relations
  origin := .root

/-- The entity `name`, added because `owner` owns many of it. -/
def synthesized (name owner : String) : Entity where
  names := .of name
  fields := defaultFields
  relations := [⟨owner, .belongsTo⟩]
  origin := .synthesized owner

/-- The canonical name. -/
def name (entity : Entity) : String :=
  entity.names.studly

/-- The table that holds the records. -/
def table (entity : Entity) : String :=
  entity.names.snakePlural

/-- The entity was asked for. -/
def isRoot (entity : Entity) : Bool :=
  entity.origin == .root

/-- The relations of one kind. -/
def relationsOf (entity : Entity) (kind : RelationKind) : List Relation :=
  entity.relations.filter fun relation => relation.kind == kind

/-- The names of the entities that this one owns. -/
def owned (entity : Entity) : List String :=
  (entity.relationsOf .hasMany).map Relation.related

/-- The root is called by the canonical form of the name it is made from. -/
@[simp] theorem name_root (name : String) (fields : List Field) (relations : List Relation) :
    (root name fields relations).name = Name.canonical name := rfl

/-- So is an entity that is added. -/
@[simp] theorem name_synthesized (name owner : String) :
    (synthesized name owner).name = Name.canonical name := rfl

/-- An entity that is added owns nothing, so it adds no further ones. -/
@[simp] theorem owned_synthesized (name owner : String) : (synthesized name owner).owned = [] := rfl

end Entity

end Scaffold
