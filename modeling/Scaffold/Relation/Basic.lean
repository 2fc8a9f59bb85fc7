/-!
# Relations

A relation says that an entity owns many of another, or belongs to one.
-/

namespace Scaffold

/-- How an entity is related to another. -/
inductive RelationKind where
  /-- The entity owns any number of the other. -/
  | hasMany
  /-- The entity belongs to one of the other. -/
  | belongsTo
  deriving DecidableEq, Repr, Inhabited

/-- A relation of an entity. -/
structure Relation where
  /-- The name of the other entity. -/
  related : String
  /-- How the entity is related to it. -/
  kind : RelationKind
  deriving DecidableEq, Repr, Inhabited

namespace RelationKind

/-- The kind as it is written in a description. -/
def keyword : RelationKind → String
  | .hasMany => "hasMany"
  | .belongsTo => "belongsTo"

/-- The kind that a keyword stands for. -/
def ofKeyword? (keyword : String) : Option RelationKind :=
  if keyword = "hasMany" then some .hasMany
  else if keyword = "belongsTo" then some .belongsTo
  else none

end RelationKind

end Scaffold
