import Scaffold.Entity.Basic
import Scaffold.Field.Parse
import Scaffold.Relation.Parse

/-!
# Requests

What is asked for: an entity's name, its fields and its relations, as texts. Reading a request
yields what it describes or the first fault in it: first in the name, then in the fields, then in
the relations.
-/

namespace Scaffold

/-- What is asked for. -/
structure Request where
  /-- The name of the entity, in any spelling. -/
  entity : String
  /-- The description of its fields. -/
  fields : String
  /-- The description of its relations. -/
  relations : Option String := none
  deriving DecidableEq, Repr, Inhabited

/-- What a request describes. -/
structure Description where
  /-- The canonical name of the entity. -/
  name : String
  /-- The fields of the entity. -/
  fields : List Field
  /-- The relations of the entity. -/
  relations : List Relation
  /-- The relations whose kind is unknown. -/
  rejected : List UnknownRelation
  deriving DecidableEq, Repr, Inhabited

/-- What a request describes. -/
def Request.describe (request : Request) : Except ParseError Description := do
  let name := Name.canonical request.entity
  if name.isEmpty then throw (.emptyName request.entity)
  let fields ← readFields request.fields
  let found ← readRelations (request.relations.getD "")
  return { name, fields, relations := found.relations, rejected := found.rejected }

/-- The entity that a description is about. -/
def Description.root (description : Description) : Entity :=
  .root description.name description.fields description.relations

end Scaffold
