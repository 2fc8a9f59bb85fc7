/-!
# Fields

A field of an entity has a name and a kind. A kind is one of four plain types, a choice among given
values, or any other type name, which is handed through to the generated migration as it is.
-/

namespace Scaffold

/-- What a field holds. -/
inductive FieldKind where
  /-- A short text. -/
  | string
  /-- A long text, which may be missing. -/
  | text
  /-- A whole number. -/
  | integer
  /-- A truth value. -/
  | boolean
  /-- One of the given values. -/
  | choice (values : List String)
  /-- A type of the database that has no rule of its own here. -/
  | custom (typeName : String)
  deriving DecidableEq, Repr, Inhabited

/-- A field of an entity. -/
structure Field where
  /-- The name, which is also the name of the column. -/
  name : String
  /-- What the field holds. -/
  kind : FieldKind
  deriving DecidableEq, Repr, Inhabited

namespace FieldKind

/-- The kind that a type name stands for, a choice apart. -/
def ofTypeName (name : String) : FieldKind :=
  if name = "string" then .string
  else if name = "text" ∨ name = "longText" then .text
  else if name = "integer" ∨ name = "int" then .integer
  else if name = "boolean" ∨ name = "bool" then .boolean
  else .custom name

/-- The kind as it is written in a description. -/
def typeName : FieldKind → String
  | .string => "string"
  | .text => "text"
  | .integer => "integer"
  | .boolean => "boolean"
  | .choice values => "enum(" ++ ",".intercalate values ++ ")"
  | .custom name => name

end FieldKind

/-- The field as it is written in a description. -/
def Field.display (field : Field) : String :=
  field.name ++ ":" ++ field.kind.typeName

end Scaffold
