import Scaffold.Description.Tokens
import Scaffold.Field.Basic

/-!
# Reading fields

A field is described by `name:type`. The type `enum(…)` lists the values of a choice, separated by
commas; quotes and blanks around a value do not belong to it, and empty values are dropped. Every
other type is looked up among the known names.

The fields of an entity are read from left to right, and the first fault ends the reading.
-/

namespace Scaffold

open Text Description

/-! ## Choices -/

/-- What stands between the brackets of `enum(…)`; blanks may precede the opening bracket, and the
closing one is the last character. -/
def choiceBody (definition : List Char) : Option (List Char) :=
  match "enum".toList.isPrefixOf? definition with
  | none => none
  | some rest =>
    match rest.dropWhile isBlank with
    | '(' :: inner => if inner.getLast? = some ')' then some inner.dropLast else none
    | _ => none

/-- A character that is dropped at both ends of a value: a blank or a quote. -/
def isValueEdge (c : Char) : Bool :=
  isBlank c || c == '\x27' || c == '"'

/-- The values among the items of a choice, which belongs to the field `field`. -/
def choiceValues (field : String) : List (List Char) → Except ParseError (List String)
  | [] => .ok []
  | item :: rest =>
    let value := stripWhile isValueEdge item
    if value.contains '(' || value.contains ')' then
      .error (.invalidEnumValue field (String.ofList (strip item)))
    else
      (choiceValues field rest).map fun values =>
        if value.isEmpty then values else String.ofList value :: values

/-- The kind that the body of a choice describes. -/
def readChoice (field : String) (body : List Char) : Except ParseError FieldKind :=
  match choiceValues field (body.splitOn ',') with
  | .error e => .error e
  | .ok [] => .error (.emptyEnum field)
  | .ok values => .ok (.choice values)

/-! ## Fields -/

/-- The kind that a type describes, for the field `field`. -/
def readKind (field definition : String) : Except ParseError FieldKind :=
  match choiceBody definition.toList with
  | some body => readChoice field body
  | none => .ok (.ofTypeName definition)

/-- The field that a definition describes. -/
def readField (token : String) : Except ParseError Field := do
  let (name, definition) ← splitDefinition token
  if definition.isEmpty then throw (.emptyType name)
  let kind ← readKind name definition
  return { name, kind }

/-- The fields that the tokens describe, where `taken` are the names of the fields before them. -/
def readTokens (taken : List String) : List String → Except ParseError (List Field)
  | [] => .ok []
  | token :: rest => do
    let field ← readField token
    if field.name ∈ taken then throw (.duplicateField field.name)
    let fields ← readTokens (field.name :: taken) rest
    return field :: fields

/-- The fields that a description lists. -/
def readFields (raw : String) : Except ParseError (List Field) := do
  let tokens ← splitTopLevel raw
  readTokens [] tokens

end Scaffold
