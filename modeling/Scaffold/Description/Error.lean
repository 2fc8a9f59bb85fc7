/-!
# What can be wrong with the text of a description

Fields and relations are described by short texts such as `title:string,state:enum(open,done)`.
This module holds the causes for which such a text is refused, and their wording.
-/

namespace Scaffold

/-- Why the text of a description is refused. -/
inductive ParseError where
  /-- A bracket opened at byte `position`, the outermost of `depth`, is never closed. -/
  | unbalanced (position depth : Nat)
  /-- The bracket at byte `position` closes nothing. -/
  | unexpectedClose (position : Nat)
  /-- The definition has no colon. -/
  | missingSeparator (token : String)
  /-- The definition has no name before its colon, or a name that stands for nothing. -/
  | emptyName (token : String)
  /-- The definition of `field` has nothing after its colon. -/
  | emptyType (field : String)
  /-- An item of the choice `field` has a bracket in it. -/
  | invalidEnumValue (field value : String)
  /-- The choice `field` has no items. -/
  | emptyEnum (field : String)
  /-- A second field has the name of an earlier one. -/
  | duplicateField (name : String)
  deriving DecidableEq, Repr, Inhabited

/-- The error in words. -/
def ParseError.message : ParseError → String
  | .unbalanced position depth =>
    s!"unbalanced parentheses: group opened at position {position} is never closed " ++
      s!"({depth} open at end of input)"
  | .unexpectedClose position => s!"unbalanced parentheses: unexpected ')' at position {position}"
  | .missingSeparator token => s!"invalid definition '{token}': expected 'name:type'"
  | .emptyName token => s!"invalid definition '{token}': name is empty"
  | .emptyType field => s!"field '{field}' has no type"
  | .invalidEnumValue field value => s!"enum field '{field}' has an invalid value '{value}'"
  | .emptyEnum field => s!"enum field '{field}' declares no values"
  | .duplicateField name => s!"field '{name}' is declared more than once"

end Scaffold
