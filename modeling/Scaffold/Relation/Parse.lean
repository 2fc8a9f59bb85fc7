import Scaffold.Description.Tokens
import Scaffold.Name.Spellings
import Scaffold.Relation.Basic

/-!
# Reading relations

A relation is described by `name:kind`. Two things can go wrong, and they weigh differently: a text
that is no definition, or whose name stands for nothing, ends the reading; a kind that is unknown
only rejects that one relation. A relation that is listed again is dropped, where two relations are
the same if their canonical names and their kinds are.
-/

namespace Scaffold

open Text Description

/-- A relation whose kind is unknown. -/
structure UnknownRelation where
  /-- The name as it was written. -/
  related : String
  /-- The word that stands in the place of the kind. -/
  keyword : String
  deriving DecidableEq, Repr, Inhabited

/-- The relations of a description. -/
structure ReadRelations where
  /-- The relations, without repetitions. -/
  relations : List Relation
  /-- The relations of unknown kind. -/
  rejected : List UnknownRelation
  deriving DecidableEq, Repr, Inhabited

/-- The relation that a definition describes, or the one that is rejected. -/
def readRelation (token : String) : Except ParseError (Except UnknownRelation Relation) := do
  let (related, keyword) ← splitDefinition token
  match RelationKind.ofKeyword? keyword with
  | none => return .error { related, keyword }
  | some kind =>
    let name := Name.canonical related
    if name.isEmpty then throw (.emptyName (trim token))
    return .ok { related := name, kind }

/-- The relations that the tokens describe, where `taken` are the relations before them. -/
def readRelationTokens (taken : List Relation) : List String → Except ParseError ReadRelations
  | [] => .ok { relations := [], rejected := [] }
  | token :: rest => do
    match ← readRelation token with
    | .error unknown =>
      let found ← readRelationTokens taken rest
      return { found with rejected := unknown :: found.rejected }
    | .ok relation =>
      if relation ∈ taken then readRelationTokens taken rest
      else
        let found ← readRelationTokens (relation :: taken) rest
        return { found with relations := relation :: found.relations }

/-- The relations that a description lists. -/
def readRelations (raw : String) : Except ParseError ReadRelations := do
  let tokens ← splitTopLevel raw
  readRelationTokens [] tokens

end Scaffold
