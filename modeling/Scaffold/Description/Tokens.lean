import Scaffold.Description.Error
import Scaffold.Text.Blank
import Scaffold.Text.Split

/-!
# Definitions in a description

A description is a list of definitions `name:type`, separated by commas. A comma inside brackets
separates nothing, so brackets have to be balanced. Positions in errors count bytes of UTF-8.

Both brackets and commas are found in one scan. It keeps the positions of the brackets that are
open, innermost first; the error at the end of the text names the outermost one.
-/

namespace Scaffold.Description

open Text

/-! ## Cutting a description into tokens -/

/-- The pieces between the commas outside brackets, where `position` is the place of the text in
the whole, `opened` the places of the open brackets, innermost first, and `piece` the piece read so
far, last character first. -/
def piecesFrom (position : Nat) (opened : List Nat) (piece : List Char) :
    List Char → Except ParseError (List (List Char))
  | [] =>
    match opened.getLast? with
    | some outermost => .error (.unbalanced outermost opened.length)
    | none => .ok [piece.reverse]
  | c :: rest =>
    let next := position + c.utf8Size
    if c == ',' && opened.isEmpty then
      (piecesFrom next [] [] rest).map (piece.reverse :: ·)
    else if c == '(' then piecesFrom next (position :: opened) (c :: piece) rest
    else if c == ')' then
      match opened with
      | [] => .error (.unexpectedClose position)
      | _ :: outer => piecesFrom next outer (c :: piece) rest
    else piecesFrom next opened (c :: piece) rest

/-- The pieces of a description, with their blanks. -/
def pieces (cs : List Char) : Except ParseError (List (List Char)) :=
  piecesFrom 0 [] [] cs

/-- The tokens among the pieces: those that hold more than blanks, without blanks around them. -/
def tokensOf (pieces : List (List Char)) : List (List Char) :=
  (pieces.map strip).filter fun token => !token.isEmpty

/-- The tokens of a description. -/
def splitTopLevel (raw : String) : Except ParseError (List String) :=
  (pieces raw.toList).map fun found => (tokensOf found).map String.ofList

/-! ## A definition's two parts -/

/-- The name and the type of a definition: what precedes and what follows its first colon, without
blanks around them. -/
def splitDefinition (token : String) : Except ParseError (String × String) :=
  match splitFirst ':' token.toList with
  | none => .error (.missingSeparator token)
  | some (front, back) =>
    let name := strip front
    if name.isEmpty then .error (.emptyName token)
    else .ok (String.ofList name, String.ofList (strip back))

end Scaffold.Description
