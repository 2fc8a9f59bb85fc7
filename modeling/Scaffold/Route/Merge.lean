import Scaffold.Storage.Basic
import Scaffold.Text.Lines

/-!
# Merging lines into route files

A route file is shared by all entities and by the people who edit it. Lines are added to it only if
they are missing, and nothing in it is changed; a file that does not start as a script gets the
opening in front. Lines are compared without the blanks at their ends, and blank lines count for
nothing.
-/

namespace Scaffold.Route

open Text

/-! ## Lines -/

/-- What a line of a route file does. -/
inductive LineClass where
  /-- It makes a class known. -/
  | use
  /-- It declares a route. -/
  | route
  /-- Anything else. -/
  | other
  deriving DecidableEq, Repr, Inhabited

/-- What a line does, blanks at its ends apart. -/
def classify (line : String) : LineClass :=
  let cs := strip line.toList
  if "use ".toList.isPrefixOf cs then .use
  else if "Route::".toList.isPrefixOf cs then .route
  else .other

/-- The lines without the blanks at their ends, except for blank lines and those that are among
`present` or come again. -/
def unseen (present : List String) : List String → List String
  | [] => []
  | line :: rest =>
    let line := trim line
    if line.isEmpty ∨ line ∈ present then unseen present rest
    else line :: unseen (line :: present) rest

/-- The lines that are missing from the text `existing`. -/
def missing (existing : String) (lines : List String) : List String :=
  unseen (contentLines existing) lines

/-! ## The opening -/

/-- How a script starts. -/
def preamble : String := "<?php"

/-- The opening of a script and the blank line after it. -/
def opening : String := preamble ++ "\n\n"

/-- The content starts as a script, blanks before it apart. -/
def startsAsScript (content : String) : Bool :=
  preamble.toList.isPrefixOf (content.toList.dropWhile isBlank)

/-- The content with the opening in front; `none` if it needs none. -/
def withPreamble : Option String → Option String
  | none => some opening
  | some content => if startsAsScript content then none else some (opening ++ content)

/-! ## Merging -/

/-- What a merge did to a file. -/
structure Merged where
  /-- The opening was written. -/
  preambleInserted : Bool
  /-- The lines that were missing, in the order in which they were written. -/
  appended : List String
  deriving DecidableEq, Repr, Inhabited

/-- Adds the missing lines to the route file `path`. -/
def merge {m : Type → Type} [Monad m] (storage : Storage m) (path : Path) (lines : List String) :
    ExceptT Error m Merged := do
  let current ← storage.read path
  match withPreamble current with
  | some opened =>
    storage.ensureParent path
    storage.write path opened
    append opened true
  | none => append (current.getD "") false
where
  /-- Appends what is missing from `content`. -/
  append (content : String) (preambleInserted : Bool) : ExceptT Error m Merged := do
    let appended := missing content lines
    unless appended.isEmpty do
      storage.append path appended
    return { preambleInserted, appended }

end Scaffold.Route
