import Scaffold.Artifact.Kind
import Scaffold.Description.Error
import Scaffold.Path
import Scaffold.Relation.Parse

/-!
# Errors

Everything that can go wrong while files are generated, with its wording. Two causes are not fatal:
a relation of unknown kind and an artifact that is there already are left out, and the rest goes on.
-/

namespace Scaffold

/-- Why a file or directory could not be read or written. -/
inductive Fault where
  /-- Nothing is there. -/
  | notFound
  /-- Something is there already. -/
  | alreadyThere
  /-- A directory is needed, and a file is there. -/
  | notDirectory
  /-- A file is needed, and a directory is there. -/
  | isDirectory
  /-- A name is longer than a directory can hold. -/
  | nameTooLong
  /-- A name holds the character that ends names. -/
  | nulInName
  /-- The content of the file is not text. -/
  | notText
  /-- Any other cause, in words. -/
  | other (reason : String)
  deriving DecidableEq, Repr, Inhabited

/-- The fault in words. -/
def Fault.message : Fault → String
  | .notFound => "No such file or directory (os error 2)"
  | .alreadyThere => "File exists (os error 17)"
  | .notDirectory => "Not a directory (os error 20)"
  | .isDirectory => "Is a directory (os error 21)"
  | .nameTooLong => "File name too long (os error 36)"
  | .nulInName => "file name contained an unexpected NUL byte"
  | .notText => "stream did not contain valid UTF-8"
  | .other reason => reason

/-- Why a generation, or a part of it, fails. -/
inductive Error where
  /-- The text of a description is refused. -/
  | parse (cause : ParseError)
  /-- The kind of a relation is unknown. -/
  | unknownRelation (relation : UnknownRelation)
  /-- An artifact of this kind for `name` is there already. -/
  | alreadyExists (kind : ArtifactKind) (name detail : String)
  /-- A file or directory could not be read or written. -/
  | io (path : Path) (fault : Fault)
  /-- A template could not be written. -/
  | render (reason : String)
  /-- The configuration is not usable. -/
  | config (reason : String)
  /-- The registry file is no list of names. -/
  | registry
  deriving DecidableEq, Repr, Inhabited

namespace Error

/-- The error in words. -/
def message : Error → String
  | .parse cause => cause.message
  | .unknownRelation relation =>
    s!"invalid relation type '{relation.keyword}' for {relation.related}"
  | .alreadyExists kind name detail => s!"{kind.label} for '{name}' already exists: {detail}"
  | .io path fault => s!"I/O error on {path.text}: {fault.message}"
  | .render reason => s!"template rendering failed: {reason}"
  | .config reason => s!"configuration error: {reason}"
  | .registry => "registry error"

/-- The error ends the generation; otherwise only one artifact or relation is left out. -/
def isFatal : Error → Bool
  | .unknownRelation _ | .alreadyExists .. => false
  | _ => true

end Error

end Scaffold
