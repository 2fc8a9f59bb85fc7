import Scaffold.Artifact.Kind
import Scaffold.Path

/-!
# What is to be written

A rendered artifact is a list of outputs, each for one file. There are three sorts: a file that is
written anew each time, a starter that is written once and then left to its owner, and lines that
are merged into a file which others share.
-/

namespace Scaffold

/-- Something to be written to one file. -/
inductive Output where
  /-- The whole content of a file, in place of what was there. -/
  | file (path : Path) (content : String)
  /-- The whole content of a file, unless there is one. -/
  | starter (path : Path) (content : String)
  /-- Lines that the file has to hold. -/
  | lines (path : Path) (lines : List String)
  deriving DecidableEq, Repr, Inhabited

/-- The file that is written. -/
def Output.path : Output → Path
  | .file path _ | .starter path _ | .lines path _ => path

end Scaffold
